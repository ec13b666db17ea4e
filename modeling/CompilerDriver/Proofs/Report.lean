import CompilerDriver.Report
import CompilerDriver.Proofs.Dispatch
/-!
What the report of a dispatch says.

A report speaks on one of the two outputs only. The exit code and the text on that output tell how the dispatch
ended, and a dispatch that fails never does so without a word.
-/
namespace CompilerDriver

open CommandLine

-- Something of the text can be seen.
def Text.Visible (s : String) : Prop :=
  ∃ c ∈ s.toList, isBlank c = false

theorem Text.visible_iff {s : String} : Visible s ↔ allBlank s = false := by
  simp [Visible, allBlank]

instance (s : String) : Decidable (Text.Visible s) :=
  decidable_of_iff _ Text.visible_iff.symm

theorem Text.Visible.append {s : String} (h : Visible s) (t : String) : Visible (s ++ t) := by
  obtain ⟨c, hc, hb⟩ := h
  exact ⟨c, by simp [hc], hb⟩

theorem Text.Visible.ne_empty {s : String} (h : Visible s) : s ≠ "" := by
  rintro rfl
  simp [Visible] at h

namespace Report

variable {s : String}

-- The text with a line feed at its end.
def ended (s : String) : String :=
  if s.toList.getLast? = some '\n' then s else s ++ "\n"

theorem withNewline_empty : withNewline "" = "" :=
  rfl

theorem withNewline_of_ne (h : s ≠ "") : withNewline s = ended s := by
  simp [withNewline, ended, h]

theorem getLast?_ended (s : String) : (ended s).toList.getLast? = some '\n' := by
  unfold ended
  split
  case isTrue h => exact h
  case isFalse => simp

theorem getLast?_withNewline (h : withNewline s ≠ "") : (withNewline s).toList.getLast? = some '\n' := by
  have hs : s ≠ "" := by
    rintro rfl
    exact h withNewline_empty
  exact withNewline_of_ne hs ▸ getLast?_ended s

theorem visible_ended (h : Text.Visible s) : Text.Visible (ended s) := by
  unfold ended
  split
  case isTrue => exact h
  case isFalse => exact h.append "\n"

-- What ends otherwise than in a line feed gets one.
theorem ended_append {t t' : String} (ht : t.toList.getLast? ≠ some '\n') (hne : t ≠ "") (ht' : t ++ "\n" = t')
    (s : String) : ended (s ++ t) = s ++ t' := by
  have hlist : t.toList ≠ [] := by simpa using hne
  rw [ended, if_neg, String.append_assoc, ht']
  rwa [String.toList_append, List.getLast?_append_of_ne_nil _ hlist]

theorem withNewline_unknownProviderText (name : String) (known : List String) :
    withNewline (unknownProviderText name known) =
      s!"No such provider: {name} please try one of: [" ++ ", ".intercalate known ++ "]\n" := by
  have hword : Text.Visible "No such provider: " := by decide
  have hne : unknownProviderText name known ≠ "" :=
    (hword.append _ |>.append _ |>.append _ |>.append _).ne_empty
  rw [withNewline_of_ne hne]
  exact ended_append (by decide) (by decide) (by decide) _

end Report

-- Each message begins with a word of its own, whatever is put into it.
theorem CommandLine.UsageError.visible_message (e : UsageError) : Text.Visible e.message := by
  have hword : ∀ s ∈ ["error: unexpected argument '", "error: the argument '", "error: unexpected value '",
      "error: a value is required for '", "error: invalid UTF-8 was detected in one or more arguments\n\nUsage: "],
      Text.Visible s := by decide
  simp only [List.forall_mem_cons] at hword
  obtain ⟨h₁, h₂, h₃, h₄, h₅, _⟩ := hword
  cases e
  case unexpected => exact h₁.append _ |>.append _ |>.append _ |>.append _ |>.append _ |>.append _
  case repeated => exact h₂.append _ |>.append _ |>.append _ |>.append _
  case unwantedValue => exact h₃.append _ |>.append _ |>.append _ |>.append _ |>.append _ |>.append _
  case missingValue => exact h₄.append _ |>.append _
  case notText => exact h₅.append _ |>.append _

-- Whatever a provider says, its failure is told with a text that can be seen.
def Outcome.diagnostic (provider text : String) : String :=
  if Text.allBlank text then s!"Provider {provider} failed" else text

theorem Outcome.withDiagnostic_failure (provider text : String) :
    (failure text).withDiagnostic provider = .failure (diagnostic provider text) := by
  simp only [withDiagnostic, diagnostic]
  split <;> rfl

theorem Outcome.visible_diagnostic (provider text : String) : Text.Visible (diagnostic provider text) := by
  unfold diagnostic
  split
  case isTrue =>
    have h : Text.Visible "Provider " := by decide
    exact h.append _ |>.append _
  case isFalse h => exact Text.visible_iff.mpr (Bool.eq_false_iff.mpr h)

-- What the report of a dispatch can be relied on to say. It speaks on one output, in whole lines. A provider's own
-- text is passed on if it can be seen. The exit code is 0 unless a provider failed, a name is unknown or the command
-- line cannot be parsed.
structure Registry.Reports (r : Registry) (args : List Token) (calls : List (Provider × Invocation))
    (report : Report) : Prop where
  oneSided : report.stdout = "" ∨ report.stderr = ""
  outEnds : report.stdout ≠ "" → report.stdout.toList.getLast? = some '\n'
  errEnds : report.stderr ≠ "" → report.stderr.toList.getLast? = some '\n'
  succeeded : ∀ p i, (p, i) ∈ calls → (p.invoke i).outcome = .success →
    report.status.code = 0 ∧ report.stdout = "" ∧ report.stderr = ""
  failed : ∀ p i text, (p, i) ∈ calls → (p.invoke i).outcome = .failure text →
    report.status.code = 2 ∧ report.stdout = "" ∧ Text.Visible report.stderr ∧
    (Text.Visible text → report.stderr = if text.toList.getLast? = some '\n' then text else text ++ "\n") ∧
    (¬Text.Visible text → report.stderr = s!"Provider {p.name} failed\n")
  unknown : ∀ s name, (Composition.ofRegistry r).parse args = .ok s → s.globals.help = false →
    s.globals.version = false → s.provider = some name → name ∉ r.names →
    report.status.code = 1 ∧ report.stderr = "" ∧ report.stdout =
      s!"No such provider: {name} please try one of: [" ++ ", ".intercalate r.names ++ "]\n"
  refused : ∀ e, (Composition.ofRegistry r).parse args = .error e →
    report.status.code = 64 ∧ report.stdout = "" ∧ Text.Visible report.stderr
  otherwise : report.status.code ≠ 0 →
    (∃ p i text, (p, i) ∈ calls ∧ (p.invoke i).outcome = .failure text) ∨
    (∃ s name, (Composition.ofRegistry r).parse args = .ok s ∧ s.globals.help = false ∧
      s.globals.version = false ∧ s.provider = some name ∧ name ∉ r.names) ∨
    ∃ e, (Composition.ofRegistry r).parse args = .error e

namespace Registry.Comes

variable {r : Registry} {args : List Token} {calls : List (Provider × Invocation)} {d : Disposition}
  {p : Provider} {i : Invocation}

theorem report_of_success (h : r.Comes args calls d) (hm : (p, i) ∈ calls) (ho : (p.invoke i).outcome = .success) :
    Report.ofDisposition d = { status := .success } := by
  have ⟨_, _, _, _, _, _, hd⟩ := h.of_mem hm
  rw [hd, ho]
  rfl

theorem report_of_failure {text : String} (h : r.Comes args calls d) (hm : (p, i) ∈ calls)
    (ho : (p.invoke i).outcome = .failure text) : Report.ofDisposition d =
      { status := .providerFailure, stderr := Report.ended (Outcome.diagnostic p.name text) } := by
  have ⟨_, _, _, _, hl, _, hd⟩ := h.of_mem hm
  rw [hd, ho, Outcome.withDiagnostic_failure, ← name_of_lookup hl, Report.ofDisposition,
    Report.withNewline_of_ne (Outcome.visible_diagnostic p.name text).ne_empty]

theorem report_of_unknown {s : Selection} {name : String} (h : r.Comes args calls d)
    (hp : (Composition.ofRegistry r).parse args = .ok s) (hh : s.globals.help = false)
    (hv : s.globals.version = false) (hn : s.provider = some name) (hl : name ∉ r.names) :
    Report.ofDisposition d = { status := .unknownProvider, stdout :=
      s!"No such provider: {name} please try one of: [" ++ ", ".intercalate r.names ++ "]\n" } := by
  have hargs : ¬(args = [] ∨ s.globals.help = true) := by
    rw [hh, or_iff_left Bool.false_ne_true]
    rintro rfl
    cases hp
    cases hn
  have ⟨_, hd⟩ := h.unique (.unknown hp hargs hv hn (lookup_eq_none_iff.mpr hl))
  rw [hd, Report.ofDisposition, Report.withNewline_unknownProviderText]

theorem report_of_refused {e : UsageError} (h : r.Comes args calls d)
    (hp : (Composition.ofRegistry r).parse args = .error e) :
    Report.ofDisposition d = { status := .usage, stderr := Report.ended e.message } := by
  have ⟨_, hd⟩ := h.unique (.refused hp)
  rw [hd, Report.ofDisposition, Report.withNewline_of_ne e.visible_message.ne_empty]

end Registry.Comes

namespace Report

theorem oneSided (d : Disposition) : (ofDisposition d).stdout = "" ∨ (ofDisposition d).stderr = "" := by
  fun_cases ofDisposition d <;> simp

theorem getLast?_stdout {d : Disposition} (h : (ofDisposition d).stdout ≠ "") :
    (ofDisposition d).stdout.toList.getLast? = some '\n' := by
  fun_cases ofDisposition d
  case case1 | case2 | case3 => exact getLast?_withNewline h
  all_goals exact absurd rfl h

theorem getLast?_stderr {d : Disposition} (h : (ofDisposition d).stderr ≠ "") :
    (ofDisposition d).stderr.toList.getLast? = some '\n' := by
  fun_cases ofDisposition d
  case case5 | case6 => exact getLast?_withNewline h
  all_goals exact absurd rfl h

end Report

theorem dispatch_reports (r : Registry) (check : Bool) (args : List Token) :
    r.Reports args (r.dispatch check args).calls (Report.ofDisposition (r.dispatch check args).disposition) := by
  have hc := r.comes_dispatch check args
  generalize (r.dispatch check args).calls = calls, (r.dispatch check args).disposition = d at hc
  constructor
  case oneSided => exact Report.oneSided d
  case outEnds => exact Report.getLast?_stdout
  case errEnds => exact Report.getLast?_stderr
  case succeeded =>
    intro p i hm ho
    rw [hc.report_of_success hm ho]
    exact ⟨rfl, rfl, rfl⟩
  case failed =>
    intro p i text hm ho
    rw [hc.report_of_failure hm ho]
    refine ⟨rfl, rfl, Report.visible_ended (Outcome.visible_diagnostic ..), fun hv => ?_, fun hv => ?_⟩
    · rw [Outcome.diagnostic, if_neg (by simp [Text.visible_iff.mp hv]), Report.ended]
    · rw [Outcome.diagnostic, if_pos (by simpa [Text.visible_iff] using hv)]
      exact Report.ended_append (by decide) (by decide) (by decide) _
  case unknown =>
    intro s name hp hh hv hn hl
    rw [hc.report_of_unknown hp hh hv hn hl]
    exact ⟨rfl, rfl, rfl⟩
  case refused =>
    intro e hp
    rw [hc.report_of_refused hp]
    exact ⟨rfl, rfl, Report.visible_ended e.visible_message⟩
  case otherwise =>
    intro hcode
    cases hc
    case refused e hp => exact .inr (.inr ⟨e, hp⟩)
    case unknown s name hp hh hv hn hl =>
      have hh := Bool.eq_false_iff.mpr (not_or.mp hh).right
      exact .inr (.inl ⟨s, name, hp, hh, hv, hn, Registry.lookup_eq_none_iff.mp hl⟩)
    case called s name p _ _ _ _ _ =>
      cases ho : (p.invoke (s.toInvocation name)).outcome
      case success => simp [ho, Outcome.withDiagnostic, Report.ofDisposition, ExitStatus.code] at hcode
      case failure text => exact .inl ⟨p, _, text, List.mem_singleton_self _, ho⟩
    all_goals exact absurd rfl hcode

-- A text of blanks says nothing, even if it is not empty.
example :
    let r := Registry.ofProviders [
      { name := "sim", usage := .ofSummary "sim", invoke := fun i => { outcome := .failure (" ".intercalate i.args) } }]
    let stderr args := (Report.ofDisposition (r.dispatch false (args.map .ofString)).disposition).stderr
    stderr ["sim", "\u00a0", "\n"] = "Provider sim failed\n" ∧ stderr ["sim", "a\nb\n"] = "a\nb\n" ∧
      stderr ["sim", "a"] = "a\n" := by
  decide +kernel

end CompilerDriver
