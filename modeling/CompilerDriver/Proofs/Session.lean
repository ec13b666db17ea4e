import CompilerDriver.Session
import CompilerDriver.Proofs.CheckStarts
import CompilerDriver.Proofs.Report
/-!
Help and version, whatever a run finds around it.

Every step on the way to the providers gives a result and at most a line of the log, and a provider that is found has a
name that is never taken for an option. So help and version are answered in any surroundings.
-/
namespace CompilerDriver

open CommandLine

-- Only a line of the log.
def Event.isLog : Event → Bool
  | .log .. => true
  | .out _ | .err _ => false

theorem Session.flatMap_outOf {es : List Event} (h : ∀ e ∈ es, e.isLog = true) : es.flatMap outOf = [] := by
  refine List.flatMap_eq_nil_iff.mpr fun e he => ?_
  have := h e he
  cases e <;> simp_all [Event.isLog, outOf]

theorem ConfigurationFile.isLog_of_mem {w : World} {e : Event} (h : e ∈ (discover w).2) : e.isLog = true := by
  unfold discover loadOrDefault at h
  split at h
  case h_1 =>
    dsimp only at h
    split at h
    all_goals
      simp only [List.mem_cons, List.not_mem_nil, or_false] at h
      rcases h with rfl | rfl <;> rfl
  case h_2 => cases h

namespace Discovery

variable {w : World} {c : Configuration} {paths : List String}

theorem isLog_of_mem {e : Event} (h : e ∈ (discover w c paths).2) : e.isLog = true := by
  simp only [discover, List.mem_append, List.mem_filterMap, List.mem_singleton] at h
  rcases h with ⟨x, _, hx⟩ | rfl
  · cases x
    case ok => cases hx
    case error => exact Option.some.inj hx ▸ rfl
  · rfl

-- What is found has been checked, wherever it comes from.
theorem defect?_of_mem {m : Manifest} (h : m ∈ (discover w c paths).1) : m.defect? = none := by
  simp only [discover, candidates, List.filterMap_append, List.mem_append, List.mem_filterMap] at h
  rcases h with ⟨x, hx, hm⟩ | ⟨x, hx, hm⟩
  · obtain ⟨m', _, rfl⟩ := List.mem_map.mp hx
    unfold ofInline at hm
    split at hm
    case h_1 hd => exact Option.some.inj hm ▸ hd
    case h_2 => cases hm
  · obtain ⟨dir, _, hx⟩ := List.mem_flatMap.mp hx
    obtain ⟨path, _, rfl⟩ := List.mem_map.mp hx
    unfold ofFile at hm
    split at hm
    case h_1 m' hl =>
      have ⟨_, m₀, _, _, hd, he⟩ := ManifestFile.load_eq_ok_iff.mp hl
      cases hm
      exact he ▸ hd
    case h_2 => cases hm

end Discovery

theorem Registry.isLog_of_mem {ps : List Provider} {e : Event} (h : e ∈ registrationEvents ps) : e.isLog = true := by
  obtain ⟨_, _, rfl⟩ := List.mem_map.mp h
  rfl

-- Each line of the help text ends in a line feed, so the text does as well.
theorem Help.getLast?_text (c : Composition) : (Help.text c).toList.getLast? = some '\n' := by
  have hjoin : ∀ pieces : List String, pieces ≠ [] →
      (String.join (pieces.map (· ++ "\n"))).toList.getLast? = some '\n' := by
    intro pieces hne
    rw [← List.dropLast_concat_getLast hne, List.map_append, String.join_append]
    simp
  exact hjoin _ (by simp [allLines])

theorem Help.text_ne_empty (c : Composition) : Help.text c ≠ "" := by
  intro h
  have hlast := Help.getLast?_text c
  rw [h] at hlast
  cases hlast

namespace Registry

variable {r : Registry} {args : List Token} {s : Selection}

theorem run_forM_note (ws : List Composition.Warning) (t : Trace) :
    (ws.forM fun w => Traced.note w.event).run t = ((), t.adding [] 0 (ws.map (·.event))) := by
  induction ws generalizing t
  case nil => simp [Trace.adding]; rfl
  case cons w ws hi =>
    refine (hi _).trans ?_
    simp [Trace.adding]

-- What a dispatch does before it looks at the arguments: warnings come into the log.
def prologue (r : Registry) : List Event :=
  (Composition.warnings r).map (·.event)

theorem dispatch_eq_of_obeyed {d : Disposition} (check : Bool) (hp : (Composition.ofRegistry r).parse args = .ok s)
    (h : r.route (.ofRegistry r) check args.isEmpty s = pure d) :
    r.dispatch check args = { disposition := d, events := r.prologue } := by
  have hwarn := run_forM_note (Composition.warnings r) {}
  rw [Trace.adding] at hwarn
  simp only [dispatch, obey, hp, h, StateT.run_bind, hwarn]
  rfl

theorem dispatch_of_help (check : Bool) (hp : (Composition.ofRegistry r).parse args = .ok s)
    (hh : (args.isEmpty || s.globals.help) = true) : r.dispatch check args =
      { disposition := .help (Help.text (.ofRegistry r)), events := r.prologue } :=
  dispatch_eq_of_obeyed check hp <| by rw [route, if_pos hh]

theorem dispatch_of_version (check : Bool) (hp : (Composition.ofRegistry r).parse args = .ok s)
    (hh : (args.isEmpty || s.globals.help) = false) (hv : s.globals.version = true) : r.dispatch check args =
      { disposition := .version versionLine, events := r.prologue } :=
  dispatch_eq_of_obeyed check hp <| by rw [route, hh, if_neg Bool.false_ne_true, if_pos hv]

-- A switch alone is read as that switch, whatever providers there are.
theorem parse_switch (hr : ∀ p ∈ r.providers, Manifest.isToken p.name = true) (w : Globals.Switch) :
    (Composition.ofRegistry r).parse [.ofSwitch w] = .ok { globals := .ofNames [w.name] } := by
  have ⟨o, ho, hname⟩ : ∃ o, Composition.globalOption? w.name = some o ∧ o.name = w.name := by
    cases w <;> exact ⟨_, rfl, rfl⟩
  simp [Composition.parse, Composition.parseFrom, Composition.named?_ofSwitch hr, Token.shape_ofSwitch,
    Token.text?_ofString, ho, hname]

end Registry
namespace Session

variable (launch : Program.Launcher) (w : World) (now : Time.Instant)

-- The manifests that a run discovers.
def found (w : World) : List Manifest :=
  let c := (ConfigurationFile.discover w).1
  (Discovery.discover w c (Discovery.searchPaths w c)).1

-- The providers that a run can dispatch to.
def registry : Registry :=
  .ofProviders ((found w).map (Manifest.toProvider launch))

theorem isLog_of_mem {e : Event} (h : e ∈ (prepare launch w).2.2) : e.isLog = true := by
  simp only [prepare, List.mem_append] at h
  rcases h with (h | h) | h
  · exact ConfigurationFile.isLog_of_mem h
  · exact Discovery.isLog_of_mem h
  · exact Registry.isLog_of_mem h

theorem isToken_of_mem {p : Provider} (h : p ∈ (registry launch w).providers) :
    Manifest.isToken p.name = true := by
  obtain ⟨m, hm, rfl⟩ := List.mem_map.mp (Registry.mem_ofProviders h)
  exact (m.defect?_eq_none_iff.mp (Discovery.defect?_of_mem hm)).right.left

-- All that a run does is to show the text: it succeeds, it complains of nothing, no provider is executed, and no check
-- for updates is started.
structure Shows (s : Session) (text : String) : Prop where
  code : s.code = 0
  report : s.report = { status := .success, stdout := text, stderr := "" }
  calls : s.dispatch.calls = []
  unchecked : s.dispatch.checks = 0 ∧ s.checks = false
  stdout : s.stdout = Program.bytes text

theorem run_eq (args : List Token) :
    let dispatch := (registry launch w).dispatch true args
    run launch w now args =
      { preparation := (prepare launch w).2.2
        dispatch := dispatch
        checks := dispatch.checked && Update.dueIn w (prepare launch w).1.update (Update.checkFile? w) now } :=
  rfl

variable {launch w now}

theorem shows_of_dispatch {args : List Token} {d : Disposition} {text : String}
    (h : (registry launch w).dispatch true args = { disposition := d, events := (registry launch w).prologue })
    (hd : Report.ofDisposition d = { status := .success, stdout := text }) (hne : text ≠ "") :
    Shows (run launch w now args) text := by
  have hlog : ∀ e ∈ (prepare launch w).2.2 ++ (registry launch w).prologue, e.isLog = true := by
    refine List.forall_mem_append.mpr ⟨fun _ => isLog_of_mem launch w, ?_⟩
    exact List.forall_mem_map.mpr fun _ _ => rfl
  rw [run_eq, h]
  constructor
  case code => simp only [code, report, hd, ExitStatus.code]
  case report => exact hd
  case calls => rfl
  case unchecked => exact ⟨rfl, rfl⟩
  case stdout =>
    simp only [stdout, events, report, hd, List.flatMap_append, flatMap_outOf hlog]
    simp [Report.actions, hne, outOf]

end Session
end CompilerDriver
