import CompilerDriver.Report
import CompilerDriver.Proofs.Dispatch
/-!
The check for updates as a side effect.

A dispatch that may start a check does what it does without one, and starts at most one on top of that. So the
starts of any number of dispatches can be counted by looking at each command line on its own.
-/
namespace CompilerDriver

open CommandLine

-- A provider ran.
def Disposition.isCompleted : Disposition → Bool
  | .completed _ => true
  | .help _ | .version _ | .unknownProvider .. | .usageError _ => false

theorem Disposition.isCompleted_iff {d : Disposition} : d.isCompleted = true ↔ ∃ o, d = .completed o := by
  cases d <;> simp [isCompleted]

namespace Registry

-- `--nocheck` is given as a switch, in front of the provider's name or behind it.
def Unchecked (r : Registry) (args : List Token) : Prop :=
  .ofSwitch .nocheck ∈ switchTokens r.names args

instance (r : Registry) (args : List Token) : Decidable (r.Unchecked args) :=
  inferInstanceAs (Decidable (_ ∈ _))

-- The command line has a provider run, and does not ask to do without the check.
def Due (r : Registry) (args : List Token) : Prop :=
  (r.dispatch true args).disposition.isCompleted = true ∧ ¬r.Unchecked args

instance (r : Registry) (args : List Token) : Decidable (r.Due args) :=
  inferInstanceAs (Decidable (_ ∧ _))

end Registry

-- How many checks are started on the way to a disposition, when there is a check to start and when the switch
-- `nocheck` is set.
def Disposition.starts (check nocheck : Bool) (d : Disposition) : Nat :=
  if check = true ∧ nocheck = false ∧ d.isCompleted = true then 1 else 0

-- The trace with what a part of a dispatch adds to it.
def Trace.adding (t : Trace) (calls : List (Provider × Invocation)) (checks : Nat) (events : List Event) : Trace where
  calls := t.calls ++ calls
  checks := t.checks + checks
  events := t.events ++ events

@[simp] theorem Trace.adding_nothing (t : Trace) : t.adding [] 0 [] = t := by
  simp [adding]

-- Whether there is a check to start decides on the starts, and on nothing else that is added to the trace.
def Traced.OnlyStarts (nocheck : Bool) (part : Bool → Traced Disposition) : Prop :=
  ∀ t, ∃ d calls events, ∀ check, (part check).run t = (d, t.adding calls (d.starts check nocheck) events)

namespace Traced.OnlyStarts

variable {part : Bool → Traced Disposition} {nocheck : Bool}

theorem of_pure {d : Disposition} (h : d.isCompleted = false) : OnlyStarts nocheck fun _ => pure d :=
  fun t => ⟨d, [], [], fun _ => by simp [Disposition.starts, h]; rfl⟩

theorem note (h : OnlyStarts nocheck part) (e : Event) :
    OnlyStarts nocheck (fun check => do Traced.note e; part check) := by
  intro t
  have ⟨d, calls, events, h⟩ := h { t with events := t.events ++ [e] }
  refine ⟨d, calls, e :: events, fun check => (h check).trans ?_⟩
  simp [Trace.adding]

theorem forM_note (h : OnlyStarts nocheck part) (ws : List Composition.Warning) :
    OnlyStarts nocheck (fun check => do ws.forM (fun w => Traced.note w.event); part check) := by
  induction ws
  case nil => exact h
  case cons w ws hi => exact hi.note w.event

end Traced.OnlyStarts

namespace Registry

variable {r : Registry} {args : List Token} {s : Selection}

theorem onlyStarts_invoke (p : Provider) (name : String) (s : Selection) :
    Traced.OnlyStarts s.globals.nocheck (invoke p name s) := by
  intro t
  let i := s.toInvocation name
  let response := p.invoke i
  refine ⟨.completed (response.outcome.withDiagnostic name), [(p, i)],
    .log .debug s!"Invoking provider '{name}' with {i.args.length} residual argument(s)" :: response.events, ?_⟩
  intro check
  rw [Trace.adding, List.append_cons t.events]
  cases check <;> cases hn : s.globals.nocheck
  all_goals
    simp only [invoke, hn]
    rfl

-- Every way out of the routing other than to a provider comes before the start of a check.
theorem onlyStarts_route (r : Registry) (c : Composition) (empty : Bool) (s : Selection) :
    Traced.OnlyStarts s.globals.nocheck (r.route c · empty s) := by
  unfold route
  split
  case isTrue => exact .of_pure rfl
  case isFalse =>
    split
    case isTrue => exact .of_pure rfl
    case isFalse =>
      split
      case h_1 => exact .of_pure rfl
      case h_2 name _ =>
        split
        case h_1 => exact Traced.OnlyStarts.note (Traced.OnlyStarts.of_pure rfl) _
        case h_2 p _ => exact onlyStarts_invoke p name s

theorem nocheck_iff (hs : (Composition.ofRegistry r).parse args = .ok s) :
    s.globals.nocheck = true ↔ r.Unchecked args := by
  have h := (Composition.parse_eq_ok_iff.mp hs).isSet_iff_switchTokens .nocheck
  rwa [or_iff_right List.not_mem_nil] at h

theorem onlyStarts_obey (r : Registry) (args : List Token) :
    Traced.OnlyStarts (decide (r.Unchecked args)) (r.obey · args) := by
  simp only [obey]
  cases hp : (Composition.ofRegistry r).parse args
  case error e =>
    have h : Traced.OnlyStarts (decide (r.Unchecked args)) fun _ => pure (.usageError e.message) := .of_pure rfl
    exact h.forM_note (Composition.warnings r)
  case ok s =>
    have hn : s.globals.nocheck = decide (r.Unchecked args) := Bool.eq_iff_iff.mpr (by simp [nocheck_iff hp])
    rw [← hn]
    exact (r.onlyStarts_route (.ofRegistry r) args.isEmpty s).forM_note (Composition.warnings r)

-- A dispatch with a check is the one without it, and the start.
theorem dispatch_eq (r : Registry) (args : List Token) : ∃ d calls events, ∀ check,
    r.dispatch check args =
      { disposition := d, calls, events, checks := d.starts check (decide (r.Unchecked args)) } := by
  have ⟨d, calls, events, h⟩ := r.onlyStarts_obey args {}
  refine ⟨d, calls, events, fun check => ?_⟩
  simp [dispatch, h check, Trace.adding]

theorem checks_dispatch (r : Registry) (check : Bool) (args : List Token) :
    (r.dispatch check args).checks = if check = true ∧ r.Due args then 1 else 0 := by
  have ⟨d, _, _, h⟩ := r.dispatch_eq args
  simp only [Due, h, Disposition.starts, decide_eq_false_iff_not, and_comm]

-- What comes after a command line has no influence on it, and what came before it only on the count.
theorem getElem?_dispatchAll (r : Registry) (check : Bool) (earlier : List (List Token)) (args : List Token)
    (later : List (List Token)) :
    (r.dispatchAll check (earlier ++ args :: later))[earlier.length]? =
      some (r.dispatch check args, (earlier ++ [args]).countP (check = true ∧ r.Due ·)) := by
  have go : ∀ n, (dispatchAll.go r check n (earlier ++ args :: later))[earlier.length]? =
      some (r.dispatch check args, n + (earlier ++ [args]).countP (check = true ∧ r.Due ·)) := by
    induction earlier
    case nil =>
      intro n
      simp [dispatchAll.go, checks_dispatch, List.countP_cons]
    case cons a earlier hi =>
      intro n
      have hn : ∀ k, n + (r.dispatch check a).checks + k = n + (k + if check = true ∧ r.Due a then 1 else 0) := by
        intro k
        rw [checks_dispatch]
        omega
      simp only [List.cons_append, dispatchAll.go, List.length_cons, List.getElem?_cons_succ, hi, hn,
        List.countP_cons, decide_eq_true_eq]
  rw [dispatchAll, go 0, Nat.zero_add]

end Registry

-- Two dispatches are the same to the user and to the providers: they come to the same disposition, report it in
-- the same way, call the same providers with the same invocations and put the same on the terminal.
structure Dispatch.Same (d d' : Dispatch) : Prop where
  disposition : d.disposition = d'.disposition
  report : Report.ofDisposition d.disposition = Report.ofDisposition d'.disposition
  calls : d.calls = d'.calls
  events : d.events = d'.events

theorem Registry.dispatch_same (r : Registry) (check check' : Bool) (args : List Token) :
    (r.dispatch check args).Same (r.dispatch check' args) := by
  have ⟨d, calls, events, h⟩ := r.dispatch_eq args
  rw [h check, h check']
  exact ⟨rfl, rfl, rfl, rfl⟩

-- What can be relied on when a command line is dispatched between others and checks for updates are started:
-- `d` is what it did and `started` the number of starts by then.
structure Registry.OnlyChecks (r : Registry) (earlier : List (List Token)) (args : List Token)
    (later : List (List Token)) (d : Dispatch) (started : Nat) : Prop where
  count : started = (earlier ++ [args]).countP (r.Due ·)
  once : d.checks = if r.Due args then 1 else 0
  silent : (∀ o, d.disposition ≠ .completed o) → d.checks = 0
  without : ∃ d', (r.dispatchAll false (earlier ++ args :: later))[earlier.length]? = some (d', 0) ∧ d.Same d'
  alone : ∃ d', r.dispatchAll true [args] = [(d', d'.checks)] ∧ d.Same d'

theorem dispatchAll_onlyChecks (r : Registry) (earlier : List (List Token)) (args : List Token)
    (later : List (List Token)) :
    ∃ d started, (r.dispatchAll true (earlier ++ args :: later))[earlier.length]? = some (d, started) ∧
      r.OnlyChecks earlier args later d started := by
  refine ⟨_, _, r.getElem?_dispatchAll true earlier args later, ?_⟩
  have hchecks : (r.dispatch true args).checks = if r.Due args then 1 else 0 := by
    simp [r.checks_dispatch true]
  constructor
  case count => simp
  case once => exact hchecks
  case silent =>
    intro h
    rw [hchecks, if_neg]
    rintro ⟨hc, _⟩
    have ⟨o, ho⟩ := Disposition.isCompleted_iff.mp hc
    exact h o ho
  case without =>
    refine ⟨r.dispatch false args, ?_, r.dispatch_same true false args⟩
    rw [r.getElem?_dispatchAll]
    simp
  case alone =>
    refine ⟨r.dispatch true args, ?_, r.dispatch_same true true args⟩
    simp [Registry.dispatchAll, Registry.dispatchAll.go]

-- Behind `--` the token `--nocheck` is an argument of the provider.
example :
    let r := Registry.ofProviders [
      { name := "sim", usage := .ofSummary "sim", invoke := fun _ => { outcome := .success } }]
    let runs := [["sim"], ["--nocheck", "sim"], ["sim", "--nocheck"], ["sim", "--", "--nocheck"], ["synth"]]
    (r.dispatchAll true (runs.map (·.map .ofString))).map (·.2) = [1, 1, 1, 2, 2] := by
  rfl

end CompilerDriver
