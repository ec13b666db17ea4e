import CompilerDriver.Dispatch
import CompilerDriver.Proofs.CommandLine.Root
/-!
What a dispatch does, told from the tokens of the command line.

`Comes` lists the ways in which a dispatch can end. `Dispatch.Obeys` is what a user can rely on.
-/
namespace CompilerDriver

open CommandLine

namespace Registry

theorem lookup_eq_none_iff {r : Registry} {name : String} : r.lookup name = none ↔ name ∉ r.names := by
  simp [lookup, names]

theorem name_of_lookup {r : Registry} {name : String} {p : Provider} (h : r.lookup name = some p) : p.name = name := by
  simpa using List.find?_some h

-- Of several providers with one name the last that was registered is found.
theorem lookup_ofProviders (ps : List Provider) (name : String) :
    (ofProviders ps).lookup name = ps.reverse.find? (·.name = name) := by
  have go : ∀ (ps : List Provider) (r : Registry),
      (ps.foldl register r).lookup name = (ps.reverse.find? (·.name = name)).or (r.lookup name) := by
    intro ps
    induction ps
    case nil => exact fun _ => rfl
    case cons p ps hi =>
      intro r
      rw [List.foldl_cons, hi, lookup_register, List.reverse_cons, List.find?_append, Option.or_assoc]
      by_cases h : p.name = name <;> simp [h]
  rw [ofProviders, go ps empty]
  exact Option.or_none

theorem mem_place {p q : Provider} {qs : List Provider} (h : q ∈ place p qs) : q = p ∨ q ∈ qs := by
  induction qs
  case nil => simpa [place] using h
  case cons x xs hi =>
    unfold place at h
    split at h
    all_goals grind

theorem mem_ofProviders {p : Provider} {ps : List Provider} (h : p ∈ (ofProviders ps).providers) : p ∈ ps := by
  have go : ∀ (ps : List Provider) (r : Registry), p ∈ (ps.foldl register r).providers →
      p ∈ ps ∨ p ∈ r.providers := by
    intro ps
    induction ps
    case nil => exact fun _ => .inr
    case cons x xs hi =>
      intro r h
      have := hi _ h
      grind [register, mem_place]
  exact (go ps empty h).resolve_right nofun

-- The ways in which a dispatch ends: the providers it called by then, and what it came to.
inductive Comes (r : Registry) (args : List Token) : List (Provider × Invocation) → Disposition → Prop
  | refused {e} (hp : (Composition.ofRegistry r).parse args = .error e) :
      Comes r args [] (.usageError e.message)
  | help {s} (hp : (Composition.ofRegistry r).parse args = .ok s) (hh : args = [] ∨ s.globals.help = true) :
      Comes r args [] (.help (Help.text (.ofRegistry r)))
  | version {s} (hp : (Composition.ofRegistry r).parse args = .ok s)
      (hh : ¬(args = [] ∨ s.globals.help = true)) (hv : s.globals.version = true) :
      Comes r args [] (.version versionLine)
  | bare {s} (hp : (Composition.ofRegistry r).parse args = .ok s)
      (hh : ¬(args = [] ∨ s.globals.help = true)) (hv : s.globals.version = false)
      (hn : s.provider = none) : Comes r args [] (.help (Help.text (.ofRegistry r)))
  | unknown {s name} (hp : (Composition.ofRegistry r).parse args = .ok s)
      (hh : ¬(args = [] ∨ s.globals.help = true)) (hv : s.globals.version = false)
      (hn : s.provider = some name) (hl : r.lookup name = none) :
      Comes r args [] (.unknownProvider name r.names)
  | called {s name p} (hp : (Composition.ofRegistry r).parse args = .ok s)
      (hh : ¬(args = [] ∨ s.globals.help = true)) (hv : s.globals.version = false)
      (hn : s.provider = some name) (hl : r.lookup name = some p) :
      Comes r args [(p, s.toInvocation name)]
        (.completed ((p.invoke (s.toInvocation name)).outcome.withDiagnostic name))

namespace Comes

variable {r : Registry} {args : List Token} {cs cs' : List (Provider × Invocation)} {d d' : Disposition}

-- No two of the ways are open at once.
theorem unique (h : r.Comes args cs d) (h' : r.Comes args cs' d') : cs = cs' ∧ d = d' := by
  cases h <;> cases h' <;> simp_all

theorem length_le (h : r.Comes args cs d) : cs.length ≤ 1 := by
  cases h <;> simp

theorem length_eq_one_iff (h : r.Comes args cs d) : cs.length = 1 ↔ ∃ o, d = .completed o := by
  cases h <;> simp

theorem of_mem {p : Provider} {i : Invocation} (h : r.Comes args cs d) (hm : (p, i) ∈ cs) :
    ∃ s name, (Composition.ofRegistry r).parse args = .ok s ∧ s.provider = some name ∧
      r.lookup name = some p ∧ i = s.toInvocation name ∧
      d = .completed ((p.invoke i).outcome.withDiagnostic name) := by
  cases h
  case called s name q hp _ _ hn hl =>
    cases List.mem_singleton.mp hm
    exact ⟨s, name, hp, hn, hl, rfl, rfl⟩
  all_goals cases hm

-- Help is always the whole help text.
theorem help_eq {text : String} (h : r.Comes args cs d) (hd : d = .help text) :
    text = Help.text (.ofRegistry r) := by
  cases h <;> simp_all

-- The names that are offered instead of an unknown one are all that are registered.
theorem known_eq {name : String} {known : List String} (h : r.Comes args cs d) (hd : d = .unknownProvider name known) :
    known = r.names := by
  cases h <;> simp_all

end Comes

-- Warnings are noted, and nothing is called for them.
theorem calls_forM_note (ws : List Composition.Warning) (t : Trace) :
    ((ws.forM fun w => Traced.note w.event).run t).2.calls = t.calls := by
  induction ws generalizing t
  case nil => rfl
  case cons w ws hi => exact hi _

-- The only call is that of the provider itself.
theorem run_invoke (p : Provider) (name : String) (s : Selection) (check : Bool) (t : Trace) :
    ((invoke p name s check).run t).2.calls = t.calls ++ [(p, s.toInvocation name)] ∧
      ((invoke p name s check).run t).1 =
        .completed ((p.invoke (s.toInvocation name)).outcome.withDiagnostic name) := by
  unfold invoke
  split
  all_goals exact ⟨rfl, rfl⟩

variable {r : Registry} {check : Bool} {args : List Token} {s : Selection} {t : Trace}

theorem comes_route (ht : t.calls = []) (hp : (Composition.ofRegistry r).parse args = .ok s) :
    r.Comes args ((r.route (.ofRegistry r) check args.isEmpty s).run t).2.calls
      ((r.route (.ofRegistry r) check args.isEmpty s).run t).1 := by
  have hempty : (args.isEmpty || s.globals.help) = true ↔ args = [] ∨ s.globals.help = true := by simp
  unfold route
  split
  case isTrue hh => exact ht ▸ .help hp (hempty.mp hh)
  case isFalse hh =>
    have hh := hempty.not.mp hh
    split
    case isTrue hv => exact ht ▸ .version hp hh hv
    case isFalse hv =>
      have hv := Bool.eq_false_iff.mpr hv
      split
      case h_1 hn => exact ht ▸ .bare hp hh hv hn
      case h_2 name hn =>
        split
        case h_1 hl => exact ht ▸ .unknown hp hh hv hn hl
        case h_2 p hl =>
          obtain ⟨hc, hd⟩ := run_invoke p name s check t
          rw [hc, hd, ht]
          exact .called hp hh hv hn hl

theorem comes_dispatch (r : Registry) (check : Bool) (args : List Token) :
    r.Comes args (r.dispatch check args).calls (r.dispatch check args).disposition := by
  have hwarn := calls_forM_note (Composition.warnings r) {}
  simp only [dispatch, obey]
  generalize ((Composition.warnings r).forM fun w => Traced.note w.event) = warn at hwarn ⊢
  cases hp : (Composition.ofRegistry r).parse args
  case error e => exact hwarn ▸ .refused hp
  case ok s => exact comes_route hwarn hp

end Registry

-- The command line of providers that were registered in turn.
def Composition.ofProviders (ps : List Provider) : Composition :=
  .ofRegistry (.ofProviders ps)

-- The selection as the provider `name` gets it.
def CommandLine.Selection.as (s : Selection) (name : String) : Invocation :=
  { provider := name, globals := s.globals, options := s.options, args := s.args }

-- The command line has the token for the switch where it is read as one.
def Asks (ps : List Provider) (args : List Token) (w : Globals.Switch) : Prop :=
  .ofSwitch w ∈ optionTokens (Registry.ofProviders ps).names args

-- What can be relied on when `args` are dispatched to providers that were registered in turn. At most one
-- provider is called, with all that was selected for it. What happens instead of a call is decided by a
-- failure to parse, `--help`, `--version` and the first positional token, in this order.
structure Dispatch.Obeys (ps : List Provider) (args : List Token) (d : Dispatch) : Prop where
  once : d.calls.length ≤ 1
  completed : d.calls.length = 1 ↔ ∃ o, d.disposition = .completed o
  faithful : ∀ p i, (p, i) ∈ d.calls → ∃ name s,
    firstPositional args = some (.ofString name) ∧ ps.reverse.find? (·.name = name) = some p ∧
    (Composition.ofProviders ps).parse args = .ok s ∧ i = s.as name ∧
    d.disposition = .completed ((p.invoke i).outcome.withDiagnostic name)
  refused : ∀ e, (Composition.ofProviders ps).parse args = .error e →
    d.calls = [] ∧ d.disposition = .usageError e.message
  help : ∀ s, (Composition.ofProviders ps).parse args = .ok s →
    args = [] ∨ Asks ps args .help →
    d.calls = [] ∧ d.disposition = .help (Help.text (.ofProviders ps))
  version : ∀ s, (Composition.ofProviders ps).parse args = .ok s →
    ¬(args = [] ∨ Asks ps args .help) → Asks ps args .version →
    d.calls = [] ∧ d.disposition = .version versionLine
  bare : ∀ s, (Composition.ofProviders ps).parse args = .ok s →
    ¬(args = [] ∨ Asks ps args .help) → ¬Asks ps args .version → firstPositional args = none →
    d.calls = [] ∧ d.disposition = .help (Help.text (.ofProviders ps))
  unknown : ∀ s name, (Composition.ofProviders ps).parse args = .ok s →
    ¬(args = [] ∨ Asks ps args .help) → ¬Asks ps args .version →
    firstPositional args = some (.ofString name) → ps.reverse.find? (·.name = name) = none →
    d.calls = [] ∧ d.disposition = .unknownProvider name (Registry.ofProviders ps).names
  called : ∀ s name p, (Composition.ofProviders ps).parse args = .ok s →
    ¬(args = [] ∨ Asks ps args .help) → ¬Asks ps args .version →
    firstPositional args = some (.ofString name) → ps.reverse.find? (·.name = name) = some p →
    d.calls = [(p, s.as name)] ∧
      d.disposition = .completed ((p.invoke (s.as name)).outcome.withDiagnostic name)
  helpText : ∀ text, d.disposition = .help text → text = Help.text (.ofProviders ps)

section Tokens

variable {ps : List Provider} {args : List Token} {s : Selection} {name : String}
  (hps : ∀ p ∈ ps, Manifest.isToken p.name = true)
  (hs : (Composition.ofProviders ps).parse args = .ok s)
include hps hs

theorem isSet_iff_asks (w : Globals.Switch) : s.globals.isSet w = true ↔ Asks ps args w := by
  have hr := fun p hp => hps p (Registry.mem_ofProviders hp)
  have h := (Composition.parse_eq_ok_iff.mp hs).isSet_iff hr w
  rwa [or_iff_right List.not_mem_nil] at h

theorem provider_eq_some_iff : s.provider = some name ↔ firstPositional args = some (.ofString name) := by
  have hr := fun p hp => hps p (Registry.mem_ofProviders hp)
  have hinj : ∀ n, Token.ofString n = .ofString name → n = name := fun n h => by
    simpa [Token.text?_ofString] using congrArg Token.text? h
  rw [← (Composition.parse_eq_ok_iff.mp hs).provider_eq hr, Option.map_eq_some_iff]
  constructor
  case mp => exact fun h => ⟨name, h, rfl⟩
  case mpr =>
    rintro ⟨n, hn, he⟩
    exact hinj n he ▸ hn

theorem provider_eq_none_iff : s.provider = none ↔ firstPositional args = none := by
  have hr := fun p hp => hps p (Registry.mem_ofProviders hp)
  rw [← (Composition.parse_eq_ok_iff.mp hs).provider_eq hr, Option.map_eq_none_iff]

end Tokens

theorem dispatch_obeys {ps : List Provider} (hps : ∀ p ∈ ps, Manifest.isToken p.name = true) (check : Bool)
    (args : List Token) : ((Registry.ofProviders ps).dispatch check args).Obeys ps args := by
  have hc := Registry.comes_dispatch (.ofProviders ps) check args
  -- What was parsed is what the tokens say.
  have hhelp : ∀ {s}, (Composition.ofProviders ps).parse args = .ok s →
      (args = [] ∨ Asks ps args .help ↔ args = [] ∨ s.globals.help = true) :=
    fun hs => or_congr_right (isSet_iff_asks hps hs .help).symm
  have hversion : ∀ {s}, (Composition.ofProviders ps).parse args = .ok s → ¬Asks ps args .version →
      s.globals.version = false :=
    fun hs hv => Bool.eq_false_iff.mpr fun h => hv ((isSet_iff_asks hps hs .version).mp h)
  constructor
  case once => exact hc.length_le
  case completed => exact hc.length_eq_one_iff
  case faithful =>
    intro p i hm
    have ⟨s, name, hs, hn, hl, hi, hd⟩ := hc.of_mem hm
    rw [Registry.lookup_ofProviders] at hl
    exact ⟨name, s, (provider_eq_some_iff hps hs).mp hn, hl, hs, hi.trans (s.toInvocation_eq name), hd⟩
  case refused => exact fun e he => hc.unique (.refused he)
  case help => exact fun s hs hh => hc.unique (.help hs ((hhelp hs).mp hh))
  case version =>
    intro s hs hh hv
    exact hc.unique (.version hs ((hhelp hs).not.mp hh) ((isSet_iff_asks hps hs .version).mpr hv))
  case bare =>
    intro s hs hh hv hn
    exact hc.unique (.bare hs ((hhelp hs).not.mp hh) (hversion hs hv) ((provider_eq_none_iff hps hs).mpr hn))
  case unknown =>
    intro s name hs hh hv hn hl
    rw [← Registry.lookup_ofProviders] at hl
    have hn := (provider_eq_some_iff hps hs).mpr hn
    exact hc.unique (.unknown hs ((hhelp hs).not.mp hh) (hversion hs hv) hn hl)
  case called =>
    intro s name p hs hh hv hn hl
    rw [← Registry.lookup_ofProviders] at hl
    have hn := (provider_eq_some_iff hps hs).mpr hn
    have hi : s.as name = s.toInvocation name := (s.toInvocation_eq name).symm
    exact hi ▸ hc.unique (.called hs ((hhelp hs).not.mp hh) (hversion hs hv) hn hl)
  case helpText => exact fun _ => hc.help_eq

-- Two providers of one name, of which the second is called.
theorem dispatch_obeys_of_two :
    let ps : List Provider := [
      { name := "sim", usage := .ofSummary "sim", invoke := fun _ => { outcome := .failure "first" } },
      { name := "sim", usage := .ofSummary "sim", invoke := fun _ => { outcome := .success } }]
    (∀ p ∈ ps, Manifest.isToken p.name = true) ∧
    ((Registry.ofProviders ps).dispatch true [.ofString "sim", .ofString "x"]).Obeys ps
      [.ofString "sim", .ofString "x"] ∧
    ((Registry.ofProviders ps).dispatch true [.ofString "sim", .ofString "x"]).disposition =
      .completed .success :=
  ⟨by decide, dispatch_obeys (by decide) true _, by rfl⟩

end CompilerDriver
