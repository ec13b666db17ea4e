import CompilerDriver.Proofs.Accepted
import CompilerDriver.Proofs.CommandLine.Reading
import CompilerDriver.Provider.Manifest
/-!
The whole command line as a grammar.

`Opens` relates the tokens to what they select. Which provider that is and which switches of the driver are
set can be told from the tokens alone: by `firstPositional` and `optionTokens`, or by `switchTokens` for providers of
any names.
-/
namespace CompilerDriver

-- The switch is set.
def Globals.isSet (g : Globals) : Globals.Switch → Bool
  | .version => g.version
  | .help => g.help
  | .nocheck => g.nocheck

namespace Globals

variable {w : Switch}

theorem isSet_ofNames {given : List String} : (ofNames given).isSet w = true ↔ w.name ∈ given := by
  cases w <;> simp [isSet, ofNames]

theorem isSet_or {a b : Globals} : (a.or b).isSet w = true ↔ a.isSet w = true ∨ b.isSet w = true := by
  cases w <;> simp [isSet, or]

@[simp] theorem or_empty (g : Globals) : g.or {} = g := by
  simp [or]

theorem Switch.name_injective : Function.Injective Switch.name := by
  intro w w' h
  cases w <;> cases w' <;> simp_all [Switch.name]

theorem exists_switch {n : String} (h : n ∈ names) : ∃ w : Switch, w.name = n := by
  have ⟨w, _, he⟩ := List.mem_map.mp h
  exact ⟨w, he⟩

theorem ext_isSet {a b : Globals} (h : ∀ w, a.isSet w = true ↔ b.isSet w = true) : a = b := by
  have hh := Bool.eq_iff_iff.mpr (h .help)
  have hv := Bool.eq_iff_iff.mpr (h .version)
  have hn := Bool.eq_iff_iff.mpr (h .nocheck)
  cases a
  cases b
  simp_all only [isSet]

end Globals

theorem Registry.lookup_of_mem {r : Registry} {p : Provider} (hp : p ∈ r.providers) :
    r.lookup p.name = some p :=
  find?_eq_some_of_unique hp (decide_eq_true rfl) fun _ hq he =>
    List.inj_on_of_nodup_map r.distinct hq hp (of_decide_eq_true he)

namespace CommandLine

-- The token that sets a switch of the driver.
def Token.ofSwitch (w : Globals.Switch) : Token :=
  .ofString ("--" ++ w.name)

theorem Token.shape_ofSwitch (w : Globals.Switch) : (ofSwitch w).shape = .long (ofString w.name) none :=
  shape_ofString_long (by cases w <;> decide) (by cases w <;> decide)

-- A long option without a value sets a switch when it has its name.
theorem Token.eq_ofSwitch_iff {t name : Token} {n : String} {w : Globals.Switch}
    (hs : t.shape = .long name none) (hn : name.text? = some n) : t = ofSwitch w ↔ n = w.name := by
  constructor
  case mp =>
    rintro rfl
    rw [shape_ofSwitch, Shape.long.injEq] at hs
    rw [← hs.left, text?_ofString] at hn
    exact (Option.some.inj hn).symm
  case mpr =>
    rintro rfl
    rw [eq_of_shape_long hs, text?_eq_some_iff.mp hn, ofSwitch, ofString_append]
    rfl

-- The first token that is no option. Behind `--` no token is one.
def firstPositional : List Token → Option Token
  | [] => none
  | t :: ts =>
    match t.shape with
    | .plain => some t
    | .terminator => ts.head?
    | .long .. | .cluster .. => firstPositional ts

-- The tokens that may set a switch: those before the first positional token, and behind it, if it names
-- a provider that is known, those up to `--`.
def optionTokens (known : List String) : List Token → List Token
  | [] => []
  | t :: ts =>
    match t.shape with
    | .plain => if known.any (Token.ofString · = t) then ts.takeWhile (·.shape ≠ .terminator) else []
    | .terminator => []
    | .long .. | .cluster .. => t :: optionTokens known ts

-- The same for providers of any names: a token that names one is taken for its name, even if it looks like
-- an option.
def switchTokens (known : List String) : List Token → List Token
  | [] => []
  | t :: ts =>
    if known.any (Token.ofString · = t) then ts.takeWhile (·.shape ≠ .terminator)
    else
      match t.shape with
      | .plain | .terminator => []
      | .long .. | .cluster .. => t :: switchTokens known ts

theorem switchTokens_eq_optionTokens {known : List String} {ts : List Token}
    (h : ∀ n ∈ known, (Token.ofString n).shape = .plain) : switchTokens known ts = optionTokens known ts := by
  fun_induction switchTokens known ts
  case case1 => rfl
  case case2 hk =>
    obtain ⟨n, hn, he⟩ := List.any_eq_true.mp hk
    have hs := of_decide_eq_true he ▸ h n hn
    simp only [optionTokens, hs, hk, if_true]
  all_goals simp_all [optionTokens]

end CommandLine

namespace CommandLine.Command

open CompilerDriver.Composition

variable {p : Provider} {w : Globals.Switch} {t : Token} {ts : List Token} {us : List Use}
  {a b : Option CommandOption}

-- Every option in a cluster has an alias.
theorem Letters.short_isSome {c : Command} {ls : Token} (h : Letters c ls us a) :
    ∀ n ∈ Use.names us, ∃ o ∈ c.options, o.name = n ∧ o.short.isSome := by
  have found : ∀ {l o}, c.short? l = some o → ∃ o' ∈ c.options, o'.name = o.name ∧ o'.short.isSome := by
    intro l o ho
    have hs := List.find?_some ho
    refine ⟨o, short?_mem ho, rfl, ?_⟩
    simp only [decide_eq_true_eq] at hs
    exact hs ▸ rfl
  induction h
  case nil => nofun
  case switch ho _ _ hi =>
    intro n hn
    cases List.mem_cons.mp hn
    case inl hn => exact hn ▸ found ho
    case inr hn => exact hi n hn
  case last => nofun
  case equals ho _ => exact List.forall_mem_singleton.mpr (found ho)
  case attached ho _ _ _ => exact List.forall_mem_singleton.mpr (found ho)

section Switches

variable (ha : ∀ o, a = some o → o ∈ (ofEntry (entryOf p)).options ∧ o.takesValue = true)
include ha

-- One token gives a switch of the driver exactly when it is the token for it.
theorem Gives.switch_iff (h : Gives (ofEntry (entryOf p)) a t us b) :
    w.name ∈ Use.names us ↔ t = .ofSwitch w := by
  have ne_of_shape : t.shape ≠ .long (.ofString w.name) none → t ≠ .ofSwitch w :=
    fun h he => h (he ▸ Token.shape_ofSwitch w)
  have ne_of_value : ∀ {o}, o ∈ (ofEntry (entryOf p)).options → o.takesValue = true → o.name ≠ w.name :=
    fun ho hv hn => by simp [(eq_switch_of_name ho hn).left] at hv
  cases h
  case residual hs => exact iff_of_false (by simp) (ne_of_shape (by simp [hs]))
  case awaited o hs =>
    obtain ⟨ho, hv⟩ := ha o rfl
    exact iff_of_false (by simpa using (ne_of_value ho hv).symm) (ne_of_shape (by simp [hs]))
  case switch name o ho hv hs => simpa [Token.eq_ofSwitch_iff hs ho.text?_eq] using eq_comm
  case separate name o ho hv hs =>
    exact iff_of_false (by simp) fun ht => ne_of_value ho.mem hv ((Token.eq_ofSwitch_iff hs ho.text?_eq).mp ht)
  case attached name value o ho hv hs =>
    exact iff_of_false (by simpa using (ne_of_value ho.mem hv).symm) (ne_of_shape (by simp [hs]))
  case cluster ls hs hl =>
    refine iff_of_false (fun hn => ?_) (ne_of_shape (by simp [hs]))
    obtain ⟨o, ho, he, hshort⟩ := hl.short_isSome _ hn
    simp [(eq_switch_of_name ho he).right] at hshort

-- After the provider's name a switch of the driver is given exactly when its token comes before any `--`.
theorem Spells.switch_iff (h : Spells (ofEntry (entryOf p)) a ts us) :
    w.name ∈ Use.names us ↔ .ofSwitch w ∈ ts.takeWhile (·.shape ≠ .terminator) := by
  induction h
  case done => simp
  case token a b t ts us vs hg _ hi =>
    have hne : t.shape ≠ .terminator := by
      cases hg <;> simp [*]
    have hw := hg.switch_iff (w := w) ha
    have hb := (hg.offers ha).right
    rw [Use.names_append, List.mem_append, hw, hi hb, List.takeWhile_cons_of_pos (by simpa using hne),
      List.mem_cons]
    exact or_congr_left eq_comm
  case escape hs => simp [hs]

end Switches

end CommandLine.Command

namespace Composition

open CommandLine Command

-- The tokens of a whole command line, what they select when the switches `given` came before them.
inductive Opens (c : Composition) : List String → List Token → Selection → Prop
  | bare {given} : Opens c given [] { globals := .ofNames given }
  | ended {given t} (he : c.named? t = none) (hs : t.shape = .terminator) :
      Opens c given [t] { globals := .ofNames given }
  | switch {given t name o ts s} (he : c.named? t = none) (hs : t.shape = .long name none)
      (ho : name.text?.bind globalOption? = some o) (hn : o.name ∉ given) :
      Opens c (given ++ [o.name]) ts s → Opens c given (t :: ts) s
  | entry {given t ts e s} (he : c.named? t = some e) (hs : selectEntry given e ts = .ok s) :
      Opens c given (t :: ts) s
  | unknown {given t ts s} (he : c.named? t = none) (hs : t.shape = .plain)
      (h : c.selectUnread given t ts = .ok s) : Opens c given (t :: ts) s
  | escaped {given t t' ts s} (he : c.named? t = none) (hs : t.shape = .terminator)
      (h : c.selectUnread given t' ts = .ok s) : Opens c given (t :: t' :: ts) s

variable {c : Composition} {given : List String} {ts : List Token} {s : Selection}

theorem parseFrom_eq_ok_iff : c.parseFrom given ts = .ok s ↔ Opens c given ts s := by
  constructor
  case mp =>
    fun_induction parseFrom c given ts
    case case1 =>
      rintro ⟨⟩
      exact .bare
    case case2 he => exact .entry he
    case case3 he hs =>
      rintro ⟨⟩
      exact .ended he hs
    case case4 he hs _ _ => exact .escaped he hs
    case case5 he hs => exact .unknown he hs
    case case10 he _ _ ho hn hs hi => exact fun h => .switch he hs ho hn (hi h)
    all_goals nofun
  case mpr =>
    intro h
    induction h
    case bare => rfl
    case ended he hs => simp [parseFrom, he, hs]
    case switch he hs ho hn _ hi => simp [parseFrom, he, hs, ho, hn, hi]
    case entry he hs => simp [parseFrom, he, hs]
    case unknown he hs h => simp [parseFrom, he, hs, h]
    case escaped he hs h => simp [parseFrom, he, hs, h]

theorem parse_eq_ok_iff : c.parse ts = .ok s ↔ Opens c [] ts s :=
  parseFrom_eq_ok_iff

theorem selectUnread_eq_ok_iff {t : Token} : c.selectUnread given t ts = .ok s ↔
    ∃ name behind, t.text? = some name ∧ ts.mapM Token.text? = some behind ∧
      s = { globals := .ofNames given, provider := some name, args := c.unreadArgs name behind } := by
  unfold selectUnread
  cases t.text? <;> cases ts.mapM Token.text? <;> simp [eq_comm]

-- Behind `--` a registered provider is left without arguments, and an unknown one keeps them.
example :
    let r := Registry.ofProviders [
      { name := "sim", usage := .ofSummary "sim", invoke := fun _ => { outcome := .success } }]
    (ofRegistry r).parse (["--", "sim", "x"].map .ofString) = .ok { provider := some "sim" } ∧
    (ofRegistry r).parse (["--", "synth", "x"].map .ofString) = .ok { provider := some "synth", args := ["x"] } := by
  decide +zetaReduce

section Registered

variable {r : Registry} {t : Token}

-- The tokens that name a provider are those of the registered names.
theorem named?_eq_some {e : Entry} (h : (ofRegistry r).named? t = some e) :
    ∃ p, r.lookup p.name = some p ∧ t = .ofString p.name ∧ e = entryOf p := by
  have ⟨n, hn, he⟩ := Option.bind_eq_some_iff.mp h
  have ⟨p, hp, hpe⟩ := Option.map_eq_some_iff.mp (entry?_ofRegistry r n ▸ he)
  have hname : p.name = n := by simpa using List.find?_some hp
  subst hname
  exact ⟨p, hp, Token.text?_eq_some_iff.mp hn, hpe.symm⟩

theorem named?_eq_none (h : (ofRegistry r).named? t = none) :
    r.names.any (Token.ofString · = t) = false := by
  rw [List.any_eq_false]
  intro n hn he
  simp only [decide_eq_true_eq] at he
  have hnone : entry? (ofRegistry r) n = none := by simpa [named?, ← he, Token.text?_ofString] using h
  rw [entry?_ofRegistry, Option.map_eq_none_iff, Registry.lookup, List.find?_eq_none] at hnone
  obtain ⟨p, hp, hpn⟩ := List.mem_map.mp hn
  exact hnone p hp (by simp [hpn])

theorem named?_ofString {p : Provider} (hp : p ∈ r.providers) :
    (ofRegistry r).named? (.ofString p.name) = some (entryOf p) := by
  rw [named?, Token.text?_ofString, Option.bind_some, entry?_ofRegistry, Registry.lookup_of_mem hp, Option.map_some]

theorem parse_named {p : Provider} (hp : p ∈ r.providers) :
    (ofRegistry r).parse (.ofString p.name :: ts) = selectEntry [] (entryOf p) ts := by
  simp only [parse, parseFrom, named?_ofString hp]

-- What is selected of a provider is spelt out behind its name. No option is selected if there is no provider,
-- if it is not registered, or if its name comes behind `--`.
theorem Opens.origin (h : Opens (ofRegistry r) given ts s) :
    (∃ before p rest us, r.lookup p.name = some p ∧ .ofString p.name :: rest <:+ ts ∧
      Spells (ofEntry (entryOf p)) none rest us ∧ Legal us ∧ s = .ofUses before (entryOf p) us) ∨
    s.options = .empty := by
  induction h
  case bare => exact .inr rfl
  case ended => exact .inr rfl
  case switch hi =>
    refine hi.imp_left ?_
    intro ⟨before, p, rest, us, hp, hsuffix, h⟩
    exact ⟨before, p, rest, us, hp, hsuffix.trans (List.suffix_cons ..), h⟩
  case entry he hse =>
    have ⟨p, hp, ht, hpe⟩ := named?_eq_some he
    have ⟨us, hsp, hl, hus⟩ := (selectEntry_eq_ok_iff (hpe ▸ nodup_ofEntry p)).mp hse
    subst hpe ht
    exact .inl ⟨_, p, _, us, hp, List.suffix_rfl, hsp, hl, hus⟩
  case unknown h =>
    obtain ⟨_, _, _, _, he⟩ := selectUnread_eq_ok_iff.mp h
    exact .inr (he ▸ rfl)
  case escaped h =>
    obtain ⟨_, _, _, _, he⟩ := selectUnread_eq_ok_iff.mp h
    exact .inr (he ▸ rfl)

theorem Opens.selected {p : Provider} (h : Opens (ofRegistry r) given ts s)
    (hs : s.provider = some p.name) (hp : r.lookup p.name = some p) :
    (∃ before rest us, .ofString p.name :: rest <:+ ts ∧ Spells (ofEntry (entryOf p)) none rest us ∧ Legal us ∧
      s = .ofUses before (entryOf p) us) ∨ s.options = .empty := by
  refine h.origin.imp_left ?_
  intro ⟨before, q, rest, us, hq, hsuffix, hsp, hl, hus⟩
  have hname : q.name = p.name := by simpa [hus, Selection.ofUses, entryOf] using hs
  have hqp : q = p := by simpa [hname, hp, eq_comm] using hq
  subst hqp
  exact ⟨before, rest, us, hsuffix, hsp, hl, hus⟩

theorem named?_any {e : Entry} (h : (ofRegistry r).named? t = some e) :
    r.names.any (Token.ofString · = t) = true := by
  obtain ⟨p, hp, ht, _⟩ := named?_eq_some h
  refine List.any_eq_true.mpr ⟨p.name, ?_, by simp [ht]⟩
  exact List.mem_map_of_mem (List.mem_of_find?_eq_some hp)

-- A switch of the driver is set exactly when its token is among those that may set it.
theorem Opens.isSet_iff_switchTokens (h : Opens (ofRegistry r) given ts s) (w : Globals.Switch) :
    s.globals.isSet w = true ↔ w.name ∈ given ∨ .ofSwitch w ∈ switchTokens r.names ts := by
  induction h
  case bare => simp [switchTokens, Globals.isSet_ofNames]
  case ended he hs => simp [switchTokens, named?_eq_none he, hs, Globals.isSet_ofNames]
  case switch given t name o ts s he hs ho hn _ hi =>
    obtain ⟨n, hname, ho⟩ := Option.bind_eq_some_iff.mp ho
    have hon : o.name = n := by simpa using List.find?_some ho
    rw [hi, List.mem_append, List.mem_singleton, eq_comm (b := o.name), hon,
      ← Token.eq_ofSwitch_iff hs hname]
    simp [switchTokens, named?_eq_none he, hs, or_assoc, eq_comm (a := t)]
  case entry given t ts e s he hse =>
    obtain ⟨p, _, _, hep⟩ := named?_eq_some he
    obtain ⟨us, hsp, _, hus⟩ := (selectEntry_eq_ok_iff (hep ▸ nodup_ofEntry p)).mp hse
    have hknown := named?_any he
    subst hep
    have := hsp.switch_iff (w := w) (by simp)
    simp [switchTokens, hknown, hus, Selection.ofUses, Globals.isSet_or, Globals.isSet_ofNames, this]
  case unknown he hs h =>
    obtain ⟨_, _, _, _, hse⟩ := selectUnread_eq_ok_iff.mp h
    simp [switchTokens, hs, named?_eq_none he, hse, Globals.isSet_ofNames]
  case escaped he hs h =>
    obtain ⟨_, _, _, _, hse⟩ := selectUnread_eq_ok_iff.mp h
    simp [switchTokens, hs, named?_eq_none he, hse, Globals.isSet_ofNames]

variable (hr : ∀ p ∈ r.providers, Manifest.isToken p.name = true)
include hr

theorem shape_of_named {e : Entry} (h : (ofRegistry r).named? t = some e) :
    t.shape = .plain := by
  have ⟨p, hp, ht, _⟩ := named?_eq_some h
  have := hr p (List.mem_of_find?_eq_some hp)
  simp only [Manifest.isToken, Bool.and_eq_true, Bool.not_eq_true', beq_eq_false_iff_ne] at this
  exact ht ▸ (Token.shape_ofString_eq_plain_iff _).mpr (.inr this.left)

theorem named?_ofSwitch (w : Globals.Switch) : (ofRegistry r).named? (.ofSwitch w) = none := by
  refine Option.eq_none_iff_forall_not_mem.mpr fun e he => ?_
  have := shape_of_named hr he
  simp [Token.shape_ofSwitch] at this

-- Switches at the beginning of the command line are set if none of them comes twice.
theorem parseFrom_append {ws : List Globals.Switch} (hn : (given ++ ws.map (·.name)).Nodup) :
    (ofRegistry r).parseFrom given (ws.map .ofSwitch ++ ts) =
      (ofRegistry r).parseFrom (given ++ ws.map (·.name)) ts := by
  induction ws generalizing given
  case nil => simp
  case cons w ws hi =>
    have ⟨o, ho, hname⟩ : ∃ o, globalOption? w.name = some o ∧ o.name = w.name := by
      cases w <;> exact ⟨_, rfl, rfl⟩
    have hnot : w.name ∉ given := by
      intro hm
      rw [List.map_cons] at hn
      exact (List.nodup_append.mp hn).right.right _ hm _ (List.mem_cons_self ..) rfl
    rw [List.map_cons, List.append_cons] at hn
    simp only [List.map_cons, List.cons_append, parseFrom, named?_ofSwitch hr, Token.shape_ofSwitch,
      Token.text?_ofString, Option.bind_some, ho, hname, if_neg hnot, hi hn, List.append_assoc, List.nil_append]

theorem parseFrom_switches {p : Provider} {ws : List Globals.Switch} (hp : p ∈ r.providers)
    (hn : (given ++ ws.map (·.name)).Nodup) :
    (ofRegistry r).parseFrom given (ws.map .ofSwitch ++ .ofString p.name :: ts) =
      selectEntry (given ++ ws.map (·.name)) (entryOf p) ts := by
  simp only [parseFrom_append hr hn, parseFrom, named?_ofString hp]

-- The provider that is selected is the first token that is no option.
theorem Opens.provider_eq (h : Opens (ofRegistry r) given ts s) :
    s.provider.map Token.ofString = firstPositional ts := by
  induction h
  case bare => rfl
  case ended hs => simp [firstPositional, hs]
  case switch hs _ _ _ hi => simpa [firstPositional, hs] using hi
  case entry he hse =>
    obtain ⟨p, _, ht, hep⟩ := named?_eq_some he
    obtain ⟨_, _, _, hus⟩ := (selectEntry_eq_ok_iff (hep ▸ nodup_ofEntry p)).mp hse
    simp only [firstPositional, shape_of_named hr he]
    simp [hus, Selection.ofUses, hep, ht, entryOf]
  case unknown hs h =>
    obtain ⟨_, _, hname, _, he⟩ := selectUnread_eq_ok_iff.mp h
    simp only [firstPositional, hs]
    simp [he, Token.text?_eq_some_iff.mp hname]
  case escaped hs h =>
    obtain ⟨_, _, hname, _, he⟩ := selectUnread_eq_ok_iff.mp h
    simp only [firstPositional, hs]
    simp [he, Token.text?_eq_some_iff.mp hname]

-- Names that are tokens never look like an option.
theorem Opens.isSet_iff (h : Opens (ofRegistry r) given ts s) (w : Globals.Switch) :
    s.globals.isSet w = true ↔ w.name ∈ given ∨ .ofSwitch w ∈ optionTokens r.names ts := by
  have hplain : ∀ n ∈ r.names, (Token.ofString n).shape = .plain := by
    refine List.forall_mem_map.mpr fun p hp => ?_
    exact shape_of_named hr (named?_ofString hp)
  rw [h.isSet_iff_switchTokens, switchTokens_eq_optionTokens hplain]

end Registered

end Composition
end CompilerDriver
