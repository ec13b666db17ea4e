import CompilerDriver.CommandLine.Selection
import Mathlib.Data.List.Nodup
/-!
The command line after a provider's name as a grammar.

`Spells` relates tokens to what they give, without any state of a reader. What is given is a list of uses;
`Legal` says which lists are accepted, and `Selection.ofUses` what is selected by them.
-/
namespace CompilerDriver.CommandLine

-- One thing that is given after a provider's name.
inductive Use where
  | switch (o : CommandOption)
  | value (o : CommandOption) (value : Token)
  | residual (arg : Token)

namespace Use

def option? : Use → Option CommandOption
  | switch o | value o _ => some o
  | residual _ => none

def name? (u : Use) : Option String :=
  u.option?.map (·.name)

-- The part of a use that has to be text.
def payload? : Use → Option Token
  | switch _ => none
  | value _ t | residual t => some t

def isText (u : Use) : Prop :=
  ∀ t, u.payload? = some t → t.text?.isSome

-- The value that a use has for the option `n`.
def valueFor? (n : String) : Use → Option String
  | value o t => if o.name = n then t.text? else none
  | switch _ | residual _ => none

def residual? : Use → Option String
  | residual t => t.text?
  | switch _ | value .. => none

-- The names of the options that are given, in order.
def names (us : List Use) : List String :=
  us.filterMap name?

-- The values that are given to the option `n`, in order.
def valuesOf (n : String) (us : List Use) : List String :=
  us.filterMap (valueFor? n)

-- The residual arguments that are given, in order.
def residuals (us : List Use) : List String :=
  us.filterMap residual?

@[simp] theorem name?_switch (o : CommandOption) : (switch o).name? = some o.name := rfl

@[simp] theorem name?_value (o : CommandOption) (t : Token) : (value o t).name? = some o.name := rfl

@[simp] theorem name?_residual (t : Token) : (residual t).name? = none := rfl

@[simp] theorem valueFor?_switch (n : String) (o : CommandOption) : (switch o).valueFor? n = none := rfl

@[simp] theorem valueFor?_value (n : String) (o : CommandOption) (t : Token) :
    (value o t).valueFor? n = if o.name = n then t.text? else none := rfl

@[simp] theorem residual?_switch (o : CommandOption) : (switch o).residual? = none := rfl

@[simp] theorem residual?_value (o : CommandOption) (t : Token) : (value o t).residual? = none := rfl

theorem isText_switch (o : CommandOption) : (switch o).isText := nofun

@[simp] theorem names_append (us vs : List Use) : names (us ++ vs) = names us ++ names vs :=
  List.filterMap_append

@[simp] theorem valuesOf_append (n : String) (us vs : List Use) :
    valuesOf n (us ++ vs) = valuesOf n us ++ valuesOf n vs :=
  List.filterMap_append

@[simp] theorem residuals_append (us vs : List Use) :
    residuals (us ++ vs) = residuals us ++ residuals vs :=
  List.filterMap_append

@[simp] theorem names_nil : names [] = [] := rfl

@[simp] theorem valuesOf_nil (n : String) : valuesOf n [] = [] := rfl

@[simp] theorem residuals_nil : residuals [] = [] := rfl

@[simp] theorem names_singleton (u : Use) : names [u] = u.name?.toList := by
  cases h : u.name? <;> simp [names, h]

@[simp] theorem valuesOf_singleton (n : String) (u : Use) : valuesOf n [u] = (u.valueFor? n).toList := by
  cases h : u.valueFor? n <;> simp [valuesOf, h]

@[simp] theorem residuals_singleton (u : Use) : residuals [u] = u.residual?.toList := by
  cases h : u.residual? <;> simp [residuals, h]

theorem mem_names {n : String} {us : List Use} :
    n ∈ names us ↔ ∃ u ∈ us, ∃ o, u.option? = some o ∧ o.name = n := by
  simp [names, name?, List.mem_filterMap]

theorem name?_of_valueFor? {n v : String} {u : Use} (h : u.valueFor? n = some v) : u.name? = some n := by
  cases u
  case value o t =>
    simp only [valueFor?] at h
    split at h
    case isTrue he => exact he ▸ rfl
    case isFalse => cases h
  all_goals cases h

theorem valuesOf_eq_nil {n : String} {us : List Use} (h : n ∉ names us) : valuesOf n us = [] := by
  simp only [valuesOf, List.filterMap_eq_nil_iff]
  intro u hu
  cases u
  case value o t => exact if_neg fun hn => h (mem_names.mpr ⟨_, hu, o, rfl, hn⟩)
  all_goals rfl

@[simp] theorem names_residual (ts : List Token) : names (ts.map residual) = [] := by
  simp [names, name?, option?, List.filterMap_map, Function.comp_def]

@[simp] theorem valuesOf_residual (n : String) (ts : List Token) :
    valuesOf n (ts.map residual) = [] := by
  simp [valuesOf, valueFor?, List.filterMap_map, Function.comp_def]

theorem residuals_residual (ts : List Token) : residuals (ts.map residual) = ts.filterMap Token.text? := by
  simp [residuals, residual?, List.filterMap_map, Function.comp_def]

-- Residual arguments that are text are given as they are.
theorem residuals_ofString (args : List String) : residuals ((args.map .ofString).map residual) = args := by
  rw [residuals_residual, List.filterMap_map]
  simp [Token.text?_ofString]

end Use

-- What the command line accepts of a list of uses: an option that may not be repeated is given once,
-- and all that is passed on is text.
structure Legal (us : List Use) : Prop where
  once : us.Pairwise fun u v => ∀ o, v.option? = some o → o.multiple = false → u.name? ≠ some o.name
  text : ∀ u ∈ us, u.isText

namespace Legal

variable {us vs : List Use} {u : Use}

theorem nil : Legal [] :=
  ⟨.nil, nofun⟩

theorem left (h : Legal (us ++ vs)) : Legal us :=
  ⟨(List.pairwise_append.mp h.once).left, fun u hu => h.text u (List.mem_append_left _ hu)⟩

-- The condition on one more use is what a reader can check when it comes to it.
theorem concat_iff : Legal (us ++ [u]) ↔
    Legal us ∧ u.isText ∧ ∀ o, u.option? = some o → o.multiple = false → o.name ∉ Use.names us := by
  constructor
  case mp =>
    intro h
    refine ⟨h.left, h.text u (by simp), ?_⟩
    intro o ho hm hn
    obtain ⟨v, hv, o', ho', he⟩ := Use.mem_names.mp hn
    have := (List.pairwise_append.mp h.once).right.right v hv u (by simp) o ho hm
    simp [Use.name?, ho', he] at this
  case mpr =>
    rintro ⟨hl, ht, ho⟩
    constructor
    case once =>
      refine List.pairwise_append.mpr ⟨hl.once, List.pairwise_singleton .., ?_⟩
      intro v hv w hw o hwo hm hn
      cases List.mem_singleton.mp hw
      obtain ⟨o', ho', he⟩ := Option.map_eq_some_iff.mp hn
      exact ho o hwo hm (Use.mem_names.mpr ⟨v, hv, o', ho', he⟩)
    case text =>
      intro v hv
      cases List.mem_append.mp hv
      case inl hv => exact hl.text v hv
      case inr hv => exact List.mem_singleton.mp hv ▸ ht

theorem append_residual {args : List Token} (h : Legal us) (ha : ∀ t ∈ args, t.text?.isSome) :
    Legal (us ++ args.map .residual) where
  once := by
    refine List.pairwise_append.mpr ⟨h.once, ?_, ?_⟩
    · apply List.pairwise_map.mpr
      exact List.pairwise_of_forall fun _ _ => nofun
    · intro u _ v hv
      have ⟨_, _, he⟩ := List.mem_map.mp hv
      exact he ▸ nofun
  text := by
    intro u hu
    cases List.mem_append.mp hu
    case inl hu => exact h.text u hu
    case inr hu =>
      have ⟨t, ht, he⟩ := List.mem_map.mp hu
      cases he
      rintro _ ⟨⟩
      exact ha t ht

theorem append_ofString (h : Legal us) (args : List String) : Legal (us ++ (args.map .ofString).map .residual) := by
  refine h.append_residual (List.forall_mem_map.mpr fun a _ => ?_)
  simp [Token.text?_ofString]

theorem residual_isSome {args : List Token} (h : Legal (us ++ args.map .residual)) :
    ∀ t ∈ args, t.text?.isSome :=
  fun t ht => h.text (.residual t) (List.mem_append_right _ (List.mem_map_of_mem ht)) t rfl

end Legal

namespace Command

-- A long name stands for the option `o`.
def Long (c : Command) (name : Token) (o : CommandOption) : Prop :=
  name.text?.bind c.long? = some o

-- The short options of one token: what they give, and the option that still waits for its value.
inductive Letters (c : Command) : Token → List Use → Option CommandOption → Prop
  | nil : Letters c [] [] none
  | switch {l ls o us a} (ho : c.short? l = some o) (hv : o.takesValue = false) :
      Letters c ls us a → Letters c (some l :: ls) (.switch o :: us) a
  | last {l o} (ho : c.short? l = some o) (hv : o.takesValue = true) : Letters c [some l] [] (some o)
  | equals {l o value} (ho : c.short? l = some o) (hv : o.takesValue = true) :
      Letters c (some l :: some '=' :: value) [.value o value] none
  | attached {l o value} (ho : c.short? l = some o) (hv : o.takesValue = true) (hn : value ≠ [])
      (he : value.head? ≠ some (some '=')) : Letters c (some l :: value) [.value o value] none

-- One token other than `--`: the option that waits for its value before it, what the token gives, and
-- the option that waits after it.
inductive Gives (c : Command) : Option CommandOption → Token → List Use → Option CommandOption → Prop
  | residual {t} (hs : t.shape = .plain) : Gives c none t [.residual t] none
  | awaited {o t} (hs : t.shape = .plain) : Gives c (some o) t [.value o t] none
  | switch {t name o} (hs : t.shape = .long name none) (ho : c.Long name o) (hv : o.takesValue = false) :
      Gives c none t [.switch o] none
  | separate {t name o} (hs : t.shape = .long name none) (ho : c.Long name o) (hv : o.takesValue = true) :
      Gives c none t [] (some o)
  | attached {t name value o} (hs : t.shape = .long name (some value)) (ho : c.Long name o)
      (hv : o.takesValue = true) : Gives c none t [.value o value] none
  | cluster {t ls us a} (hs : t.shape = .cluster ls) (hl : Letters c ls us a) : Gives c none t us a

-- The tokens after a provider's name give the uses. No option may wait for its value at their end, nor
-- at `--`, behind which everything is a residual argument.
inductive Spells (c : Command) : Option CommandOption → List Token → List Use → Prop
  | done : Spells c none [] []
  | token {a b t ts us vs} : Gives c a t us b → Spells c b ts vs → Spells c a (t :: ts) (us ++ vs)
  | escape {t ts} (hs : t.shape = .terminator) : Spells c none (t :: ts) (ts.map .residual)

-- The use is one of an option that the command has, in the way that the option is to be used.
def Offers (c : Command) : Use → Prop
  | .switch o => o ∈ c.options ∧ o.takesValue = false
  | .value o _ => o ∈ c.options ∧ o.takesValue = true
  | .residual _ => True

variable {c : Command}

theorem offers_append {us vs : List Use} (hu : ∀ u ∈ us, c.Offers u) (hv : ∀ u ∈ vs, c.Offers u) :
    ∀ u ∈ us ++ vs, c.Offers u :=
  fun u hm => (List.mem_append.mp hm).elim (hu u) (hv u)

theorem Long.mem {name : Token} {o : CommandOption} (h : c.Long name o) : o ∈ c.options := by
  have ⟨_, _, h⟩ := Option.bind_eq_some_iff.mp h
  exact List.mem_of_find?_eq_some h

theorem Long.text?_eq {name : Token} {o : CommandOption} (h : c.Long name o) : name.text? = some o.name := by
  have ⟨n, hn, h⟩ := Option.bind_eq_some_iff.mp h
  have he := List.find?_some h
  simp only [decide_eq_true_eq] at he
  exact he ▸ hn

theorem short?_mem {l : Char} {o : CommandOption} (h : c.short? l = some o) : o ∈ c.options :=
  List.mem_of_find?_eq_some h

theorem Letters.offers {ls us a} (h : Letters c ls us a) :
    (∀ u ∈ us, c.Offers u) ∧ ∀ o, a = some o → o ∈ c.options ∧ o.takesValue = true := by
  induction h
  case nil => simp
  case switch ho hv _ hi => simpa [Offers, hv, short?_mem ho] using hi
  case last ho hv => simp [hv, short?_mem ho]
  case equals ho hv => simp [Offers, hv, short?_mem ho]
  case attached ho hv _ _ => simp [Offers, hv, short?_mem ho]

theorem Gives.offers {a t us b} : Gives c a t us b →
    (∀ o, a = some o → o ∈ c.options ∧ o.takesValue = true) →
    (∀ u ∈ us, c.Offers u) ∧ ∀ o, b = some o → o ∈ c.options ∧ o.takesValue = true
  | .residual _, _ => by simp [Offers]
  | .awaited _, ha => by simp [Offers, ha]
  | .switch _ ho hv, _ => by simp [Offers, hv, ho.mem]
  | .separate _ ho hv, _ => by simp [hv, ho.mem]
  | .attached _ ho hv, _ => by simp [Offers, hv, ho.mem]
  | .cluster _ hl, _ => hl.offers

theorem Spells.offers {a ts us} (h : Spells c a ts us)
    (ha : ∀ o, a = some o → o ∈ c.options ∧ o.takesValue = true) : ∀ u ∈ us, c.Offers u := by
  induction h
  case done => simp
  case token hg _ hi =>
    obtain ⟨hu, hb⟩ := hg.offers ha
    exact offers_append hu (hi hb)
  case escape => simp [Offers]

-- A switch has no values, since every use of its name is a use as a switch.
theorem valuesOf_switch {us : List Use} {o : CommandOption} (hn : (c.options.map (·.name)).Nodup)
    (hu : ∀ u ∈ us, c.Offers u) (ho : o ∈ c.options) (hv : o.takesValue = false) :
    Use.valuesOf o.name us = [] := by
  simp only [Use.valuesOf, List.filterMap_eq_nil_iff]
  intro u hm
  cases u
  case value o' t =>
    obtain ⟨ho', hv'⟩ := hu _ hm
    refine if_neg fun he => ?_
    have : o' = o := List.inj_on_of_nodup_map hn ho' ho he
    simp [this, hv] at hv'
  all_goals rfl

end Command

open Command

-- What the uses select of the provider of `e`, after the switches `before` its name.
def Selection.ofUses (before : Globals) (e : Composition.Entry) (us : List Use) : Selection where
  globals := before.or (.ofNames (Use.names us))
  provider := some e.name
  options := .ofList (((Use.names us).filter (· ∉ Globals.names)).map fun n => (n, Use.valuesOf n us))
  args := Use.residuals us

-- An option is selected with its values when it is given and is no switch of the driver.
theorem Selection.get?_ofUses (before : Globals) (e : Composition.Entry) (us : List Use) (n : String) :
    (ofUses before e us).options.get? n =
      if n ∈ Use.names us ∧ n ∉ Globals.names then some (Use.valuesOf n us) else none := by
  simp [ofUses, Keyed.get?_ofList_map]

end CompilerDriver.CommandLine
