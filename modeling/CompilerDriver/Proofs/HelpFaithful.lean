import CompilerDriver.Proofs.HelpText
import CompilerDriver.Proofs.Wording
/-!
Help and the command line agree.

The block of a provider has one line for each option that is accepted after the provider's name, and no other
option is accepted there: what is shown can be given, by its name and by its alias, and nothing else can.
-/
namespace CompilerDriver

open CommandLine Command CompilerDriver.Composition

namespace CommandLine

-- The token for the long option `n`, with a value or without one.
def Token.ofLong (n : String) : Option String → Token
  | some v => .ofString ("--" ++ n ++ "=" ++ v)
  | none => .ofString ("--" ++ n)

theorem Token.shape_ofLong {n : String} {value : Option String} (hn : n ≠ "") (he : '=' ∉ n.toList) :
    (ofLong n value).shape = .long (.ofString n) (value.map .ofString) := by
  cases value
  case none => exact shape_ofString_long hn he
  case some v => exact shape_ofString_attached he v

namespace Use

-- The use of the option with a value or without one.
def of (o : CommandOption) : Option String → Use
  | some v => .value o (.ofString v)
  | none => .switch o

variable {o : CommandOption} {value : Option String}

theorem isText_of : (of o value).isText := by
  cases value
  case none => exact isText_switch o
  case some v =>
    rintro _ ⟨⟩
    simp [Token.text?_ofString]

theorem name?_of : (of o value).name? = some o.name := by
  cases value <;> rfl

theorem valueFor?_of : (of o value).valueFor? o.name = value := by
  cases value <;> simp [of, Token.text?_ofString]

theorem residual?_of : (of o value).residual? = none := by
  cases value <;> rfl

end Use

theorem Writes.ofLong {e : Entry} {o : CommandOption} {value : Option String} (ho : o ∈ e.options)
    (hv : o.takesValue = value.isSome) : Writes e [.ofLong o.name value] (.of o value) := by
  cases value
  case none => exact .switch ho hv
  case some v =>
    rw [Token.ofLong, Token.ofString_append _ v]
    exact .attached ho hv

namespace Command

variable {c : Command} {t : Token} {ts : List Token} {us : List Use} {n : String} {l : Char}

-- A long option that stands alone is one of the command, and it has a value if it takes one.
theorem Spells.exists_of_long {attached : Option Token} (hs : t.shape = .long (.ofString n) attached)
    (h : Spells c none [t] us) : ∃ o ∈ c.options, o.name = n ∧ o.takesValue = attached.isSome := by
  have of_long : ∀ {o}, c.Long (.ofString n) o → o ∈ c.options ∧ o.name = n := by
    intro o ho
    have he := ho.text?_eq
    rw [Token.text?_ofString] at he
    exact ⟨ho.mem, (Option.some.inj he).symm⟩
  cases h
  case escape hs' => simp [hs] at hs'
  case token hg hsp =>
    cases hg
    case switch o ho hv hs' =>
      cases hs.symm.trans hs'
      exact ⟨o, (of_long ho).left, (of_long ho).right, hv⟩
    case separate => cases hsp
    case attached o ho hv hs' =>
      cases hs.symm.trans hs'
      exact ⟨o, (of_long ho).left, (of_long ho).right, hv⟩
    all_goals simp_all

-- A short option is one of the command, and it takes no value if nothing comes behind it.
theorem Spells.exists_of_letter (hs : t.shape = .cluster [some l]) (h : Spells c none (t :: ts) us) :
    ∃ o, c.short? l = some o ∧ (ts = [] → o.takesValue = false) := by
  cases h
  case escape hs' => simp [hs] at hs'
  case token hg hsp =>
    cases hg
    case cluster hs' hl =>
      cases hs.symm.trans hs'
      cases hl
      case switch o _ hv ho _ => exact ⟨o, ho, fun _ => hv⟩
      case last o hv ho =>
        refine ⟨o, ho, fun he => ?_⟩
        subst he
        cases hsp
      case attached => contradiction
    all_goals simp_all

end Command

end CommandLine

namespace Composition

variable {p : Provider} {s : Selection} {o : CommandOption}

-- Uses of one option select that option.
theorem ofUses_of_names {us : List Use} (hg : o.name ∉ Globals.names) (hn : Use.names us = [o.name]) :
    Selection.ofUses {} (entryOf p) us = {
      provider := some p.name, options := .ofList [(o.name, Use.valuesOf o.name us)], args := Use.residuals us } := by
  have hglobals : Globals.or {} (.ofNames [o.name]) = {} := by
    rw [Globals.ofNames_eq_empty (by simpa using hg)]
    rfl
  simp [Selection.ofUses, hn, hglobals, hg, entryOf]

-- One use of an option is legal, whatever the residual arguments are.
theorem selectEntry_of_use {ts : List Token} (value : Option String) (args : List String)
    (ho : o ∈ (entryOf p).options)
    (h : Spells (ofEntry (entryOf p)) none ts ([.of o value] ++ (args.map .ofString).map .residual)) :
    selectEntry [] (entryOf p) ts = .ok s ↔
      s = { provider := some p.name, options := .ofList [(o.name, value.toList)], args } := by
  have hlegal : Legal [.of o value] := ⟨List.pairwise_singleton .., List.forall_mem_singleton.mpr Use.isText_of⟩
  have hl : Legal ([.of o value] ++ (args.map .ofString).map .residual) := hlegal.append_ofString args
  have hn : Use.names ([.of o value] ++ (args.map .ofString).map .residual) = [o.name] := by
    rw [Use.names_append, Use.names_residual, Use.names_singleton, Use.name?_of]
    rfl
  have hv : Use.valuesOf o.name ([.of o value] ++ (args.map .ofString).map .residual) = value.toList := by
    rw [Use.valuesOf_append, Use.valuesOf_residual, Use.valuesOf_singleton, Use.valueFor?_of, List.append_nil]
  have hr : Use.residuals ([.of o value] ++ (args.map .ofString).map .residual) = args := by
    rw [Use.residuals_append, Use.residuals_ofString, Use.residuals_singleton, Use.residual?_of]
    rfl
  have hs := ofUses_of_names (p := p) (not_mem_names_of_mem ho) hn
  rw [hv, hr] at hs
  rw [selectEntry_eq_ok_iff_legal (nodup_ofEntry p) h, and_iff_right hl, ← hs]
  rfl

section Single

variable {r : Registry} (hp : p ∈ r.providers) {n : String} {l : Char} (value : Option String)
include hp

-- A long option is accepted when it is one of the provider's and has a value if it takes one.
theorem parse_long_iff (hn : n ≠ "") (he : '=' ∉ n.toList) (hg : n ∉ Globals.names) :
    (ofRegistry r).parse [.ofString p.name, .ofLong n value] = .ok s ↔
      (∃ o ∈ (entryOf p).options, o.name = n ∧ o.takesValue = value.isSome) ∧
        s = { provider := some p.name, options := .ofList [(n, value.toList)] } := by
  have hsel : ∀ o ∈ (entryOf p).options, o.name = n → o.takesValue = value.isSome →
      (selectEntry [] (entryOf p) [.ofLong n value] = .ok s ↔
        s = { provider := some p.name, options := .ofList [(n, value.toList)] }) := by
    rintro o ho rfl hv
    exact selectEntry_of_use value [] ho ((Writes.ofLong ho hv).spells .done)
  rw [parse_named hp]
  constructor
  case mp =>
    intro h
    have ⟨us, hsp, _, _⟩ := (selectEntry_eq_ok_iff (nodup_ofEntry p)).mp h
    have ⟨o, ho, hname, hv⟩ := hsp.exists_of_long (Token.shape_ofLong hn he)
    have ho := mem_options_of_mem ho (hname ▸ hg)
    have hv : o.takesValue = value.isSome := by simpa using hv
    exact ⟨⟨o, ho, hname, hv⟩, (hsel o ho hname hv).mp h⟩
  case mpr =>
    intro ⟨⟨o, ho, hname, hv⟩, hs⟩
    exact (hsel o ho hname hv).mpr hs

-- A short option is accepted when it is an alias of the provider's. It takes the token behind it as its value,
-- unless it is a switch.
theorem parse_letter_iff (hl : l ≠ '-') (hb : ∀ v ∈ value, (Token.ofString v).Bare) :
    (ofRegistry r).parse (.ofString p.name :: .ofLetter l :: value.toList.map .ofString) = .ok s ↔
      ∃ o ∈ (entryOf p).options, o.short = some l ∧ (value = none → o.takesValue = false) ∧
        s = if o.takesValue then { provider := some p.name, options := .ofList [(o.name, value.toList)] }
          else { provider := some p.name, options := .ofList [(o.name, [])], args := value.toList } := by
  have hsel : ∀ o ∈ (entryOf p).options, o.short = some l → (value = none → o.takesValue = false) →
      (selectEntry [] (entryOf p) (.ofLetter l :: value.toList.map .ofString) = .ok s ↔
        s = if o.takesValue then { provider := some p.name, options := .ofList [(o.name, value.toList)] }
          else { provider := some p.name, options := .ofList [(o.name, [])], args := value.toList }) := by
    intro o ho hshort hnone
    cases hv : o.takesValue
    case false =>
      refine selectEntry_of_use none value.toList ho ((Writes.letter ho hv hshort).spells ?_)
      cases value
      case none => exact .done
      case some v => exact (Writes.residual (hb v rfl)).spells .done
    case true =>
      cases value
      case none => simp [hnone rfl] at hv
      case some v =>
        have hw := Writes.letterSeparate ho hv hshort (hb v rfl)
        exact selectEntry_of_use (some v) [] ho (hw.spells .done)
  rw [parse_named hp]
  constructor
  case mp =>
    intro h
    have ⟨us, hsp, _, _⟩ := (selectEntry_eq_ok_iff (nodup_ofEntry p)).mp h
    have ⟨o, hshort, hnone⟩ := hsp.exists_of_letter (Token.shape_ofLetter hl)
    have ⟨ho, hshort⟩ := short?_eq_some_iff.mp hshort
    have hnone : value = none → o.takesValue = false := fun he => hnone (he ▸ rfl)
    exact ⟨o, ho, hshort, hnone, (hsel o ho hshort hnone).mp h⟩
  case mpr =>
    intro ⟨o, ho, hshort, hnone, hs⟩
    exact (hsel o ho hshort hnone).mpr hs

end Single

end Composition

-- What can be relied on when help shows the block of an entry. Each option that is accepted has one line, in
-- order and with two blanks more for each group around it. What is accepted after the entry's name is the
-- options that are shown, by their long names with a value or without, and by the aliases that are shown.
structure Help.Faithful (c : Composition) (e : Entry) : Prop where
  placed : ∃ before after, text c = before ++ entryText e ++ after
  lines : entryLines e = ["", s!"Provider {e.name}:"] ++ (e.usage.levels 0).flatMap nodeLines
  options : (e.usage.levels 0).flatMap (·.2.options) = e.options
  once : (e.options.map (·.name)).Nodup
  indented : ∀ n ∈ e.usage.levels 0, ∀ o ∈ n.2.options, ∃ rest,
    optionLine (n.1 + 1) (columnWidth n.2.options) o =
      String.ofList (List.replicate (2 * n.1 + 2) ' ') ++ o.signature ++ rest
  value : ∀ n v s, n ≠ "" → '=' ∉ n.toList → n ∉ Globals.names →
    (c.parse [.ofString e.name, .ofString ("--" ++ n ++ "=" ++ v)] = .ok s ↔
      (∃ o ∈ e.options, o.name = n ∧ o.takesValue = true) ∧
        s = { provider := some e.name, options := .ofList [(n, [v])] })
  switch : ∀ n s, n ≠ "" → '=' ∉ n.toList → n ∉ Globals.names →
    (c.parse [.ofString e.name, .ofString ("--" ++ n)] = .ok s ↔
      (∃ o ∈ e.options, o.name = n ∧ o.takesValue = false) ∧
        s = { provider := some e.name, options := .ofList [(n, [])] })
  letter : ∀ l s, l ≠ '-' →
    (c.parse [.ofString e.name, .ofLetter l] = .ok s ↔
      ∃ o ∈ e.options, o.ShownWith l ∧ o.takesValue = false ∧
        s = { provider := some e.name, options := .ofList [(o.name, [])] })
  letterValue : ∀ l v s, l ≠ '-' → (Token.ofString v).Bare →
    (c.parse [.ofString e.name, .ofLetter l, .ofString v] = .ok s ↔
      ∃ o ∈ e.options, o.ShownWith l ∧
        s = if o.takesValue then { provider := some e.name, options := .ofList [(o.name, [v])] }
          else { provider := some e.name, options := .ofList [(o.name, [])], args := [v] })

theorem help_faithful {r : Registry} {p : Provider} (hp : p ∈ r.providers) :
    Help.Faithful (ofRegistry r) (entryOf p) where
  placed := Help.exists_text_eq (List.mem_map_of_mem hp)
  lines := Help.entryLines_eq _
  options := (Usage.flattened_eq_flatMap_levels _).symm
  once := options_entryOf p ▸ nodup_kept
  indented := fun n _ o _ => Help.exists_optionLine_eq (n.1 + 1) (Help.columnWidth n.2.options) o
  value := fun n v s => parse_long_iff hp (some v)
  switch := fun n s => parse_long_iff hp none
  letter := by
    intro l s hl
    have h := parse_letter_iff hp none (s := s) hl nofun
    simp only [CommandOption.shownWith_iff]
    refine h.trans (exists_congr fun o => and_congr_right fun _ => and_congr_right fun _ => ?_)
    simp only [forall_const]
    exact and_congr_right fun hv => by simp [hv]
  letterValue := by
    intro l v s hl hb
    have h := parse_letter_iff hp (some v) (s := s) hl (by simpa using hb)
    simp only [CommandOption.shownWith_iff]
    refine h.trans (exists_congr fun o => and_congr_right fun _ => and_congr_right fun _ => ?_)
    simp

-- A declaration that is not accepted is not shown either.
theorem help_faithful_of_nested :
    let p : Provider := {
      name := "sim",
      usage := {
        summary := "sim [OPTIONS]"
        options := [{ name := "depth", short := some 'd', valueName := some "N" }, .switch "help" "Shadowed"]
        groups := [{ summary := "Tracing", options := [.switch "vcd" "Dump a trace", .switch "depth" "Again"] }] }
      invoke := fun _ => { outcome := .success } }
    let r := Registry.ofProviders [p]
    p ∈ r.providers ∧ Help.Faithful (ofRegistry r) (entryOf p) ∧
    Help.entryLines (entryOf p) = ["", "Provider sim:", "  usage: sim [OPTIONS]", "  -d, --depth <N>",
      "  Tracing:", "        --vcd  Dump a trace"] := by
  intro p r
  have hp : p ∈ r.providers := List.mem_singleton.mpr rfl
  exact ⟨hp, help_faithful hp, by decide +zetaReduce⟩

end CompilerDriver
