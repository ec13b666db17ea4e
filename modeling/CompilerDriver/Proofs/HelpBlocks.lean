import CompilerDriver.Proofs.HelpText
import CompilerDriver.Proofs.Accepted
import CompilerDriver.Proofs.Dispatch
import CompilerDriver.Proofs.Text.Lines
import CompilerDriver.Provider.Invoke
/-!
The blocks of the help text as a reader sees them.

A block begins at a line that names its provider and goes on to the next such line; what it says is indented. The
lines of a description are indented one by one, all other texts of a usage are written as they are. So the blocks
can be told apart exactly when those texts hang.
-/
namespace CompilerDriver

open CompilerDriver.Composition

theorem Manifest.not_mem_of_isToken {name : String} (h : isToken name = true) : '\n' ∉ name.toList := by
  simp only [isToken, Bool.and_eq_true, Bool.not_eq_true'] at h
  exact Text.not_mem_of_anyBlank h.right

namespace CommandOption

variable {o : CommandOption}

theorem not_mem_name (h : o.defect? = none) : '\n' ∉ o.name.toList := by
  have ⟨_, hlong, _⟩ := o.defect?_eq_none_iff.mp h
  simp only [isLongName, Bool.and_eq_true, Bool.not_eq_true'] at hlong
  exact Text.not_mem_of_anyBlank hlong.right

theorem ne_of_short {l : Char} (h : o.defect? = none) (hl : o.short = some l) : l ≠ '\n' := by
  have ⟨_, _, _, hshort⟩ := o.defect?_eq_none_iff.mp h
  have := hshort l hl
  simp only [isShort, Bool.and_eq_true, Bool.not_eq_true'] at this
  rintro rfl
  exact absurd this.right (by decide)

-- A line feed in a signature is one in the name of the value.
theorem exists_signature_eq (h : o.defect? = none) : ∃ front dots, '\n' ∉ front.toList ∧ '\n' ∉ dots.toList ∧
    o.signature = front ++ (o.valueName.map fun v => " <" ++ v ++ ">").getD "" ++ dots := by
  refine ⟨(o.short.map fun l => s!"-{l}, --{o.name}").getD s!"    --{o.name}", if o.multiple then "..." else "",
    ?_, ?_, ?_⟩
  · have hn := not_mem_name h
    cases hs : o.short
    case none => simpa [toString] using hn
    case some l => simpa [toString, (ne_of_short h hs).symm] using hn
  · split <;> decide
  · unfold signature
    cases o.short <;> cases o.valueName <;> rfl

end CommandOption

namespace Help

open Text

-- The line names a provider, and a block begins at it.
def isHeader (l : String) : Bool :=
  "Provider ".toList.isPrefixOf l.toList

def header (name : String) : String := s!"Provider {name}:"

-- The lines are blocks of these names, in this order, behind lines of which none begins a block.
structure Separate (names : List String) (ls : List String) : Prop where
  headers : ls.filter isHeader = names.map header
  indented : ∀ l ∈ ls.dropWhile (!isHeader ·), l ≠ "" → isHeader l = true ∨ isIndented l = true

-- The text that is written above a usage.
def heading : Nat × Usage → String
  | (0, u) => u.summary
  | (_ + 1, u) => u.summary ++ ":"

-- What a usage has written as it is hangs: its title, and the value names and help texts of its options.
structure Hangs (n : Nat × Usage) : Prop where
  title : Hanging (heading n)
  valueName : ∀ o ∈ n.2.options, ∀ v, o.valueName = some v → Hanging (v ++ ">")
  help : ∀ o ∈ n.2.options, Hanging o.help

instance (n : Nat × Usage) : Decidable (Hangs n) :=
  decidable_of_iff (Hanging (heading n) ∧ (∀ o ∈ n.2.options, ∀ v, o.valueName = some v → Hanging (v ++ ">")) ∧
      ∀ o ∈ n.2.options, Hanging o.help)
    ⟨fun ⟨ht, hv, hh⟩ => ⟨ht, hv, hh⟩, fun h => ⟨h.title, h.valueName, h.help⟩⟩

-- The lines of the text are empty or indented.
def Inner (s : String) : Prop :=
  ∀ l ∈ shownLines s, l ≠ "" → isIndented l = true

theorem indent_succ (k : Nat) : indent (k + 1) = "  " ++ indent k := by
  simp only [indent, Nat.mul_add, Nat.mul_one, ← String.toList_inj]
  simp [List.replicate_succ]

theorem not_mem_indent (k : Nat) : '\n' ∉ (indent k).toList := by
  simp [indent]

theorem inner_indent_iff {k : Nat} {s : String} : Inner (indent (k + 1) ++ s) ↔ Hanging s := by
  rw [Inner, indent_succ, String.append_assoc, forall_shownLines_iff, hanging_append_iff_right (not_mem_indent k)]

theorem inner_headLine_iff (n : Nat × Usage) : Inner (headLine n.1 n.2.summary) ↔ Hanging (heading n) := by
  obtain ⟨_ | k, u⟩ := n
  case zero =>
    rw [headLine, String.append_assoc, inner_indent_iff, hanging_append_iff_right (by decide)]
    rfl
  case succ =>
    rw [headLine, String.append_assoc, inner_indent_iff]
    rfl

theorem inner_descriptionLine {k : Nat} {d : Option String} {s : String} (h : s ∈ descriptionLines (k + 1) d) :
    Inner s := by
  cases d
  case none => cases h
  case some text =>
    obtain ⟨l, hl, rfl⟩ := List.mem_map.mp h
    exact inner_indent_iff.mpr (hanging_of_not_mem (not_mem_of_mem_lines hl))

theorem inner_optionLine_iff {k width : Nat} {o : CommandOption} (h : o.defect? = none) :
    Inner (optionLine (k + 1) width o) ↔ (∀ v, o.valueName = some v → Hanging (v ++ ">")) ∧ Hanging o.help := by
  have ⟨front, dots, hfront, hdots, hsignature⟩ := CommandOption.exists_signature_eq h
  have hrest : Hanging (dots ++ (gap width o ++ o.help)) ↔ Hanging o.help := by
    rw [hanging_append_iff_right hdots, hanging_append_iff_right (not_mem_gap width o)]
  rw [optionLine_eq, String.append_assoc, inner_indent_iff, hsignature]
  cases o.valueName
  case none => simp [String.append_assoc, hanging_append_iff_right hfront, hrest]
  case some v =>
    have hfront : '\n' ∉ (front ++ " <").toList := by simpa using hfront
    have hassoc : front ++ (" <" ++ v ++ ">") ++ dots ++ (gap width o ++ o.help) =
        (front ++ " <") ++ (v ++ ">" ++ (dots ++ (gap width o ++ o.help))) := by
      simp only [String.append_assoc]
    rw [Option.map_some, Option.getD_some, hassoc, hanging_append_iff_right hfront, hanging_mark_iff, hrest]
    simp

theorem inner_nodeLines_iff {n : Nat × Usage} (h : ∀ o ∈ n.2.options, o.defect? = none) :
    (∀ s ∈ nodeLines n, Inner s) ↔ Hangs n := by
  have hoptions : (∀ s ∈ optionLines (n.1 + 1) n.2.options, Inner s) ↔
      ∀ o ∈ n.2.options, (∀ v, o.valueName = some v → Hanging (v ++ ">")) ∧ Hanging o.help := by
    rw [optionLines, List.forall_mem_map]
    exact forall₂_congr fun o ho => inner_optionLine_iff (h o ho)
  rw [nodeLines, List.forall_mem_cons, List.forall_mem_append, inner_headLine_iff, hoptions]
  constructor
  case mp => exact fun ⟨ht, _, ho⟩ => ⟨ht, fun o hm => (ho o hm).left, fun o hm => (ho o hm).right⟩
  case mpr => exact fun h => ⟨h.title, fun _ => inner_descriptionLine, fun o hm => ⟨h.valueName o hm, h.help o hm⟩⟩

-- What a reader sees of an entry under its header.
def innerLines (e : Entry) : List String :=
  ((e.usage.levels 0).flatMap nodeLines).flatMap shownLines

-- The entries with their headers, each set off by an empty line; `inner` is what a reader sees under a header.
def blocks (es : List Entry) (inner : Entry → List String) : List String :=
  es.flatMap fun e => "" :: header e.name :: inner e

-- What a reader sees before the first provider.
def openingLines (c : Composition) : List String :=
  (("usage: " ++ c.usageLine) :: optionLines 0 Globals.options).flatMap shownLines

theorem shownLines_header {name : String} (h : '\n' ∉ name.toList) :
    shownLines (header name) = [header name] :=
  shownLines_of_not_mem (by simpa [header, toString] using h) (by simp [header, toString, List.getLast?_cons])

theorem isHeader_header (name : String) : isHeader (header name) = true := by
  simp [isHeader, header, toString]

-- A line that is empty or indented begins no block.
theorem isHeader_eq_false {l : String} (h : l ≠ "" → isIndented l = true) : isHeader l = false := by
  by_cases hne : l = ""
  case pos => exact hne ▸ by decide
  case neg =>
    have ⟨rest, hl⟩ := List.isPrefixOf_iff_prefix.mp (h hne)
    simp [isHeader, ← hl, List.isPrefixOf]

-- The switches of the driver have no alias, so blanks stand in its place.
theorem inner_switchLine (width : Nat) (w : Globals.Switch) : Inner (optionLine 0 width (.switch w.name w.text)) := by
  let o := CommandOption.switch w.name w.text
  have hsignature : indent 0 ++ o.signature = "  " ++ ("  --" ++ w.name) := by
    cases w <;> decide +zetaReduce
  have hrest : '\n' ∉ ("  --" ++ w.name ++ (gap width o ++ o.help)).toList := by
    cases w <;> simp [not_mem_gap, o, CommandOption.switch, Globals.Switch.name, Globals.Switch.text]
  rw [Inner, optionLine_eq, hsignature, String.append_assoc, forall_shownLines_iff]
  exact hanging_of_not_mem hrest

theorem lines_text {c : Composition} (h : ∀ n ∈ c.names, '\n' ∉ n.toList) :
    lines (text c) = openingLines c ++ blocks c.entries innerLines := by
  have hentry : ∀ e ∈ c.entries,
      (entryLines e).flatMap shownLines = "" :: header e.name :: innerLines e := by
    intro e he
    have hname : shownLines s!"Provider {e.name}:" = [header e.name] :=
      shownLines_header (h e.name (List.mem_map_of_mem he))
    have hblank : shownLines "" = [""] := by decide
    rw [entryLines_eq, List.flatMap_append, List.flatMap_cons, List.flatMap_cons, hname, hblank]
    rfl
  rw [text, lines_join, allLines, List.flatMap_append, List.flatMap_assoc, List.flatMap_congr hentry]
  rfl

theorem isHeader_opening {c : Composition} (h : ∀ n ∈ c.names, '\n' ∉ n.toList) :
    ∀ l ∈ openingLines c, isHeader l = false := by
  have hnames := not_mem_intercalate (by decide : '\n' ∉ "|".toList) h
  have husage : shownLines ("usage: " ++ c.usageLine) = ["usage: " ++ c.usageLine] := by
    unfold Composition.usageLine
    generalize "|".intercalate c.names = names at hnames
    refine shownLines_of_not_mem ?_ ?_
    · simp [rootName, toString, hnames]
    · simp [List.getLast?_cons, List.getLast?_append]
  rw [openingLines, List.flatMap_cons, husage, List.forall_mem_append, List.forall_mem_singleton]
  refine ⟨by simp [isHeader, List.isPrefixOf], fun l hl => ?_⟩
  have ⟨s, hs, hl⟩ := List.mem_flatMap.mp hl
  obtain ⟨o, ho, rfl⟩ := List.mem_map.mp hs
  obtain ⟨w, _, rfl⟩ := List.mem_map.mp ho
  exact isHeader_eq_false (inner_switchLine _ w l hl)

section Heads

variable {α β : Type} {f : α → β} {g : α → List β} {xs : List α}

theorem length_le_flatMap_cons (f : α → β) (g : α → List β) (xs : List α) :
    xs.length ≤ (xs.flatMap fun x => f x :: g x).length := by
  induction xs
  case nil => simp
  case cons x xs hi =>
    rw [List.flatMap_cons, List.cons_append, List.length_cons, List.length_cons, List.length_append]
    omega

-- Each element gives one member at least, so there is no room for a second.
theorem flatMap_cons_eq_map_iff : (xs.flatMap fun x => f x :: g x) = xs.map f ↔ ∀ x ∈ xs, g x = [] := by
  induction xs
  case nil => simp
  case cons x xs hi =>
    rw [List.flatMap_cons, List.map_cons, List.cons_append, List.cons_inj_right, List.forall_mem_cons, ← hi]
    constructor
    case mp =>
      intro h
      have hx : g x = [] := by
        have hle := length_le_flatMap_cons f g xs
        have hlen := congrArg List.length h
        rw [List.length_append, List.length_map] at hlen
        exact List.eq_nil_of_length_eq_zero (by omega)
      exact ⟨hx, by simpa [hx] using h⟩
    case mpr =>
      intro ⟨hx, h⟩
      rw [hx, List.nil_append, h]

end Heads

section Separation

variable (es : List Entry) (inner : Entry → List String)

-- What holds of empty lines and of headers is a matter of the lines below the headers.
theorem forall_mem_blocks_iff {P : String → Prop} (hblank : P "") (hheader : ∀ l, isHeader l = true → P l) :
    (∀ l ∈ blocks es inner, P l) ↔ ∀ e ∈ es, ∀ l ∈ inner e, P l := by
  constructor
  case mp => exact fun h e he l hl => h l (List.mem_flatMap.mpr ⟨e, he, by simp [hl]⟩)
  case mpr =>
    intro h l hl
    obtain ⟨e, he, hl⟩ := List.mem_flatMap.mp hl
    simp only [List.mem_cons] at hl
    obtain rfl | rfl | hl := hl
    · exact hblank
    · exact hheader _ (isHeader_header e.name)
    · exact h e he l hl

variable {opening : List String} (hopening : ∀ l ∈ opening, isHeader l = false)
include hopening

theorem filter_blocks : (opening ++ blocks es inner).filter isHeader =
    es.flatMap fun e => header e.name :: (inner e).filter isHeader := by
  have hfilter : opening.filter isHeader = [] := List.filter_eq_nil_iff.mpr fun l hl => by simp [hopening l hl]
  have hblank : isHeader "" = false := by decide
  rw [List.filter_append, hfilter, List.nil_append, blocks, List.filter_flatMap]
  simp only [List.filter_cons, hblank, isHeader_header, if_true, Bool.false_eq_true, if_false]

-- No line under a header begins a block, if there are no more headers than names.
theorem filter_blocks_eq_iff : (opening ++ blocks es inner).filter isHeader = (es.map (·.name)).map header ↔
    ∀ e ∈ es, ∀ l ∈ inner e, isHeader l = false := by
  rw [filter_blocks es inner hopening, List.map_map]
  refine flatMap_cons_eq_map_iff.trans (forall₂_congr fun e _ => ?_)
  simp [List.filter_eq_nil_iff]

theorem forall_dropWhile_iff {P : String → Prop} (hblank : P "") (hheader : ∀ l, isHeader l = true → P l) :
    (∀ l ∈ (opening ++ blocks es inner).dropWhile (!isHeader ·), P l) ↔
      ∀ e ∈ es, ∀ l ∈ inner e, P l := by
  rw [List.dropWhile_append_of_pos fun l hl => by simp [hopening l hl]]
  cases es
  case nil => simp [blocks]
  case cons e es =>
    -- Of the first block the empty line goes, and the header stops it.
    have hdrop : (blocks (e :: es) inner).dropWhile (!isHeader ·) = header e.name :: inner e ++ blocks es inner := by
      have hblank : isHeader "" = false := by decide
      simp [blocks, hblank, isHeader_header]
    rw [hdrop, List.forall_mem_append, List.forall_mem_cons, forall_mem_blocks_iff es inner hblank hheader,
      and_iff_right (hheader _ (isHeader_header e.name)), List.forall_mem_cons]

theorem separate_blocks_iff : Separate (es.map (·.name)) (opening ++ blocks es inner) ↔
    ∀ e ∈ es, ∀ l ∈ inner e, l ≠ "" → isIndented l = true := by
  have hheaders := filter_blocks_eq_iff es inner hopening
  have hindented := forall_dropWhile_iff es inner hopening
    (P := fun l => l ≠ "" → isHeader l = true ∨ isIndented l = true) (by simp) fun l hl _ => .inl hl
  constructor
  case mp =>
    intro h e he l hl hne
    have hnot := hheaders.mp h.headers e he l hl
    exact (hindented.mp h.indented e he l hl hne).resolve_left (by simp [hnot])
  case mpr =>
    intro h
    constructor
    case headers => exact hheaders.mpr fun e he l hl => isHeader_eq_false (h e he l hl)
    case indented => exact hindented.mpr fun e he l hl hne => .inr (h e he l hl hne)

end Separation

theorem forall_innerLines_iff (p : Provider) :
    (∀ l ∈ innerLines (entryOf p), l ≠ "" → isIndented l = true) ↔ ∀ n ∈ (entryOf p).usage.levels 0, Hangs n := by
  have hoptions : ∀ n ∈ (entryOf p).usage.levels 0, ∀ o ∈ n.2.options, o.defect? = none := by
    intro n hn o ho
    have hm : o ∈ (entryOf p).options := by
      rw [Entry.options, Usage.flattened_eq_flatMap_levels]
      exact List.mem_flatMap.mpr ⟨n, hn, ho⟩
    exact (of_mem_kept (options_entryOf p ▸ hm)).left
  have hnodes : (∀ n ∈ (entryOf p).usage.levels 0, ∀ s ∈ nodeLines n, Inner s) ↔
      ∀ n ∈ (entryOf p).usage.levels 0, Hangs n :=
    forall₂_congr fun n hn => inner_nodeLines_iff (hoptions n hn)
  rw [← hnodes]
  simp only [innerLines, List.mem_flatMap, forall_exists_index, and_imp, Inner]
  constructor
  case mp => exact fun h n hn s hs l hl => h l s n hn hs hl
  case mpr => exact fun h l s n hn hs hl => h n hn s hs l hl

-- The help text falls into its blocks exactly when no text that is written as it is leaves its indentation.
theorem separate_iff {ms : List Manifest} (hms : ∀ m ∈ ms, m.defect? = none) (launch : Program.Launcher) :
    let r := Registry.ofProviders (ms.map (·.toProvider launch))
    Separate r.names (lines (text (.ofRegistry r))) ↔
      ∀ p ∈ r.providers, ∀ n ∈ (entryOf p).usage.levels 0, Hangs n := by
  intro r
  have hnames : ∀ n ∈ (ofRegistry r).names, '\n' ∉ n.toList := by
    rw [names_ofRegistry]
    refine List.forall_mem_map.mpr fun p hp => ?_
    obtain ⟨m, hm, rfl⟩ := List.mem_map.mp (Registry.mem_ofProviders hp)
    exact Manifest.not_mem_of_isToken (m.defect?_eq_none_iff.mp (hms m hm)).right.left
  rw [lines_text hnames, ← names_ofRegistry]
  refine (separate_blocks_iff _ _ (isHeader_opening hnames)).trans ?_
  rw [ofRegistry, List.forall_mem_map]
  exact forall₂_congr fun p _ => forall_innerLines_iff p

-- A description of several lines is indented as a whole, and a help text can be written so that it hangs.
theorem separate_of_hanging :
    let ms : List Manifest := [
      { name := "sim", command := "c", description := some "Simulates.\nProvider synth:",
        options := [{ name := "out", valueName := some "DIR", help := "Target\n  Provider synth:" }] },
      { name := "synth", command := "c" }]
    let launch : Program.Launcher := fun _ => .ok {}
    let r := Registry.ofProviders (ms.map (·.toProvider launch))
    (∀ m ∈ ms, m.defect? = none) ∧ Separate ["sim", "synth"] (lines (text (.ofRegistry r))) := by
  intro ms launch r
  have hms : ∀ m ∈ ms, m.defect? = none := by decide +zetaReduce
  exact ⟨hms, (separate_iff hms launch).mpr (by decide +zetaReduce)⟩

-- A summary of two lines begins a block of its own.
theorem not_separate_of_summary :
    let ms : List Manifest := [
      { name := "sim", command := "c", usage := some "sim [OPTIONS]\nProvider synth:" },
      { name := "synth", command := "c" }]
    let launch : Program.Launcher := fun _ => .ok {}
    let r := Registry.ofProviders (ms.map (·.toProvider launch))
    (∀ m ∈ ms, m.defect? = none) ∧ r.names = ["sim", "synth"] ∧
    (lines (text (.ofRegistry r))).filter isHeader = ["Provider sim:", "Provider synth:", "Provider synth:"] ∧
    ¬Separate r.names (lines (text (.ofRegistry r))) := by
  intro ms launch r
  have hnames : ∀ n ∈ (ofRegistry r).names, '\n' ∉ n.toList := by decide +zetaReduce
  have hheaders : (lines (text (.ofRegistry r))).filter isHeader =
      ["Provider sim:", "Provider synth:", "Provider synth:"] := by
    rw [lines_text hnames, filter_blocks _ _ (isHeader_opening hnames)]
    decide +zetaReduce
  refine ⟨by decide +zetaReduce, by decide +zetaReduce, hheaders, fun h => ?_⟩
  exact absurd (hheaders.symm.trans h.headers) (by decide +zetaReduce)

end Help
end CompilerDriver
