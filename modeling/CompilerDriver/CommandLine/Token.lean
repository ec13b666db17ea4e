import CompilerDriver.Text.Utf8
/-!
Command-line tokens. A token is text with gaps: what is not UTF-8 in an argument is a gap, since nothing
but its place matters to the driver.
-/
namespace CompilerDriver.CommandLine

/-- An argument as its characters, with `none` for every longest piece that is not UTF-8. -/
abbrev Token := List (Option Char)

namespace Token

/-- The token that an argument of any bytes is. -/
def ofBytes (bytes : List UInt8) : Token := Text.Utf8.decode bytes

/-- The token that a text is. -/
def ofString (s : String) : Token := s.toList.map some

/-- The text of a token without gaps. -/
def text? (t : Token) : Option String := (t.mapM id).map String.ofList

/-- The token as messages show it. -/
def shown (t : Token) : String := Text.Utf8.shown t

/-- What a token looks like to a parser that has not seen `--`. -/
inductive Shape where
  /-- The token `--`. -/
  | terminator
  /-- A long option, with what follows its first `=`. -/
  | long (name : Token) (attached : Option Token)
  /-- One short option or several, or one with its value. -/
  | cluster (letters : Token)
  /-- Any other token, `-` among them. -/
  | plain
deriving DecidableEq

/-- What stands before the first `=`, and what stands after it if there is one. -/
def splitEquals : Token → Token × Option Token
  | [] => ([], none)
  | some '=' :: rest => ([], some rest)
  | x :: rest => let (name, attached) := splitEquals rest; (x :: name, attached)

/-- The shape of a token. -/
def shape : Token → Shape
  | [some '-', some '-'] => .terminator
  | some '-' :: some '-' :: rest => .long (splitEquals rest).1 (splitEquals rest).2
  | [some '-'] => .plain
  | some '-' :: letters => .cluster letters
  | _ => .plain

theorem ne_nil_of_cluster {t letters : Token} (h : t.shape = .cluster letters) : letters ≠ [] := by
  unfold shape at h
  split at h <;> simp_all

theorem text?_ofString (s : String) : (ofString s).text? = some s := by
  have go : ∀ cs : List Char, (cs.map some).mapM id = some cs := by
    intro cs
    induction cs with
    | nil => rfl
    | cons c cs ih => simp [ih]
  simp [ofString, text?, go]

/-- A token has a text when it is the token of that text. -/
theorem text?_eq_some_iff {t : Token} {s : String} : t.text? = some s ↔ t = ofString s := by
  constructor
  · have go : ∀ (t : Token) (cs : List Char), t.mapM id = some cs → t = cs.map some := by
      intro t
      induction t with
      | nil => simp
      | cons c t ih =>
        intro cs h
        simp only [List.mapM_cons, id, Option.bind_eq_bind, Option.bind_eq_some_iff] at h
        have ⟨c', hc, cs', hcs, he⟩ := h
        cases he
        rw [hc, ih cs' hcs, List.map_cons]
    intro h
    have ⟨cs, hcs, he⟩ := Option.map_eq_some_iff.mp h
    rw [go t cs hcs, ofString, ← he, String.toList_ofList]
  · rintro rfl
    exact text?_ofString s

/-- Without a `=` there is nothing to split. -/
theorem splitEquals_of_not_mem {name : Token} (h : some '=' ∉ name) : splitEquals name = (name, none) := by
  induction name with
  | nil => rfl
  | cons c name ih =>
    simp only [List.mem_cons, not_or] at h
    rw [splitEquals]
    · rw [ih h.2]
    · exact fun he => h.1 he.symm

/-- A token is split at its first `=`. -/
theorem splitEquals_append {name : Token} (h : some '=' ∉ name) (value : Token) :
    splitEquals (name ++ some '=' :: value) = (name, some value) := by
  induction name with
  | nil => rfl
  | cons c name ih =>
    simp only [List.mem_cons, not_or] at h
    rw [List.cons_append, splitEquals]
    · rw [ih h.2]
    · exact fun he => h.1 he.symm

/-- A name with nothing attached is all that there was to split. -/
theorem eq_of_splitEquals {t name : Token} (h : splitEquals t = (name, none)) : t = name := by
  by_cases hm : some '=' ∈ t
  · have ⟨before, value, ht, hnot⟩ := List.eq_append_cons_of_mem hm
    rw [ht, splitEquals_append hnot] at h
    cases h
  · rw [splitEquals_of_not_mem hm] at h
    exact congrArg Prod.fst h

theorem shape_of_dashes {rest : Token} (h : rest ≠ []) :
    shape (some '-' :: some '-' :: rest) = .long (splitEquals rest).1 (splitEquals rest).2 := by
  cases rest with
  | nil => exact absurd rfl h
  | cons => rfl

/-- A long option without a value is its name behind two dashes. -/
theorem eq_of_shape_long {t name : Token} (h : t.shape = .long name none) :
    t = some '-' :: some '-' :: name := by
  unfold shape at h
  split at h <;> simp only [Shape.long.injEq, reduceCtorEq] at h
  rw [eq_of_splitEquals (Prod.ext h.1 h.2)]

/-- A token is plain unless it begins with `-`. The token `-` is plain as well. -/
theorem shape_eq_plain_iff (t : Token) : t.shape = .plain ↔ t = [some '-'] ∨ t.head? ≠ some (some '-') := by
  unfold shape
  split
  · simp
  · simp
  · simp
  · rename_i letters _ _ hne
    simpa using hne
  · rename_i h₁ h₂ h₃ h₄
    refine ⟨fun _ => .inr fun he => ?_, fun _ => rfl⟩
    have ⟨rest, hr⟩ := List.head?_eq_some_iff.mp he
    exact h₄ rest hr

theorem shape_ofString_eq_plain_iff (s : String) :
    (ofString s).shape = .plain ↔ s = "-" ∨ s.toList.head? ≠ some '-' := by
  have hmap : s.toList.map some = ['-'].map some ↔ s.toList = ['-'] :=
    List.map_inj_right fun _ _ => Option.some.inj
  have hs : s = "-" ↔ ofString s = [some '-'] := String.toList_inj.symm.trans hmap.symm
  rw [shape_eq_plain_iff, hs]
  simp [ofString]

theorem ofString_append (s t : String) : ofString (s ++ t) = ofString s ++ ofString t := by
  simp [ofString]

theorem not_mem_ofString {c : Char} {s : String} (h : c ∉ s.toList) : some c ∉ ofString s := by
  simpa [ofString] using h

/-- A long option as a token. -/
theorem shape_ofString_long {name : String} (hn : name ≠ "") (he : '=' ∉ name.toList) :
    (ofString ("--" ++ name)).shape = .long (ofString name) none := by
  have hne : ofString name ≠ [] := by simpa [ofString] using hn
  rw [ofString_append]
  have h := shape_of_dashes hne
  rw [splitEquals_of_not_mem (not_mem_ofString he)] at h
  exact h

/-- A long option with its value as a token. -/
theorem shape_ofString_attached {name : String} (he : '=' ∉ name.toList) (value : String) :
    (ofString ("--" ++ name ++ "=" ++ value)).shape = .long (ofString name) (some (ofString value)) := by
  have h : shape (some '-' :: some '-' :: (ofString name ++ some '=' :: ofString value)) = _ :=
    shape_of_dashes (by simp)
  rw [splitEquals_append (not_mem_ofString he)] at h
  simp only [ofString_append, List.append_assoc]
  exact h

/-- Several tokens are texts when each of them is one. -/
theorem mapM_text?_eq_some_iff {ts : List Token} {texts : List String} :
    ts.mapM text? = some texts ↔ (∀ t ∈ ts, t.text?.isSome) ∧ texts = ts.filterMap text? := by
  induction ts generalizing texts with
  | nil =>
    constructor
    · rintro ⟨⟩
      simp
    · rintro ⟨_, rfl⟩
      rfl
  | cons t ts ih =>
    simp only [List.mapM_cons, List.forall_mem_cons, List.filterMap_cons]
    cases ht : t.text? with
    | none => simp
    | some v =>
      cases hm : ts.mapM text? with
      | none =>
        have hts : ¬∀ t ∈ ts, t.text?.isSome := fun h => by simpa [hm] using ih.mpr ⟨h, rfl⟩
        simp [hts]
      | some vs =>
        have ⟨hts, hvs⟩ := ih.mp hm
        simp only [Option.pure_def, Option.bind_eq_bind, Option.bind_some, Option.some.injEq,
          Option.isSome_some, true_and, hvs]
        constructor
        · rintro rfl
          exact ⟨hts, rfl⟩
        · rintro ⟨_, rfl⟩
          rfl

end Token
end CompilerDriver.CommandLine
