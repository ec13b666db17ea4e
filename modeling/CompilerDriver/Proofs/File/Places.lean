import CompilerDriver.File.Tree
import CompilerDriver.Proofs.Text.Cut
/-!
What can be seen of a tree from outside.

At each place there is a directory, with the names in it, or a file, with its bytes, or nothing. Where a path leads
depends on the directories only, and what is found there on what is seen at that place.
-/
namespace CompilerDriver.File

namespace Path

-- A name that can be given to a file: it is one segment of a path, and leads to something below.
structure Proper (n : String) : Prop where
  segment : '/' ∉ n.toList
  text : '\x00' ∉ n.toList
  below : n ≠ "" ∧ n ≠ "." ∧ n ≠ ".."

instance (n : String) : Decidable (Proper n) :=
  decidable_of_iff ('/' ∉ n.toList ∧ '\x00' ∉ n.toList ∧ n ≠ "" ∧ n ≠ "." ∧ n ≠ "..")
    ⟨fun ⟨hs, ht, hb⟩ => ⟨hs, ht, hb⟩, fun h => ⟨h.segment, h.text, h.below⟩⟩

theorem segments_slash (xs ys : List Char) : segments (xs ++ '/' :: ys) = segments xs ++ segments ys :=
  cutAt_separator '/' xs ys

end Path

namespace Tree

variable {root t : Tree} {cwd path : String} {place : List String}

-- There is a directory at the place.
def isDir (root : Tree) (place : List String) : Bool :=
  match root.at? place with
  | some (dir _) => true
  | _ => false

-- The bytes of the file at the place.
def content? (root : Tree) (place : List String) : Option (List UInt8) :=
  match root.at? place with
  | some (file content _) => some content
  | _ => none

-- The names in the directory at the place.
def listing (root : Tree) (place : List String) : List String :=
  match root.at? place with
  | some (dir entries) => entries.map (·.1)
  | _ => []

-- Where a path leads, if it leads anywhere.
def place? (root : Tree) (cwd path : String) : Option (List String) :=
  (root.resolve cwd path).toOption

theorem listing_eq_nil (h : root.isDir place ≠ true) : root.listing place = [] := by
  rw [isDir] at h
  rw [listing]
  rcases hp : root.at? place with _ | ⟨_, _⟩ | _
  · rfl
  · rfl
  · simp [hp] at h

theorem at?_append (p q : List String) : root.at? (p ++ q) = (root.at? p).bind (·.at? q) := by
  induction p generalizing root
  case nil => simp [at?]
  case cons n p hi =>
    cases root
    case file => rfl
    case dir es =>
      rw [List.cons_append, at?, at?, Option.bind_assoc]
      exact congrArg _ (funext fun t => hi)

-- A file lies in a directory.
theorem isDir_of_content? {n : String} {ns : List String} (h : (root.content? (place ++ n :: ns)).isSome) :
    root.isDir place = true := by
  rw [content?, at?_append] at h
  rw [isDir]
  rcases hp : root.at? place with _ | ⟨_, _⟩ | _
  · simp [hp] at h
  · simp [hp, at?] at h
  · rfl

-- A file is no directory.
theorem not_isDir_of_content? {bytes : List UInt8} (h : root.content? place = some bytes) :
    root.isDir place ≠ true := by
  rw [content?] at h
  rw [isDir]
  rcases hp : root.at? place with _ | ⟨_, _⟩ | _
  · nofun
  · nofun
  · simp [hp] at h

-- A segment of a path leads from one place to the next.
def next (place : List String) (s : List Char) : List String :=
  if Path.isIdle s then place
  else if s = ['.', '.'] then place.dropLast
  else place ++ [String.ofList s]

theorem toOption_walk_cons (s : List Char) (rest : List (List Char)) :
    (walk root place (s :: rest)).toOption =
      if root.isDir place then (walk root (next place s) rest).toOption else none := by
  rw [walk, isDir, next]
  rcases hp : root.at? place with _ | ⟨_, _⟩ | entries
  · rfl
  · rfl
  · simp only [if_true]
    split_ifs
    all_goals rfl

theorem toOption_walk_append (xs ys : List (List Char)) :
    (walk root place (xs ++ ys)).toOption = (walk root place xs).toOption.bind fun p => (walk root p ys).toOption := by
  induction xs generalizing place
  case nil => rfl
  case cons s xs hi =>
    rw [List.cons_append, toOption_walk_cons, toOption_walk_cons, hi]
    split
    all_goals rfl

theorem toOption_walk_congr (h : ∀ p, root.isDir p = t.isDir p) (segments : List (List Char)) :
    (walk root place segments).toOption = (walk t place segments).toOption := by
  induction segments generalizing place
  case nil => rfl
  case cons s rest hi => rw [toOption_walk_cons, toOption_walk_cons, h, hi]

-- The segments of a path from the root.
def allSegments (cwd path : String) : List (List Char) :=
  (if Path.isAbsolute path then [] else Path.segments cwd.toList) ++ Path.segments path.toList

theorem place?_eq : root.place? cwd path =
    if path.toList.contains '\x00' ∨ path = "" then none else (walk root [] (allSegments cwd path)).toOption := by
  unfold place? resolve
  split_ifs <;> simp_all [allSegments] <;> rfl

theorem place?_congr (h : ∀ p, root.isDir p = t.isDir p) : root.place? cwd path = t.place? cwd path := by
  rw [place?_eq, place?_eq, toOption_walk_congr h]

section Leads

theorem resolve_eq_ok_iff {p : List String} : root.resolve cwd path = .ok p ↔ root.place? cwd path = some p := by
  unfold place?
  cases root.resolve cwd path <;> simp [Except.toOption]

theorem exists_resolve_eq_error (h : root.place? cwd path = none) : ∃ f, root.resolve cwd path = .error f := by
  unfold place? at h
  cases hr : root.resolve cwd path
  case error f => exact ⟨f, rfl⟩
  case ok => simp [hr, Except.toOption] at h

-- A path that leads nowhere has nothing to offer.
theorem names_eq_nil (h : root.place? cwd path = none) : root.names cwd path = [] := by
  have ⟨f, hf⟩ := exists_resolve_eq_error h
  rw [names, find, hf]
  rfl

theorem isFile_eq_false (h : root.place? cwd path = none) : root.isFile cwd path = false := by
  have ⟨f, hf⟩ := exists_resolve_eq_error h
  rw [isFile, find, hf]
  rfl

variable (h : root.place? cwd path = some place)
include h

theorem find_eq : root.find cwd path = (root.at? place).elim (.error .noEntry) .ok := by
  rw [find, resolve_eq_ok_iff.mpr h]
  cases hp : root.at? place
  all_goals simp [bind, Except.bind, hp, pure, Except.pure]

theorem names_eq : root.names cwd path = root.listing place := by
  rw [names, find_eq h, listing]
  rcases root.at? place with _ | ⟨_, _⟩ | _ <;> rfl

theorem isFile_eq : root.isFile cwd path = (root.content? place).isSome := by
  rw [isFile, find_eq h, content?]
  rcases root.at? place with _ | ⟨_, _⟩ | _ <;> rfl

theorem readText_eq {bytes : List UInt8} (hb : root.content? place = some bytes) :
    root.readText cwd path = (Text.Utf8.decode? bytes).elim (.error .notText) .ok := by
  have hread : root.read cwd path = .ok bytes := by
    rw [content?] at hb
    rw [read, find_eq h]
    rcases hp : root.at? place with _ | ⟨content, _⟩ | _ <;> rw [hp] at hb <;> cases hb
    rfl
  rw [readText, hread]
  cases hd : Text.Utf8.decode? bytes
  all_goals simp [bind, Except.bind, hd, pure, Except.pure]

end Leads

section Join

variable {base n : String} {p : List String}

theorem next_of_proper (hn : Path.Proper n) : next p n.toList = p ++ [n] := by
  have ⟨hne, hdot, hdots⟩ := hn.below
  have hidle : Path.isIdle n.toList = false := by
    have hdot : n.toList ≠ ['.'] := fun h => hdot (String.toList_inj.mp h)
    simp [Path.isIdle, hne, hdot]
  have hdots : n.toList ≠ ['.', '.'] := fun h => hdots (String.toList_inj.mp h)
  simp [next, hidle, hdots]

-- A slash at the end of a path makes no difference to where it leads, nor to where a name behind it leads.
theorem exists_allSegments_join (hn : Path.Proper n) (hb : base ≠ "")
    (h : (walk root [] (allSegments cwd base)).toOption = some p) :
    ∃ front, (walk root [] front).toOption = some p ∧ allSegments cwd (Path.join base n) = front ++ [n.toList] := by
  have hrelative : Path.isAbsolute n = false := by
    have : n.toList.head? ≠ some '/' := fun h => hn.segment (List.mem_of_head? h)
    simpa [Path.isAbsolute] using this
  have habsolute : ∀ x, Path.isAbsolute (base ++ x) = Path.isAbsolute base := by
    intro x
    have hne : base.toList ≠ [] := by simpa using hb
    simp [Path.isAbsolute, List.head?_append_of_ne_nil _ hne]
  have hsegments : Path.segments n.toList = [n.toList] := Path.cutAt_of_not_mem hn.segment
  unfold Path.join
  rw [if_neg (by simp [hrelative])]
  split
  case isTrue hs =>
    -- The slash at the end has made an empty segment, which the name takes the place of.
    have hs := hs.resolve_left hb
    have ⟨b, hbase⟩ := List.getLast?_eq_some_iff.mp hs
    let start := if Path.isAbsolute base then [] else Path.segments cwd.toList
    have hfront : allSegments cwd base = (start ++ Path.segments b) ++ [[]] := by
      rw [allSegments, hbase, Path.segments_slash, List.append_assoc]
      rfl
    refine ⟨start ++ Path.segments b, ?_, ?_⟩
    · rw [hfront, toOption_walk_append] at h
      obtain ⟨p', hp', h⟩ := Option.bind_eq_some_iff.mp h
      rw [toOption_walk_cons] at h
      have ⟨_, h⟩ : root.isDir p' = true ∧ p' = p := by simpa [next, Path.isIdle, walk, Except.toOption] using h
      exact h ▸ hp'
    · rw [allSegments, habsolute, String.toList_append, hbase, List.append_assoc, List.singleton_append,
        Path.segments_slash, hsegments, List.append_assoc]
  case isFalse =>
    refine ⟨_, h, ?_⟩
    rw [allSegments, allSegments, String.append_assoc, habsolute, String.toList_append, String.toList_append,
      List.append_assoc, ← hsegments]
    exact congrArg _ (Path.segments_slash base.toList n.toList)

theorem place?_join (hn : Path.Proper n) (h : root.place? cwd base = some p) :
    root.place? cwd (Path.join base n) = if root.isDir p then some (p ++ [n]) else none := by
  rw [place?_eq] at h
  split at h
  case isTrue => cases h
  case isFalse hbad =>
    simp only [List.contains_eq_mem, decide_eq_true_eq, not_or] at hbad
    have ⟨hnul, hne⟩ := hbad
    have hjoin : ¬((Path.join base n).toList.contains '\x00' = true ∨ Path.join base n = "") := by
      have hn' := hn.text
      have hname := hn.below.left
      unfold Path.join
      split_ifs
      all_goals simp [hn', hname, hnul]
    obtain ⟨front, hfront, hall⟩ := exists_allSegments_join hn hne h
    rw [place?_eq, if_neg hjoin, hall, toOption_walk_append, hfront, Option.bind_some, toOption_walk_cons,
      next_of_proper hn]
    rfl

end Join

end Tree
end CompilerDriver.File
