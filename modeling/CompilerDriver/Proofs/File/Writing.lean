import CompilerDriver.Proofs.File.Changes
import CompilerDriver.World
/-!
Writing a file.

A write goes to a file or to a new name in a directory. It makes no directory and removes none, so every path leads
where it led before. What was written is read back, and a second write leaves nothing of the first.
-/
namespace CompilerDriver.File.Tree

variable {root t new old : Tree} {es : List (String × Tree)} {n m cwd path text : String} {place p : List String}
variable {content : List UInt8} {executable : Bool}

section Put

theorem child?_setChild : child? m (setChild n t es) = if n = m then some t else child? m es := by
  induction es
  case nil => rfl
  case cons e es hi => grind [child?, setChild]

theorem setChild_setChild : setChild n new (setChild n old es) = setChild n new es := by
  induction es
  case nil => simp [setChild]
  case cons e es hi => grind [setChild]

theorem at?_put : (put new root place).at? place = some new := by
  induction place generalizing root
  case nil => rfl
  case cons n ns hi =>
    cases root
    all_goals rw [put, at?, child?_setChild, if_pos rfl, Option.bind_some, hi]

theorem put_put : put new (put old root place) place = put new root place := by
  induction place generalizing root
  case nil => rfl
  case cons n ns hi =>
    cases root
    all_goals simp only [put, child?_setChild, if_true, Option.getD_some, hi, setChild_setChild]

-- A file in the place of a file, or under a new name in a directory, changes no directory to anything else.
theorem isDir_put (hplace : root.isDir place = false) (hparent : place ≠ [] → root.isDir place.dropLast = true) :
    (put (file content executable) root place).isDir p = root.isDir p := by
  induction place generalizing root p
  case nil =>
    cases root
    case file => rw [put, isDir_file, isDir_file]
    case dir => cases hplace
  case cons n ns hi =>
    replace hparent := hparent (List.cons_ne_nil n ns)
    cases root
    case file => rw [isDir_file] at hparent; cases hparent
    case dir es =>
      cases p
      case nil => rfl
      case cons m ms =>
        rw [put, isDir_cons, isDir_cons, child?_setChild]
        split
        case isFalse => rfl
        case isTrue hm =>
          subst hm
          rw [isDir_cons] at hplace
          rw [Option.map_some, Option.getD_some]
          cases ht : child? n es
          case none =>
            -- Nothing was there, so the name is the last of the place, and what is new is the file.
            cases ns
            case nil => simp [put, isDir_file]
            case cons k ks => simp [isDir_cons, ht] at hparent
          case some t =>
            rw [ht] at hplace
            refine hi hplace fun hne => ?_
            rw [List.dropLast_cons_of_ne_nil hne, isDir_cons, ht] at hparent
            exact hparent

end Put

-- A file can be written where a path leads, and will be executable or not.
structure Writable (root : Tree) (cwd path : String) (place : List String) (executable : Bool) : Prop where
  bare : withoutSlashes path = path
  leads : root.place? cwd path = some place
  free : (∃ content, root.at? place = some (file content executable)) ∨
    root.at? place = none ∧ root.isDir place.dropLast = true ∧ executable = false

theorem Writable.isDir_place (h : root.Writable cwd path place executable) : root.isDir place = false := by
  rw [isDir]
  rcases h.free with ⟨_, ha⟩ | ⟨ha, _⟩
  all_goals rw [ha]

theorem Writable.isDir_parent (h : root.Writable cwd path place executable) (hne : place ≠ []) :
    root.isDir place.dropLast = true := by
  rcases h.free with ⟨bytes, ha⟩ | ⟨_, hd, _⟩
  case inl =>
    have hcontent : (root.content? (place.dropLast ++ [place.getLast hne])).isSome := by
      rw [List.dropLast_append_getLast, content?, ha]
      rfl
    exact isDir_of_content? hcontent
  case inr => exact hd

-- The write makes the place a file, and leaves all ways as they are.
theorem Writable.put (h : root.Writable cwd path place executable) (content : List UInt8) :
    (put (file content executable) root place).Writable cwd path place executable where
  bare := h.bare
  leads := (place?_congr fun _ => isDir_put h.isDir_place h.isDir_parent).trans h.leads
  free := .inl ⟨content, at?_put⟩

theorem Writable.writeText_eq (h : root.Writable cwd path place executable) (text : String) :
    root.writeText cwd path text = .ok (Tree.put (file (Text.Utf8.encode text.toList) executable) root place) := by
  have hresolve := resolve_eq_ok_iff.mpr h.leads
  rw [writeText]
  simp only [h.bare, ite_self, hresolve, if_true, bind, Except.bind, pure, Except.pure]
  rcases h.free with ⟨_, ha⟩ | ⟨ha, hd, he⟩
  case inl => simp only [ha]
  case inr =>
    rw [isDir] at hd
    rcases hp : root.at? place.dropLast with _ | ⟨_, _⟩ | es
    case none => simp [hp] at hd
    case file => simp [hp] at hd
    case dir => simp only [ha, he]

theorem exists_writable (h : root.writeText cwd path text = .ok t) :
    ∃ place executable, root.Writable cwd path place executable := by
  rw [writeText] at h
  simp only [bind, Except.bind, pure, Except.pure] at h
  split at h
  case h_1 => cases h
  case h_2 place hr =>
    by_cases hb : withoutSlashes path = path
    case neg => split at h <;> simp [hb] at h
    case pos =>
      rw [hb, ite_self] at hr
      have hleads := resolve_eq_ok_iff.mp hr
      split at h
      case h_1 => cases h
      case h_2 content executable ha => exact ⟨place, executable, hb, hleads, .inl ⟨content, ha⟩⟩
      case h_3 es ha hd => exact ⟨place, false, hb, hleads, .inr ⟨ha, by rw [isDir, hd], rfl⟩⟩
      case h_4 => cases h
      case h_5 => cases h

theorem readText_of_writeText (h : root.writeText cwd path text = .ok t) : t.readText cwd path = .ok text := by
  have ⟨place, executable, hw⟩ := exists_writable h
  obtain rfl := Except.ok.inj ((hw.writeText_eq text).symm.trans h)
  have hcontent : (put (file (Text.Utf8.encode text.toList) executable) root place).content? place =
      some (Text.Utf8.encode text.toList) := by
    rw [content?, at?_put]
  rw [readText_eq (hw.put _).leads hcontent, Text.Utf8.decode?_encode]
  rfl

-- Whatever is written next, it is as if it had been written at once.
theorem writeText_of_writeText (h : root.writeText cwd path text = .ok t) (next : String) :
    t.writeText cwd path next = root.writeText cwd path next := by
  have ⟨place, executable, hw⟩ := exists_writable h
  obtain rfl := Except.ok.inj ((hw.writeText_eq text).symm.trans h)
  rw [(hw.put _).writeText_eq, hw.writeText_eq, put_put]

end CompilerDriver.File.Tree

namespace CompilerDriver.World

variable {w w' : World} {path text : String}

-- A file can be written where the path leads.
def Writable (w : World) (path : String) : Prop :=
  ∃ place executable, w.files.Writable w.cwd path place executable

theorem writeText_eq_ok_iff : w.writeText path text = .ok w' ↔
    ∃ files, w.files.writeText w.cwd path text = .ok files ∧ w' = { w with files } := by
  rw [writeText]
  cases w.files.writeText w.cwd path text
  all_goals simp [bind, Except.bind, pure, Except.pure, eq_comm]

-- Whether a file can be written does not depend on what is written.
theorem exists_writeText_iff : (∃ w', w.writeText path text = .ok w') ↔ w.Writable path := by
  simp only [writeText_eq_ok_iff]
  constructor
  case mp =>
    rintro ⟨_, files, hfiles, _⟩
    exact File.Tree.exists_writable hfiles
  case mpr =>
    rintro ⟨place, executable, hw⟩
    exact ⟨_, _, hw.writeText_eq text, rfl⟩

theorem readText_of_writeText (h : w.writeText path text = .ok w') : w'.readText path = .ok text := by
  obtain ⟨files, hfiles, rfl⟩ := writeText_eq_ok_iff.mp h
  exact File.Tree.readText_of_writeText hfiles

theorem writeText_of_writeText (h : w.writeText path text = .ok w') (next : String) :
    w'.writeText path next = w.writeText path next := by
  obtain ⟨files, hfiles, rfl⟩ := writeText_eq_ok_iff.mp h
  rw [writeText, File.Tree.writeText_of_writeText hfiles]
  rfl

end CompilerDriver.World
