import CompilerDriver.Proofs.File.Places
import Mathlib.Data.List.Nodup
/-!
Trees that differ in what a program should not notice, or in one file.

`Reordered` trees have the same at every place, but may list the names in a directory in another order. `remove`
takes one file out of a tree; all other places keep what they have.
-/
namespace CompilerDriver.File.Tree

variable {root root' t : Tree} {n m : String} {d p : List String} {es : List (String × Tree)}

-- The names in a directory can be given to files, and differ.
def Proper (root : Tree) : Prop :=
  ∀ p, (root.listing p).Nodup ∧ ∀ n ∈ root.listing p, Path.Proper n

-- The same directories and files at the same places, and the same names in each directory in some order.
structure Reordered (root root' : Tree) : Prop where
  dirs : ∀ p, root.isDir p = root'.isDir p
  files : ∀ p, root.content? p = root'.content? p
  listing : ∀ p, (root.listing p).Perm (root'.listing p)

theorem Reordered.proper (h : Reordered root root') (hp : root.Proper) : root'.Proper :=
  fun p => ⟨(h.listing p).nodup_iff.mp (hp p).left, fun n hn => (hp p).right n ((h.listing p).mem_iff.mpr hn)⟩

section Directory

theorem isDir_file (content : List UInt8) (executable : Bool) (p : List String) :
    (file content executable).isDir p = false := by
  cases p <;> rfl

theorem listing_file (content : List UInt8) (executable : Bool) (p : List String) :
    (file content executable).listing p = [] := by
  cases p <;> rfl

theorem content?_file_cons (content : List UInt8) (executable : Bool) (ms : List String) :
    (file content executable).content? (m :: ms) = none := rfl

-- What is seen below a directory is what is seen in one of its entries.
theorem isDir_cons (ms : List String) : (dir es).isDir (m :: ms) = ((child? m es).map (·.isDir ms)).getD false := by
  rw [isDir, at?]
  cases child? m es <;> rfl

theorem content?_cons (ms : List String) : (dir es).content? (m :: ms) = (child? m es).bind (·.content? ms) := by
  rw [content?, at?]
  cases child? m es <;> rfl

theorem listing_nil : (dir es).listing [] = es.map (·.1) := rfl

theorem listing_cons (ms : List String) : (dir es).listing (m :: ms) = ((child? m es).map (·.listing ms)).getD [] := by
  rw [listing, at?]
  cases child? m es <;> rfl

theorem mem_of_child? (h : child? m es = some t) : (m, t) ∈ es := by
  induction es
  case nil => cases h
  case cons e es hi =>
    rw [child?] at h
    split at h
    case isTrue he =>
      obtain rfl := Option.some.inj h
      exact List.mem_cons.mpr (.inl (Prod.ext he.symm rfl))
    case isFalse => exact List.mem_cons_of_mem _ (hi h)

theorem proper_file (content : List UInt8) (executable : Bool) : (file content executable).Proper :=
  fun p => by simp [listing_file]

theorem proper_dir (hn : (es.map (·.1)).Nodup) (he : ∀ e ∈ es, Path.Proper e.1 ∧ e.2.Proper) : (dir es).Proper := by
  intro p
  cases p
  case nil => exact ⟨hn, List.forall_mem_map.mpr fun e hm => (he e hm).left⟩
  case cons m ms =>
    rw [listing_cons]
    cases hc : child? m es
    case none => simp
    case some t => exact (he _ (mem_of_child? hc)).right ms

theorem child?_filter : child? m (es.filter (·.1 ≠ n)) = if m = n then none else child? m es := by
  induction es
  case nil => simp [child?]
  case cons e es hi =>
    by_cases he : e.1 = n <;> by_cases hm : e.1 = m
    all_goals grind [child?]

theorem child?_map {f : String → Tree → Tree} :
    child? m (es.map fun e => (e.1, f e.1 e.2)) = (child? m es).map (f m) := by
  induction es
  case nil => rfl
  case cons e es hi =>
    by_cases he : e.1 = m
    case pos => simp [child?, he]
    case neg => simp [child?, he, hi]

end Directory

-- The tree without the name `n` in the directory at a place.
def remove (n : String) : Tree → List String → Tree
  | file content executable, _ => file content executable
  | dir entries, [] => dir (entries.filter (·.1 ≠ n))
  | dir entries, k :: ks => dir (entries.map fun e => (e.1, if e.1 = k then remove n e.2 ks else e.2))

-- One tree is the other without the file `n` in the directory `d`.
structure Lacks (root' root : Tree) (d : List String) (n : String) : Prop where
  dirs : ∀ p, root'.isDir p = root.isDir p
  files : ∀ p, root'.content? p = if p = d ++ [n] then none else root.content? p
  listing : ∀ p, root'.listing p = if p = d then (root.listing p).filter (· ≠ n) else root.listing p

-- Where there is a file in the root directory, there is nothing else of its name.
theorem lacks_filter {content : List UInt8} {executable : Bool} (h : child? n es = some (file content executable)) :
    Lacks (dir (es.filter (·.1 ≠ n))) (dir es) [] n where
  dirs := by
    intro p
    cases p
    case nil => rfl
    case cons m ms =>
      rw [isDir_cons, isDir_cons, child?_filter]
      split
      case isTrue hm => simp [hm, h, isDir_file]
      case isFalse => rfl
  files := by
    intro p
    cases p
    case nil => rfl
    case cons m ms =>
      rw [content?_cons, content?_cons, child?_filter, List.nil_append]
      by_cases hm : m = n
      case pos => cases ms <;> simp [hm, h, content?_file_cons]
      case neg => simp [hm]
  listing := by
    intro p
    cases p
    case nil =>
      rw [if_pos rfl, listing_nil, listing_nil, List.filter_map]
      rfl
    case cons m ms =>
      rw [listing_cons, listing_cons, child?_filter]
      by_cases hm : m = n
      case pos => simp [hm, h, listing_file]
      case neg => simp [hm]

-- What happens in one entry of a directory happens nowhere else in it.
theorem Lacks.below {k : String} {f : Tree → Tree} (ht : child? k es = some t) (h : Lacks (f t) t d n) :
    Lacks (dir (es.map fun e => (e.1, if e.1 = k then f e.2 else e.2))) (dir es) (k :: d) n where
  dirs := by
    intro p
    cases p
    case nil => rfl
    case cons m ms =>
      rw [isDir_cons, isDir_cons, child?_map (f := fun m t => if m = k then f t else t)]
      by_cases hm : m = k
      case pos => simp [hm, ht, h.dirs]
      case neg => simp [hm]
  files := by
    intro p
    cases p
    case nil => rfl
    case cons m ms =>
      rw [content?_cons, content?_cons, child?_map (f := fun m t => if m = k then f t else t)]
      by_cases hm : m = k
      case pos => simp [hm, ht, h.files]
      case neg => simp [hm]
  listing := by
    intro p
    cases p
    case nil =>
      rw [if_neg (List.cons_ne_nil _ _).symm, listing_nil, listing_nil, List.map_map]
      rfl
    case cons m ms =>
      rw [listing_cons, listing_cons, child?_map (f := fun m t => if m = k then f t else t)]
      by_cases hm : m = k
      case pos => simp [hm, ht, h.listing]
      case neg => simp [hm]

-- Taking a file out changes nothing outside its directory, and there only the file itself.
theorem lacks_remove {bytes : List UInt8} (h : root.content? (d ++ [n]) = some bytes) :
    Lacks (root.remove n d) root d n := by
  induction d generalizing root
  case nil =>
    cases root
    case file => cases h
    case dir es =>
      rw [List.nil_append, content?_cons] at h
      obtain ⟨t, ht, hfile⟩ := Option.bind_eq_some_iff.mp h
      cases t
      case file => exact lacks_filter ht
      case dir => cases hfile
  case cons k ks hi =>
    cases root
    case file => cases h
    case dir es =>
      rw [List.cons_append, content?_cons] at h
      obtain ⟨t, ht, hfile⟩ := Option.bind_eq_some_iff.mp h
      exact Lacks.below (f := fun t => t.remove n ks) ht (hi hfile)

theorem Lacks.proper (h : Lacks root' root d n) (hp : root.Proper) : root'.Proper := by
  intro p
  have ⟨hnodup, hnames⟩ := hp p
  rw [h.listing]
  split
  case isTrue => exact ⟨hnodup.filter _, fun m hm => hnames m (List.mem_of_mem_filter hm)⟩
  case isFalse => exact ⟨hnodup, hnames⟩

end CompilerDriver.File.Tree
