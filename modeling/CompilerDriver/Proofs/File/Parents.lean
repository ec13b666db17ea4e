import CompilerDriver.Proofs.File.Places
import Mathlib.Data.List.TakeWhile
/-!
The directory that a path lies in.

Its path is cut off the path of what lies in it. So a path that leads anywhere goes through that directory, and making
it changes nothing.
-/
namespace CompilerDriver.File

namespace Path

variable {ss : List (List Char)} {p dir : String}

-- Only segments that lead nowhere are dropped.
theorem exists_dropIdle_append (ss : List (List Char)) :
    ∃ idle, ss = dropIdle ss ++ idle ∧ ∀ s ∈ idle, isIdle s = true := by
  cases ss
  case nil => exact ⟨[], rfl, nofun⟩
  case cons s ss =>
    refine ⟨(ss.reverse.takeWhile isIdle).reverse, ?_, fun t ht => ?_⟩
    · rw [dropIdle, List.cons_append, ← List.reverse_append, List.takeWhile_append_dropWhile, List.reverse_reverse]
    · exact List.mem_takeWhile_imp (List.mem_reverse.mp ht)

theorem isAbsolute_iff : isAbsolute p = true ↔ ∃ s ss, segments p.toList = [] :: s :: ss := by
  rw [isAbsolute, segments]
  rcases p.toList with _ | ⟨x, xs⟩
  case nil => simp [cutAt]
  case cons =>
    obtain ⟨m, ms, hm⟩ := List.exists_cons_of_ne_nil (cutAt_ne_nil '/' xs)
    by_cases hx : x = '/'
    all_goals simp [cutAt, hx, hm]

theorem eq_empty_of_segments (h : segments p.toList = [[]]) : p = "" := by
  rcases hp : p.toList with _ | ⟨x, xs⟩
  case nil => simpa using hp
  case cons =>
    obtain ⟨m, ms, hm⟩ := List.exists_cons_of_ne_nil (cutAt_ne_nil '/' xs)
    rw [hp, segments, cutAt, hm] at h
    split at h
    all_goals simp at h

theorem segments_ofSegments (hne : ss ≠ []) (h : ∀ s ∈ ss, '/' ∉ s) : segments (ofSegments ss).toList = ss := by
  rw [segments, ofSegments, String.toList_ofList, cutAt_intercalate hne h]

-- A path goes on behind the directory that it lies in.
structure Under (p dir : String) (ss idle rest : List (List Char)) : Prop where
  dir : segments dir.toList = ss ++ idle
  idle : ∀ s ∈ idle, isIdle s = true
  path : segments p.toList = ss ++ rest
  begin : ss ≠ []
  further : rest ≠ []

theorem dropIdle_ne_nil (h : ss ≠ []) : dropIdle ss ≠ [] := by
  cases ss
  case nil => exact h
  case cons => exact List.cons_ne_nil _ _

theorem exists_under (h : parent? p = some dir) (hd : dir ≠ "") : ∃ ss idle rest, Under p dir ss idle rest := by
  obtain ⟨idle, hp, _⟩ := exists_dropIdle_append (segments p.toList)
  have hslash : ∀ s ∈ segments p.toList, '/' ∉ s := fun s hs => not_mem_of_mem_cutAt hs
  rw [parent?] at h
  split at h
  case h_1 => cases h
  case h_2 => cases h
  case h_3 => exact absurd (Option.some.inj h).symm hd
  case h_4 hnil _ hone =>
    generalize dropIdle (segments p.toList) = parts at *
    obtain ⟨front, last, rfl⟩ := (List.eq_nil_or_concat' parts).resolve_left hnil
    rw [List.dropLast_concat] at h
    obtain ⟨between, hfront, _⟩ := exists_dropIdle_append front
    have hbegin : dropIdle front ≠ [] := dropIdle_ne_nil fun he => hone last (by rw [he, List.nil_append])
    generalize dropIdle front = ss at *
    have hpath : segments p.toList = ss ++ (between ++ last :: idle) := by simp [hp, hfront]
    split at h
    case h_1 =>
      obtain rfl := Option.some.inj h
      exact ⟨_, [[]], _, rfl, by simp [isIdle], hpath, hbegin, by simp⟩
    case h_2 =>
      obtain rfl := Option.some.inj h
      refine ⟨ss, [], _, ?_, List.forall_mem_nil _, hpath, hbegin, by simp⟩
      rw [List.append_nil, segments_ofSegments hbegin fun s hs => hslash s (hpath ▸ List.mem_append_left _ hs)]

section Under

variable {idle rest : List (List Char)} (h : Under p dir ss idle rest)
include h

theorem Under.isAbsolute_eq (hd : dir ≠ "") : isAbsolute dir = isAbsolute p := by
  obtain ⟨t, ts, rfl⟩ := List.exists_cons_of_ne_nil h.begin
  obtain ⟨u, us, rfl⟩ := List.exists_cons_of_ne_nil h.further
  rw [Bool.eq_iff_iff, isAbsolute_iff, isAbsolute_iff, h.dir, h.path]
  constructor
  case mp =>
    rintro ⟨s, ss, hs⟩
    obtain ⟨rfl, _⟩ := List.cons.inj hs
    cases ts
    all_goals exact ⟨_, _, rfl⟩
  case mpr =>
    rintro ⟨s, ss, hs⟩
    obtain ⟨rfl, _⟩ := List.cons.inj hs
    rcases hmore : ts ++ idle with _ | ⟨v, vs⟩
    case nil => exact absurd (eq_empty_of_segments (h.dir.trans (congrArg _ hmore))) hd
    case cons => exact ⟨v, vs, congrArg _ hmore⟩

theorem Under.not_mem (hp : '\x00' ∉ p.toList) : '\x00' ∉ dir.toList := by
  have hslash : '\x00' ≠ '/' := by decide
  intro hdir
  obtain ⟨s, hs, hx⟩ := (mem_iff_exists_mem_cutAt hslash).mp hdir
  rw [← segments, h.dir] at hs
  rcases List.mem_append.mp hs with hs | hs
  case inl =>
    have hseg : s ∈ segments p.toList := h.path ▸ List.mem_append_left _ hs
    exact hp ((mem_iff_exists_mem_cutAt hslash).mpr ⟨s, hseg, hx⟩)
  case inr =>
    have hidle := h.idle s hs
    simp only [isIdle, Bool.or_eq_true, decide_eq_true_eq] at hidle
    rcases hidle with rfl | rfl
    all_goals simp at hx

end Under

end Path

namespace Tree

variable {root : Tree} {cwd path dir : String} {place q : List String} {segments : List (List Char)}

theorem isDir_of_walk (h : (walk root place segments).toOption = some q) (hq : root.isDir q = true) :
    root.isDir place = true := by
  cases segments
  case nil =>
    obtain rfl := Option.some.inj h
    exact hq
  case cons s rest =>
    rw [toOption_walk_cons] at h
    by_contra hp
    simp [hp] at h

-- Where a path leads through directories, there is none to be made.
theorem makeDirs_eq (h : (walk root place segments).toOption = some q) (hq : root.isDir q = true) :
    makeDirs root place segments = .ok root := by
  induction segments generalizing place
  case nil => rfl
  case cons s rest hi =>
    have hp := isDir_of_walk h hq
    rw [toOption_walk_cons, if_pos hp] at h
    have hrest := hi h
    have hnext := isDir_of_walk h hq
    rw [next] at hrest hnext
    rw [makeDirs]
    split_ifs at hrest hnext ⊢
    · exact hrest
    · exact hrest
    · rw [isDir] at hnext
      rcases ha : root.at? (place ++ [String.ofList s]) with _ | ⟨_, _⟩ | _
      all_goals simp_all

theorem walk_idle (h : ∀ s ∈ segments, Path.isIdle s = true) (hp : root.isDir place = true) :
    (walk root place segments).toOption = some place := by
  induction segments
  case nil => rfl
  case cons s rest hi =>
    have ⟨hs, hrest⟩ := List.forall_mem_cons.mp h
    rw [toOption_walk_cons, if_pos hp, next, if_pos hs]
    exact hi hrest

-- A path that leads anywhere goes through the directory that it lies in.
theorem createDirs_parent (h : Path.parent? path = some dir) (hp : root.place? cwd path = some place) :
    root.createDirs cwd dir = .ok root := by
  by_cases hd : dir = ""
  case pos => rw [createDirs, if_pos hd]
  have ⟨ss, idle, rest, hu⟩ := Path.exists_under h hd
  rw [place?_eq] at hp
  split at hp
  case isTrue => cases hp
  case isFalse hn =>
    rw [allSegments, hu.path, ← List.append_assoc, toOption_walk_append] at hp
    obtain ⟨q, hq, hrest⟩ := Option.bind_eq_some_iff.mp hp
    have hdir : root.isDir q = true := by
      obtain ⟨t, ts, hts⟩ := List.exists_cons_of_ne_nil hu.further
      rw [hts, toOption_walk_cons] at hrest
      by_contra hq
      simp [hq] at hrest
    have hwalk : (walk root [] (allSegments cwd dir)).toOption = some q := by
      rw [allSegments, hu.isAbsolute_eq hd, hu.dir, ← List.append_assoc, toOption_walk_append, hq]
      exact walk_idle hu.idle hdir
    have hnul : ¬dir.toList.contains '\x00' = true := by
      simpa using hu.not_mem (by simpa using mt Or.inl hn)
    have hmake := makeDirs_eq hwalk hdir
    rw [createDirs, if_neg hd, if_neg hnul]
    rw [allSegments] at hmake
    split
    all_goals simpa [*] using hmake

end Tree
end CompilerDriver.File
