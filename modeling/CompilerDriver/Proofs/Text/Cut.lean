import CompilerDriver.File.Path
import CompilerDriver.Text.Blank
import Mathlib.Data.List.Infix
/-!
Texts that are cut at a separator, and what becomes of the pieces when texts are put together.

Paths are cut at slashes and texts at line feeds, in the same way.
-/
namespace CompilerDriver

namespace File.Path

variable {c : Char} {xs ys l : List Char} {ls : List (List Char)}

-- Where two texts meet, the last piece of the one goes on with the first piece of the other.
theorem exists_cutAt_append (c : Char) (xs : List Char) : ∃ ls l, cutAt c xs = ls ++ [l] ∧
    ∀ ys l' ls', cutAt c ys = l' :: ls' → cutAt c (xs ++ ys) = ls ++ (l ++ l') :: ls' := by
  induction xs
  case nil => exact ⟨[], [], rfl, fun _ _ _ h => h⟩
  case cons x xs hi =>
    obtain ⟨ls, l, hl, happend⟩ := hi
    by_cases hx : x = c
    case pos =>
      refine ⟨[] :: ls, l, by simp [cutAt, hx, hl], fun ys l' ls' h => ?_⟩
      simp [cutAt, hx, happend ys l' ls' h]
    case neg =>
      cases ls
      case nil =>
        refine ⟨[], x :: l, by simp [cutAt, hx, hl], fun ys l' ls' h => ?_⟩
        simp [cutAt, hx, happend ys l' ls' h]
      case cons m ls =>
        refine ⟨(x :: m) :: ls, l, by simp [cutAt, hx, hl], fun ys l' ls' h => ?_⟩
        simp [cutAt, hx, happend ys l' ls' h]

theorem cutAt_ne_nil (c : Char) (xs : List Char) : cutAt c xs ≠ [] := by
  have ⟨ls, l, h, _⟩ := exists_cutAt_append c xs
  simp [h]

-- A separator keeps apart what is on its two sides.
theorem cutAt_separator (c : Char) (xs ys : List Char) : cutAt c (xs ++ c :: ys) = cutAt c xs ++ cutAt c ys := by
  have ⟨ls, l, h, happend⟩ := exists_cutAt_append c xs
  rw [happend _ [] (cutAt c ys) (by simp [cutAt]), h]
  simp

theorem cutAt_of_not_mem (h : c ∉ xs) : cutAt c xs = [xs] := by
  induction xs
  case nil => rfl
  case cons x xs hi =>
    simp only [List.mem_cons, not_or] at h
    simp [cutAt, hi h.right, Ne.symm h.left]

-- A beginning without a separator is in the first piece.
theorem cutAt_append_of_not_mem (h : c ∉ xs) (hl : cutAt c ys = l :: ls) : cutAt c (xs ++ ys) = (xs ++ l) :: ls := by
  have ⟨ms, m, hm, happend⟩ := exists_cutAt_append c xs
  rw [cutAt_of_not_mem h, eq_comm, List.append_eq_singleton_iff] at hm
  have hms : ms = [] ∧ m = xs := by simpa using hm
  rw [happend ys l ls hl, hms.left, hms.right, List.nil_append]

theorem not_mem_of_mem_cutAt (h : l ∈ cutAt c xs) : c ∉ l := by
  induction xs generalizing l
  case nil => simp_all [cutAt]
  case cons x xs hi =>
    obtain ⟨m, ms, hm⟩ := List.exists_cons_of_ne_nil (cutAt_ne_nil c xs)
    by_cases hx : x = c
    case pos =>
      simp only [cutAt, hx, if_true, List.mem_cons] at h
      grind
    case neg =>
      simp only [cutAt, hx, if_false, hm, List.mem_cons] at h hi
      grind

-- Only the separator is lost by cutting.
theorem mem_iff_exists_mem_cutAt {x : Char} (hx : x ≠ c) : x ∈ xs ↔ ∃ l ∈ cutAt c xs, x ∈ l := by
  induction xs
  case nil => simp [cutAt]
  case cons y ys hi =>
    obtain ⟨m, ms, hm⟩ := List.exists_cons_of_ne_nil (cutAt_ne_nil c ys)
    rw [hm] at hi
    by_cases hy : y = c
    case pos => simp [cutAt, hy, hx, hi, hm]
    case neg => simp [cutAt, hy, hi, hm, or_assoc]

theorem cutAt_intercalate (hne : ls ≠ []) (h : ∀ l ∈ ls, c ∉ l) : cutAt c ([c].intercalate ls) = ls := by
  induction ls
  case nil => cases hne rfl
  case cons l ls hi =>
    have ⟨hl, hls⟩ := List.forall_mem_cons.mp h
    cases ls
    case nil => rw [List.intercalate_singleton, cutAt_of_not_mem hl]
    case cons m ms =>
      rw [List.intercalate_cons_cons, List.append_assoc, List.singleton_append, cutAt_separator, cutAt_of_not_mem hl,
        hi (List.cons_ne_nil _ _) hls, List.singleton_append]

end File.Path

theorem Text.splitLines_eq_cutAt (xs : List Char) : splitLines xs = File.Path.cutAt '\n' xs := by
  induction xs
  case nil => rfl
  case cons x xs hi =>
    obtain ⟨m, ms, hm⟩ := List.exists_cons_of_ne_nil (File.Path.cutAt_ne_nil '\n' xs)
    by_cases hx : x = '\n'
    all_goals simp [splitLines, File.Path.cutAt, hx, hi, hm]

end CompilerDriver
