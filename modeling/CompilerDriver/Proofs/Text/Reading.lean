import Mathlib.Data.List.Basic
/-!
Readers that take values off the front of a text, one after the other.

All of them, whatever they fail with, are run by the same equations, and take a run of characters up to one that does
not belong to it.
-/
namespace CompilerDriver.Text

variable {ε α β : Type} {r : StateT (List Char) (Except ε) α} {s s' cs rest : List Char} {x : α} {p : Char → Bool}

-- The first of two readers leaves its text to the second.
theorem bind_of_eq {f : α → StateT (List Char) (Except ε) β} (h : r s = .ok (x, s')) : (r >>= f) s = f x s' := by
  show (r s >>= fun p => f p.1 p.2) = f x s'
  rw [h]
  rfl

theorem pure_eq : (pure x : StateT (List Char) (Except ε) α) s = .ok (x, s) := rfl

theorem get_bind {f : List Char → StateT (List Char) (Except ε) β} : (get >>= f) s = f s s := rfl

theorem set_bind {f : PUnit → StateT (List Char) (Except ε) β} : (set s' >>= f) s = f ⟨⟩ s' := rfl

theorem takeWhile_append_of_head? (hcs : ∀ c ∈ cs, p c = true) (hrest : rest.head?.any p = false) :
    (cs ++ rest).takeWhile p = cs ∧ (cs ++ rest).dropWhile p = rest := by
  rw [List.takeWhile_append_of_pos hcs, List.dropWhile_append_of_pos hcs]
  cases rest
  case nil => simp
  case cons c s =>
    have hc : ¬p c = true := by simpa using hrest
    simp [hc]

end CompilerDriver.Text
