import CompilerDriver.Text.Utf8
import Mathlib.Data.String.Basic
/-!
The order of texts is the order of their bytes.

UTF-8 is made so that comparing bytes compares code points: the bytes of a smaller character come to a smaller byte
before they end.
-/
namespace CompilerDriver.Text.Utf8

-- At the first difference the byte on the left is the smaller one, and neither list ends before it.
def Before : List UInt8 → List UInt8 → Prop
  | b :: bs, b' :: bs' => b < b' ∨ b = b' ∧ Before bs bs'
  | _, _ => False

theorem Before.append_lt {bs bs' : List UInt8} (h : Before bs bs') (xs ys : List UInt8) : bs ++ xs < bs' ++ ys := by
  fun_induction Before bs bs'
  case case1 b bs b' bs' hi =>
    rw [List.cons_append, List.cons_append, List.cons_lt_cons_iff]
    exact h.imp_right fun ⟨he, h⟩ => ⟨he, hi h⟩
  case case2 => exact h.elim

section Bytes

variable {m n : Nat} (hm : m < 0x100) (hn : n < 0x100)
include hm hn

theorem toUInt8_lt_iff : m.toUInt8 < n.toUInt8 ↔ m < n := by
  rw [UInt8.lt_iff_toNat_lt]
  simp [Nat.mod_eq_of_lt hm, Nat.mod_eq_of_lt hn]

theorem toUInt8_inj : m.toUInt8 = n.toUInt8 ↔ m = n := by
  rw [← UInt8.toNat_inj]
  simp [Nat.mod_eq_of_lt hm, Nat.mod_eq_of_lt hn]

end Bytes

-- A smaller character has fewer bytes, and then a smaller first byte, or as many, and then each byte carries the
-- next digits of the code point.
theorem before_encodeChar {c d : Char} (h : c < d) : Before (encodeChar c) (encodeChar d) := by
  have hlt : c.toNat < d.toNat := h
  have hc := toNat_bounds c
  have hd := toNat_bounds d
  simp only [encodeChar]
  split_ifs
  all_goals
    simp (disch := omega) only [Before, toUInt8_lt_iff, toUInt8_inj]
    omega

theorem encodeChar_ne_nil (c : Char) : encodeChar c ≠ [] := by
  simp only [encodeChar]
  split_ifs
  all_goals exact List.cons_ne_nil _ _

theorem encode_lt_encode {xs ys : List Char} (h : xs < ys) : encode xs < encode ys := by
  induction h
  case nil d ys =>
    obtain ⟨b, bs, hb⟩ := List.exists_cons_of_ne_nil (encodeChar_ne_nil d)
    rw [encode, encode, List.flatMap_cons, hb]
    exact List.nil_lt_cons _ _
  case rel h => exact (before_encodeChar h).append_lt _ _
  case cons c xs ys _ hi => exact List.append_left_lt hi

end CompilerDriver.Text.Utf8
