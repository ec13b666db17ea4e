/-!
UTF-8 as text with gaps.

`decode` reads any bytes. A well-formed sequence gives its character; what is not well formed gives
`none` once for every longest piece that could have begun a sequence, as the Unicode standard advises
for replacement. `decode_encode` says that text comes back unchanged.
-/
namespace CompilerDriver.Text.Utf8

/-- A byte that continues a sequence. -/
def isTail (b : UInt8) : Bool :=
  0x80 ≤ b.toNat && b.toNat < 0xC0

/-- What a first byte promises: how many bytes follow it, and the bounds of the byte right after it. The
bounds are narrower than `isTail` where the byte alone decides that a sequence is overlong, a surrogate
or beyond the last code point. -/
structure Lead where
  tails : Nat
  low : Nat
  high : Nat

/-- `none` for a byte that starts no sequence of two bytes or more. -/
def lead? (b : UInt8) : Option Lead :=
  let n := b.toNat
  if 0xC2 ≤ n ∧ n ≤ 0xDF then some ⟨1, 0x80, 0xBF⟩
  else if n = 0xE0 then some ⟨2, 0xA0, 0xBF⟩
  else if n = 0xED then some ⟨2, 0x80, 0x9F⟩
  else if 0xE1 ≤ n ∧ n ≤ 0xEF then some ⟨2, 0x80, 0xBF⟩
  else if n = 0xF0 then some ⟨3, 0x90, 0xBF⟩
  else if 0xF1 ≤ n ∧ n ≤ 0xF3 then some ⟨3, 0x80, 0xBF⟩
  else if n = 0xF4 then some ⟨3, 0x80, 0x8F⟩
  else none

/-- The six bits that a tail byte carries. -/
def tailBits (b : UInt8) : Nat :=
  b.toNat % 0x40

/-- Reads the character at the front of `b :: bs`: the character, or `none` for a longest ill-formed
piece, and the number of bytes taken after `b`. -/
def step (b : UInt8) (bs : List UInt8) : Option Char × Nat :=
  if b.toNat < 0x80 then (some (Char.ofNat b.toNat), 0)
  else match lead? b with
  | none => (none, 0)
  | some l =>
    match bs with
    | [] => (none, 0)
    | b₁ :: bs =>
      if !(l.low ≤ b₁.toNat && b₁.toNat ≤ l.high) then (none, 0)
      else if l.tails = 1 then
        (some (Char.ofNat ((b.toNat - 0xC0) * 0x40 + tailBits b₁)), 1)
      else match bs with
      | [] => (none, 1)
      | b₂ :: bs =>
        if !isTail b₂ then (none, 1)
        else if l.tails = 2 then
          (some (Char.ofNat ((b.toNat - 0xE0) * 0x1000 + tailBits b₁ * 0x40 + tailBits b₂)), 2)
        else match bs with
        | [] => (none, 2)
        | b₃ :: _ =>
          if !isTail b₃ then (none, 2)
          else
            (some (Char.ofNat ((b.toNat - 0xF0) * 0x40000 + tailBits b₁ * 0x1000 +
              tailBits b₂ * 0x40 + tailBits b₃)), 3)

/-- The characters of `bs`, with `none` for each longest ill-formed piece. -/
def decode : List UInt8 → List (Option Char)
  | [] => []
  | b :: bs => (step b bs).1 :: decode (bs.drop (step b bs).2)
termination_by bs => bs.length
decreasing_by simp only [List.length_drop, List.length_cons]; omega

/-- The text that `bs` holds, if all of it is well formed. -/
def decode? (bs : List UInt8) : Option String :=
  ((decode bs).mapM id).map String.ofList

/-- A decoded text with the replacement character U+FFFD in its gaps. -/
def shown (cs : List (Option Char)) : String :=
  String.ofList (cs.map (·.getD '\uFFFD'))

/-- The bytes of one character. -/
def encodeChar (c : Char) : List UInt8 :=
  let n := c.toNat
  if n < 0x80 then [n.toUInt8]
  else if n < 0x800 then [(0xC0 + n / 0x40).toUInt8, (0x80 + n % 0x40).toUInt8]
  else if n < 0x10000 then
    [(0xE0 + n / 0x1000).toUInt8, (0x80 + n / 0x40 % 0x40).toUInt8, (0x80 + n % 0x40).toUInt8]
  else
    [(0xF0 + n / 0x40000).toUInt8, (0x80 + n / 0x1000 % 0x40).toUInt8,
      (0x80 + n / 0x40 % 0x40).toUInt8, (0x80 + n % 0x40).toUInt8]

/-- The bytes of a text. -/
def encode (cs : List Char) : List UInt8 :=
  cs.flatMap encodeChar

/-- The number of bytes that a character takes. -/
def width (c : Char) : Nat :=
  let n := c.toNat
  if n < 0x80 then 1 else if n < 0x800 then 2 else if n < 0x10000 then 3 else 4

/-- The number of bytes that a text takes. -/
def size (cs : List Char) : Nat :=
  cs.foldr (fun c n => width c + n) 0

theorem one_le_width (c : Char) : 1 ≤ width c := by
  simp only [width]
  split
  · exact Nat.le_refl _
  · split
    · decide
    · split <;> decide

/-- A text has no more characters than bytes. -/
theorem length_le_size (cs : List Char) : cs.length ≤ size cs := by
  induction cs with
  | nil => exact Nat.le_refl _
  | cons c cs ih =>
    have := one_le_width c
    simp only [size, List.foldr_cons, List.length_cons] at ih ⊢
    omega

/-- A text of as many bytes as characters is one of ASCII characters. -/
theorem ascii_of_size_le {cs : List Char} (h : size cs ≤ cs.length) : ∀ c ∈ cs, c.toNat < 0x80 := by
  induction cs with
  | nil => nofun
  | cons c cs ih =>
    have hrest := length_le_size cs
    have hc := one_le_width c
    simp only [size, List.foldr_cons, List.length_cons] at h hrest ih
    have hw : width c = 1 := by omega
    have hascii : c.toNat < 0x80 := by
      simp only [width] at hw
      grind
    exact List.forall_mem_cons.2 ⟨hascii, ih (by omega)⟩

/-- A code point is below the surrogates or above them, and not beyond the last one. -/
theorem toNat_bounds (c : Char) :
    c.toNat < 0xD800 ∨ (0xE000 ≤ c.toNat ∧ c.toNat < 0x110000) := by
  have h := c.valid
  simp only [UInt32.isValidChar, Nat.isValidChar] at h
  have e : c.toNat = c.val.toNat := rfl
  omega

/-- The bytes of a character are read back as that character, whatever follows. -/
theorem step_encodeChar (c : Char) (bs : List UInt8) :
    ∃ b tail, encodeChar c ++ bs = b :: (tail ++ bs) ∧ step b (tail ++ bs) = (some c, tail.length) := by
  have hb := toNat_bounds c
  have hc : Char.ofNat c.toNat = c := Char.ofNat_toNat c
  by_cases h1 : c.toNat < 0x80
  · refine ⟨c.toNat.toUInt8, [], ?_, ?_⟩
    · simp [encodeChar, h1]
    · have : c.toNat.toUInt8.toNat = c.toNat := by simp; omega
      simp [step, this, h1, hc]
  by_cases h2 : c.toNat < 0x800
  · refine ⟨(0xC0 + c.toNat / 0x40).toUInt8, [(0x80 + c.toNat % 0x40).toUInt8], ?_, ?_⟩
    · simp [encodeChar, h1, h2]
    · have e0 : (0xC0 + c.toNat / 0x40).toUInt8.toNat = 0xC0 + c.toNat / 0x40 := by simp; omega
      have e1 : (0x80 + c.toNat % 0x40).toUInt8.toNat = 0x80 + c.toNat % 0x40 := by simp; omega
      have l : lead? (0xC0 + c.toNat / 0x40).toUInt8 = some ⟨1, 0x80, 0xBF⟩ := by
        unfold lead?; rw [e0, if_pos (by omega)]
      simp only [step, List.cons_append, List.nil_append, l, e0, e1, tailBits]
      rw [if_neg (by omega), if_neg (by simp; omega), if_pos trivial]
      rw [show (0xC0 + c.toNat / 0x40 - 0xC0) * 0x40 + (0x80 + c.toNat % 0x40) % 0x40 = c.toNat by omega, hc]
      rfl
  by_cases h3 : c.toNat < 0x10000
  · refine ⟨(0xE0 + c.toNat / 0x1000).toUInt8,
      [(0x80 + c.toNat / 0x40 % 0x40).toUInt8, (0x80 + c.toNat % 0x40).toUInt8], ?_, ?_⟩
    · simp [encodeChar, h1, h2, h3]
    · have e0 : (0xE0 + c.toNat / 0x1000).toUInt8.toNat = 0xE0 + c.toNat / 0x1000 := by simp; omega
      have e1 : (0x80 + c.toNat / 0x40 % 0x40).toUInt8.toNat = 0x80 + c.toNat / 0x40 % 0x40 := by
        simp; omega
      have e2 : (0x80 + c.toNat % 0x40).toUInt8.toNat = 0x80 + c.toNat % 0x40 := by simp; omega
      have l : ∃ l, lead? (0xE0 + c.toNat / 0x1000).toUInt8 = some l ∧ l.tails = 2 ∧
          l.low ≤ 0x80 + c.toNat / 0x40 % 0x40 ∧ 0x80 + c.toNat / 0x40 % 0x40 ≤ l.high := by
        unfold lead?
        rw [e0]
        by_cases k : c.toNat / 0x1000 = 0
        · exact ⟨⟨2, 0xA0, 0xBF⟩, by simp [k], rfl, by simp; omega, by simp; omega⟩
        by_cases k' : c.toNat / 0x1000 = 13
        · exact ⟨⟨2, 0x80, 0x9F⟩, by simp [k'], rfl, by simp, by simp; omega⟩
        · refine ⟨⟨2, 0x80, 0xBF⟩, ?_, rfl, by simp, by simp; omega⟩
          simp only
          rw [if_neg (by omega), if_neg (by omega), if_neg (by omega), if_pos (by omega)]
      obtain ⟨l, hl, ht, hlo, hhi⟩ := l
      simp only [step, List.cons_append, List.nil_append, hl, e0, e1, e2, tailBits, isTail]
      rw [if_neg (by omega), if_neg (by simp; omega), if_neg (by omega), if_neg (by simp; omega),
        if_pos ht]
      rw [show (0xE0 + c.toNat / 0x1000 - 0xE0) * 0x1000 + (0x80 + c.toNat / 0x40 % 0x40) % 0x40 * 0x40 +
        (0x80 + c.toNat % 0x40) % 0x40 = c.toNat by omega, hc]
      rfl
  · refine ⟨(0xF0 + c.toNat / 0x40000).toUInt8,
      [(0x80 + c.toNat / 0x1000 % 0x40).toUInt8, (0x80 + c.toNat / 0x40 % 0x40).toUInt8,
        (0x80 + c.toNat % 0x40).toUInt8], ?_, ?_⟩
    · simp [encodeChar, h1, h2, h3]
    · have e0 : (0xF0 + c.toNat / 0x40000).toUInt8.toNat = 0xF0 + c.toNat / 0x40000 := by simp; omega
      have e1 : (0x80 + c.toNat / 0x1000 % 0x40).toUInt8.toNat = 0x80 + c.toNat / 0x1000 % 0x40 := by
        simp; omega
      have e2 : (0x80 + c.toNat / 0x40 % 0x40).toUInt8.toNat = 0x80 + c.toNat / 0x40 % 0x40 := by
        simp; omega
      have e3 : (0x80 + c.toNat % 0x40).toUInt8.toNat = 0x80 + c.toNat % 0x40 := by simp; omega
      have l : ∃ l, lead? (0xF0 + c.toNat / 0x40000).toUInt8 = some l ∧ l.tails = 3 ∧
          l.low ≤ 0x80 + c.toNat / 0x1000 % 0x40 ∧ 0x80 + c.toNat / 0x1000 % 0x40 ≤ l.high := by
        unfold lead?
        rw [e0]
        by_cases k : c.toNat / 0x40000 = 0
        · exact ⟨⟨3, 0x90, 0xBF⟩, by simp [k], rfl, by simp; omega, by simp; omega⟩
        by_cases k' : c.toNat / 0x40000 = 4
        · exact ⟨⟨3, 0x80, 0x8F⟩, by simp [k'], rfl, by simp, by simp; omega⟩
        · refine ⟨⟨3, 0x80, 0xBF⟩, ?_, rfl, by simp, by simp; omega⟩
          simp only
          rw [if_neg (by omega), if_neg (by omega), if_neg (by omega), if_neg (by omega),
            if_neg (by omega), if_pos (by omega)]
      obtain ⟨l, hl, ht, hlo, hhi⟩ := l
      simp only [step, List.cons_append, List.nil_append, hl, e0, e1, e2, e3, tailBits, isTail]
      rw [if_neg (by omega), if_neg (by simp; omega), if_neg (by omega), if_neg (by simp; omega),
        if_neg (by omega), if_neg (by simp; omega)]
      rw [show (0xF0 + c.toNat / 0x40000 - 0xF0) * 0x40000 +
        (0x80 + c.toNat / 0x1000 % 0x40) % 0x40 * 0x1000 + (0x80 + c.toNat / 0x40 % 0x40) % 0x40 * 0x40 +
        (0x80 + c.toNat % 0x40) % 0x40 = c.toNat by omega, hc]
      rfl

/-- Text comes back unchanged from its bytes. -/
theorem decode_encode (cs : List Char) : decode (encode cs) = cs.map some := by
  induction cs with
  | nil => simp [encode, decode]
  | cons c cs ih =>
    have ⟨b, tail, hb, hs⟩ := step_encodeChar c (encode cs)
    have he : encode (c :: cs) = b :: (tail ++ encode cs) := by simpa [encode] using hb
    rw [he, decode, hs]
    simp [ih]

theorem decode?_encode (s : String) : decode? (encode s.toList) = some s := by
  have hall : ∀ cs : List Char, (cs.map some).mapM id = some cs := by
    intro cs
    induction cs with
    | nil => rfl
    | cons c cs ih => simp [ih]
  rw [decode?, decode_encode, hall, Option.map_some, String.ofList_toList]

end CompilerDriver.Text.Utf8
