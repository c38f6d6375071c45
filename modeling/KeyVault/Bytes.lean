/-!
# Byte strings

Byte strings as lists of octets, byte strings whose length is fixed by their type, the UTF-8 form
of a text, and numbers written with a fixed count of bytes.

## Main definitions

- `Bytes` — a byte string
- `Bytes.ofString`, `Bytes.toString?` — the UTF-8 form of a text, and the text of valid UTF-8
- `Bytes.littleEndian`, `Bytes.bigEndian` — the last bytes of a number, least or most significant
  first
- `Bytes.chunks` — consecutive pieces of one length
- `Octets` — byte strings of exactly `n` bytes

## Main statements

- `Bytes.toString?_ofString`, `Bytes.ofString_injective` — a text is read back from its bytes, which
  no other text has
- `Bytes.ofLittleEndian_littleEndian` — a number that fits is read back
- `Bytes.bigEndian_inj` — numbers that fit are told apart by their bytes
-/

namespace KeyVault

/-- A byte string. -/
abbrev Bytes := List UInt8

namespace Bytes

/-! ### Text -/

/-- The byte of an ASCII character. -/
def ascii (c : Char) : UInt8 := c.toNat.toUInt8

/-- The UTF-8 bytes of a text. -/
def ofString (s : String) : Bytes := s.toUTF8.data.toList

/-- The text whose UTF-8 form a byte string is, if it is valid UTF-8. -/
def toString? (b : Bytes) : Option String := String.fromUTF8? b.toByteArray

@[simp]
theorem toByteArray_ofString (s : String) : (ofString s).toByteArray = s.toByteArray := by
  ext1
  simp [ofString]

@[simp]
theorem toString?_ofString (s : String) : toString? (ofString s) = some s := by
  simp only [toString?, toByteArray_ofString, String.fromUTF8?, dif_pos s.isValidUTF8]
  rfl

theorem ofString_injective {s t : String} (h : ofString s = ofString t) : s = t := by
  have hs := toString?_ofString s
  rw [h, toString?_ofString] at hs
  exact (Option.some.inj hs).symm

theorem length_ofString (s : String) : (ofString s).length = s.utf8ByteSize := by
  rw [ofString, Array.length_toList, ← String.size_toByteArray]
  rfl

/-! ### Numbers -/

/-- The `width` lowest bytes of a number, least significant first. -/
def littleEndian : (width n : Nat) → Bytes
  | 0, _ => []
  | width + 1, n => n.toUInt8 :: littleEndian width (n / 256)

/-- The `width` lowest bytes of a number, most significant first. -/
def bigEndian (width n : Nat) : Bytes := (littleEndian width n).reverse

/-- The number whose bytes these are, least significant first. -/
def ofLittleEndian : Bytes → Nat
  | [] => 0
  | b :: r => b.toNat + 256 * ofLittleEndian r

/-- The number whose bytes these are, most significant first. -/
def ofBigEndian (b : Bytes) : Nat := ofLittleEndian b.reverse

@[simp]
theorem length_littleEndian (width n : Nat) : (littleEndian width n).length = width := by
  induction width generalizing n with
  | zero => rfl
  | succ width ih => simp [littleEndian, ih]

@[simp]
theorem length_bigEndian (width n : Nat) : (bigEndian width n).length = width := by
  simp [bigEndian]

/-- Writing keeps the number modulo the range of the width. -/
theorem ofLittleEndian_littleEndian (width n : Nat) :
    ofLittleEndian (littleEndian width n) = n % (1 <<< (8 * width)) := by
  induction width generalizing n with
  | zero => simp [littleEndian, ofLittleEndian, Nat.mod_one]
  | succ width ih =>
    have h : 1 <<< (8 * (width + 1)) = 256 * (1 <<< (8 * width)) := by
      rw [Nat.mul_succ, Nat.shiftLeft_add, Nat.shiftLeft_eq _ 8, Nat.mul_comm]
    rw [littleEndian, ofLittleEndian, ih, h, Nat.mod_mul]
    simp

theorem ofBigEndian_bigEndian (width n : Nat) :
    ofBigEndian (bigEndian width n) = n % (1 <<< (8 * width)) := by
  rw [ofBigEndian, bigEndian, List.reverse_reverse, ofLittleEndian_littleEndian]

/-- Numbers that fit are told apart by their bytes. -/
theorem bigEndian_inj {width n m : Nat} (hn : n < 1 <<< (8 * width)) (hm : m < 1 <<< (8 * width)) :
    bigEndian width n = bigEndian width m ↔ n = m := by
  constructor
  · intro h
    have hread := congrArg ofBigEndian h
    rwa [ofBigEndian_bigEndian, ofBigEndian_bigEndian, Nat.mod_eq_of_lt hn,
      Nat.mod_eq_of_lt hm] at hread
  · exact congrArg (bigEndian width)

/-! ### Pieces -/

/-- Consecutive pieces of `n` bytes, the last one possibly shorter. -/
def chunks (n : Nat) (b : Bytes) : List Bytes :=
  if n = 0 ∨ b = [] then []
  else b.take n :: chunks n (b.drop n)
termination_by b.length
decreasing_by
  obtain ⟨hn, hb⟩ := not_or.1 ‹¬(n = 0 ∨ b = [])›
  have := List.length_pos_iff.2 hb
  simp only [List.length_drop]
  omega

/-- Zero bytes that fill a byte string up to a multiple of `n`. -/
def fillTo (n : Nat) (b : Bytes) : Bytes := List.replicate ((n - b.length % n) % n) 0

/-- The exclusive or of two byte strings, as long as the shorter one. -/
def xor (a b : Bytes) : Bytes := List.zipWith (· ^^^ ·) a b

/-- Combining twice with bytes that are long enough changes nothing. -/
theorem xor_xor {a k : Bytes} (h : a.length ≤ k.length) : (a.xor k).xor k = a := by
  induction a generalizing k with
  | nil => rfl
  | cons x a ih =>
    cases k with
    | nil => simp at h
    | cons y k =>
      simp only [xor, List.zipWith_cons_cons, UInt8.xor_assoc, UInt8.xor_self, UInt8.xor_zero,
        List.cons.injEq, true_and]
      exact ih (by simpa using h)

/-- Pieces of one length make up a byte string of that multiple. -/
theorem length_flatMap_of_length_eq {α : Type} {f : α → Bytes} {n : Nat}
    (h : ∀ x, (f x).length = n) (l : List α) : (l.flatMap f).length = n * l.length := by
  induction l with
  | nil => rfl
  | cons x l ih => rw [List.flatMap_cons, List.length_append, ih, h, List.length_cons]; grind

end Bytes

/-- Byte strings of exactly `n` bytes. -/
structure Octets (n : Nat) where
  /-- The bytes. -/
  bytes : Bytes
  /-- There are `n` of them. -/
  length_bytes : bytes.length = n
  deriving DecidableEq

namespace Octets

attribute [simp] length_bytes

theorem ext_bytes {n : Nat} {a b : Octets n} (h : a.bytes = b.bytes) : a = b := by
  cases a
  cases b
  simpa using h

/-- A byte string as one of a fixed length, if it has that length. -/
def ofBytes? (n : Nat) (b : Bytes) : Option (Octets n) :=
  if h : b.length = n then some ⟨b, h⟩ else none

@[simp]
theorem ofBytes?_bytes {n : Nat} (a : Octets n) : ofBytes? n a.bytes = some a := by
  simp [ofBytes?]

theorem ofBytes?_eq_some_iff {n : Nat} {b : Bytes} {a : Octets n} :
    ofBytes? n b = some a ↔ b = a.bytes := by
  refine ⟨fun h => ?_, fun h => h ▸ ofBytes?_bytes a⟩
  simp only [ofBytes?] at h
  split at h
  · exact (congrArg bytes (Option.some.inj h))
  · cases h

/-- The byte string of `n` zeros. -/
def zero (n : Nat) : Octets n := ⟨List.replicate n 0, by simp⟩

end Octets

end KeyVault
