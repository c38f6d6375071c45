import KeyVault.Json.Codec
import KeyVault.Proofs.Json.Lexis

/-!
# Written whole numbers are read back

A number has no closing mark, so it is read back where the text behind it cannot go on with it: at
the end, or before a byte that belongs to no number.

## Main definitions

- `Json.Number.Stops` — a number that stands before a text does not go on in it
- `Json.Number.IsWhole` — the whole numbers that have a form of their own

## Main statements

- `Json.Number.read_writeInt` — a written whole number is read back
- `Json.readNat_digits` — and so is one that has to be at most a bound
-/

namespace KeyVault

namespace Json

namespace Number

open Bytes (ascii)
open Decimal (isDigit)

/-- Whether a byte goes on with a number that stands before it. -/
def continues (b : UInt8) : Bool := isDigit b || b == ascii '.' || isExponentMark b

/-- A number that stands before a text does not go on in it. -/
def Stops (rest : Bytes) : Prop := ∀ b ∈ rest.head?, continues b = false

/-- The whole numbers that are kept exactly: those of 64 bits, with sign or without. -/
def IsWhole (n : Int) : Prop := -0x8000000000000000 ≤ n ∧ n ≤ 0xffffffffffffffff

theorem stops_nil : Stops [] := by
  simp [Stops]

theorem stops_cons {b : UInt8} (h : continues b = false) (rest : Bytes) : Stops (b :: rest) := by
  simpa [Stops] using h

theorem Stops.head {b : UInt8} {rest : Bytes} (h : Stops (b :: rest)) :
    isDigit b = false ∧ b ≠ ascii '.' ∧ isExponentMark b = false := by
  have hb : continues b = false := h b rfl
  simpa [continues, and_assoc] using hb

/-! ### Digits -/

theorem takeWhile_digits {n : Nat} {rest : Bytes} (h : Stops rest) :
    (Decimal.digits n ++ rest).takeWhile isDigit = Decimal.digits n := by
  rw [List.takeWhile_append_of_pos fun b hb => Decimal.isDigit_of_mem_digits hb]
  cases rest with
  | nil => simp
  | cons b rest => simp [h.head.1]

theorem dropWhile_digits {n : Nat} {rest : Bytes} (h : Stops rest) :
    (Decimal.digits n ++ rest).dropWhile isDigit = rest := by
  rw [List.dropWhile_append_of_pos fun b hb => Decimal.isDigit_of_mem_digits hb]
  cases rest with
  | nil => rfl
  | cons b rest => simp [h.head.1]

/-- A number begins with a digit. -/
theorem exists_digits_eq_cons (n : Nat) :
    ∃ b tail, Decimal.digits n = b :: tail ∧ isDigit b = true := by
  obtain ⟨b, tail, h⟩ := List.exists_cons_of_ne_nil (Decimal.digits_ne_nil n)
  exact ⟨b, tail, h, Decimal.isDigit_of_mem_digits (h ▸ List.mem_cons_self)⟩

/-- Only zero begins with a zero. -/
theorem eq_zero_of_head?_digits {n : Nat} (h : (Decimal.digits n).head? = some (ascii '0')) :
    n = 0 := by
  induction n using Nat.strongRecOn with
  | _ n ih =>
    rw [Decimal.digits] at h
    split at h
    · rename_i hn
      have hdigit := Decimal.toNat_digit hn
      rw [List.head?_cons, Option.some.injEq] at h
      rw [h] at hdigit
      exact hdigit.symm
    · rename_i hn
      obtain ⟨b, tail, hdigits, -⟩ := exists_digits_eq_cons (n / 10)
      have hfront : (Decimal.digits (n / 10)).head? = some (ascii '0') := by
        rw [hdigits] at h ⊢
        exact h
      have hzero := ih (n / 10) (by omega) hfront
      omega

theorem readDigits_digits {n : Nat} {rest : Bytes} (h : Stops rest) :
    readDigits (Decimal.digits n ++ rest) = .ok (Decimal.digits n, rest) := by
  have htake := takeWhile_digits (n := n) h
  have hdrop := dropWhile_digits (n := n) h
  obtain ⟨b, tail, hdigits, hb⟩ := exists_digits_eq_cons n
  rw [hdigits, List.cons_append] at htake hdrop ⊢
  simp only [readDigits, hb, if_true, htake, hdrop]

theorem readWhole_digits {n : Nat} {rest : Bytes} (h : Stops rest) :
    readWhole (Decimal.digits n ++ rest) = .ok (Decimal.digits n, rest) := by
  have halone :
      ¬ ((Decimal.digits n).head? = some (ascii '0') ∧ (Decimal.digits n).length ≠ 1) := by
    rintro ⟨hzero, hlength⟩
    rw [eq_zero_of_head?_digits hzero] at hlength
    exact hlength (by rw [Decimal.digits]; rfl)
  simp only [readWhole, readDigits_digits h, bind, Except.bind, if_neg halone]
  rfl

/-! ### Whole numbers -/

theorem readUnsigned_digits {n : Nat} (hn : n ≤ greatestSignificand) (negative : Bool)
    {rest : Bytes} (h : Stops rest) :
    readUnsigned negative (Decimal.digits n ++ rest) = .ok (ofWhole negative n, rest) := by
  simp only [readUnsigned, readWhole_digits h, bind, Except.bind, Decimal.absorb_digits hn]
  cases rest with
  | nil => rfl
  | cons b rest =>
    obtain ⟨-, hpoint, hmark⟩ := h.head
    simp [hpoint, hmark, pure, Except.pure]

theorem read_digits {n : Nat} (hn : n ≤ greatestSignificand) {rest : Bytes} (h : Stops rest) :
    read (Decimal.digits n ++ rest) = .ok (whole n, rest) := by
  have hread := readUnsigned_digits hn false h
  obtain ⟨b, tail, hdigits, hb⟩ := exists_digits_eq_cons n
  have hsign : b ≠ ascii '-' := by
    rintro rfl
    exact absurd hb (by decide)
  rw [hdigits, List.cons_append] at hread ⊢
  simp only [read, if_neg hsign, hread, ofWhole]
  rfl

/-- A written whole number is read back. -/
theorem read_writeInt {n : Int} (hn : IsWhole n) {rest : Bytes} (h : Stops rest) :
    read (writeInt n ++ rest) = .ok (whole n, rest) := by
  obtain ⟨hlow, hhigh⟩ := hn
  have hbound : n.natAbs ≤ greatestSignificand := by
    simp only [greatestSignificand, UInt64.size]
    omega
  by_cases hneg : n < 0
  · have habs : 0 < n.natAbs ∧ n.natAbs ≤ 0x8000000000000000 := by omega
    simp only [writeInt, if_pos hneg, List.cons_append, read, if_true,
      readUnsigned_digits hbound true h, ofWhole, if_pos habs]
    rw [show -(n.natAbs : Int) = n by omega]
  · rw [writeInt, if_neg hneg, read_digits hbound h, show (n.natAbs : Int) = n by omega]

end Number

/-! ### Bounded whole numbers -/

theorem begins_digits (n : Nat) : Begins (Decimal.digits n) := by
  obtain ⟨b, tail, hdigits, hb⟩ := Number.exists_digits_eq_cons n
  rw [hdigits]
  exact begins_of_isDigit hb tail

/-- A written number within the bound is read back. -/
theorem readNat_digits {n bound : Nat} (hn : n ≤ bound)
    (hbound : bound ≤ Number.greatestSignificand) {rest : Bytes} (h : Number.Stops rest) :
    readNat bound (Decimal.digits n ++ rest) = .ok (n, rest) := by
  have hread := Number.read_digits (Nat.le_trans hn hbound) h
  have hskip := skipBlanks_of_begins ((begins_digits n).append rest)
  obtain ⟨b, tail, hdigits, hb⟩ := Number.exists_digits_eq_cons n
  have hbegins : beginsNumber b = true := by simp [beginsNumber, hb]
  rw [hdigits, List.cons_append] at hread hskip ⊢
  simp only [readNat, hskip, hbegins, if_true, hread, bind, Except.bind]
  exact if_pos hn

end Json

end KeyVault
