import KeyVault.Bytes

/-!
# Decimal digits

Whole numbers as ASCII digits, and powers of ten.

## Main definitions

- `Decimal.digits` — the digits of a number, without leading zeros
- `Decimal.absorb` — appends digits to a number as long as it stays within a limit

## Main statements

- `Decimal.absorb_digits` — the digits of a number within the limit are read back
-/

namespace KeyVault

namespace Decimal

/-- Whether a byte is a digit. -/
def isDigit (b : UInt8) : Bool := 0x30 ≤ b && b ≤ 0x39

/-- The number `10 ^ power`. -/
def powerOfTen (power : Nat) : Nat := Nat.pow 10 power

/-- The digit of a number below ten. -/
def digit (n : Nat) : UInt8 := (48 + n).toUInt8

/-- The digits of a number, without leading zeros. -/
def digits (n : Nat) : Bytes :=
  if n < 10 then [digit n] else digits (n / 10) ++ [digit (n % 10)]

/-- Appends digits to a number as long as it stays within the limit; the digits that are left begin
with the first one that would exceed it. -/
def absorb (limit : Nat) : (n : Nat) → (digits : Bytes) → Nat × Bytes
  | n, [] => (n, [])
  | n, b :: rest =>
    let next := 10 * n + (b.toNat - 48)
    if next ≤ limit then absorb limit next rest else (n, b :: rest)

theorem isDigit_digit {n : Nat} (h : n < 10) : isDigit (digit n) = true := by
  revert n
  decide

theorem toNat_digit {n : Nat} (h : n < 10) : (digit n).toNat - 48 = n := by
  revert n
  decide

theorem digits_ne_nil (n : Nat) : digits n ≠ [] := by
  rw [digits]
  split <;> simp

/-- All of them are digits. -/
theorem isDigit_of_mem_digits {n : Nat} {b : UInt8} (h : b ∈ digits n) : isDigit b = true := by
  induction n using Nat.strongRecOn with
  | _ n ih =>
    rw [digits] at h
    split at h
    · rename_i hn
      rw [List.mem_singleton] at h
      exact h ▸ isDigit_digit hn
    · rcases List.mem_append.1 h with h | h
      · exact ih (n / 10) (by omega) h
      · rw [List.mem_singleton] at h
        exact h ▸ isDigit_digit (Nat.mod_lt n (by decide))

theorem absorb_append {limit n : Nat} {a b : Bytes} {m : Nat}
    (h : absorb limit n a = (m, [])) : absorb limit n (a ++ b) = absorb limit m b := by
  induction a generalizing n with
  | nil =>
    obtain ⟨rfl, -⟩ := Prod.mk.inj h
    rfl
  | cons x a ih =>
    simp only [absorb] at h
    split at h
    · rename_i hx
      simp only [List.cons_append, absorb, if_pos hx]
      exact ih h
    · cases h

/-- The digits of a number within the limit are read back. -/
theorem absorb_digits {limit n : Nat} (h : n ≤ limit) : absorb limit 0 (digits n) = (n, []) := by
  induction n using Nat.strongRecOn with
  | _ n ih =>
    rw [digits]
    split
    · rename_i hn
      simp [absorb, toNat_digit hn, h]
    · rw [absorb_append (ih (n / 10) (by omega) (by omega))]
      have hd := toNat_digit (Nat.mod_lt n (by decide : 0 < 10))
      have hn : 10 * (n / 10) + n % 10 = n := by omega
      simp [absorb, hd, hn, h]

end Decimal

end KeyVault
