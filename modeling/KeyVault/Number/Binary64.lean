import KeyVault.Number.Decimal

/-!
# Binary floating-point numbers of 64 bits

The finite numbers of the format as exact dyadic values, rounding of a ratio to the nearest one,
and the scaling of a whole number by a power of ten.

## Main definitions

- `Magnitude`, `Binary64` — a nonnegative value, and a value with a sign
- `Magnitude.ofRatio?` — the nearest magnitude to a ratio, ties to the even significand
- `Magnitude.scale?` — a whole number times a power of ten, with one rounding for the number, one
  for the power, and one for each product or quotient

## Design notes

All arithmetic is that of natural numbers. A magnitude is normal when its significand is below
`2 ^ 53`, and at least `2 ^ 52` unless its exponent is the least one, -1074; rounding gives only
normal ones.
-/

namespace KeyVault

/-- The value `significand * 2 ^ exponent`. -/
structure Magnitude where
  significand : Nat
  exponent : Int
  deriving DecidableEq, Repr

/-- A finite floating-point number; zero has a sign too. -/
structure Binary64 where
  negative : Bool
  magnitude : Magnitude
  deriving DecidableEq, Repr

namespace Magnitude

/-- The significand `2 ^ 52`: that of a normal magnitude is at least this, and less than twice. -/
def leastNormal : Nat := 0x10000000000000

/-- The numerator of a ratio after division by `2 ^ e`. -/
def shiftNumerator (num : Nat) (e : Int) : Nat := num <<< (-e).toNat

/-- The denominator of a ratio after division by `2 ^ e`. -/
def shiftDenominator (den : Nat) (e : Int) : Nat := den <<< e.toNat

/-- The quotient of two numbers, rounded to the nearest number, ties to the even one. -/
def roundDiv (num den : Nat) : Nat :=
  let quotient := num / den
  let twice := 2 * (num % den)
  if twice < den ∨ (twice = den ∧ quotient % 2 = 0) then quotient else quotient + 1

/-- The nearest magnitude to a ratio, or none if it is beyond the greatest one. -/
def ofRatio? (num den : Nat) : Option Magnitude :=
  if num = 0 then some ⟨0, -1074⟩
  else
    -- The bit lengths tell the exponent up to one; the quotient decides.
    let guess : Int := max ((num.log2 : Int) - (den.log2 : Int) - 53) (-1074)
    let small := shiftNumerator num guess / shiftDenominator den guess < 2 * leastNormal
    let exponent := if small then guess else guess + 1
    let significand := roundDiv (shiftNumerator num exponent) (shiftDenominator den exponent)
    let rounded : Magnitude :=
      if significand < 2 * leastNormal then ⟨significand, exponent⟩
      else ⟨leastNormal, exponent + 1⟩
    if rounded.exponent ≤ 971 then some rounded else none

/-- The numerator of a magnitude. -/
def num (m : Magnitude) : Nat := m.significand <<< m.exponent.toNat

/-- The denominator of a magnitude. -/
def den (m : Magnitude) : Nat := 1 <<< (-m.exponent).toNat

/-- The rounded product. -/
def mul? (a b : Magnitude) : Option Magnitude := ofRatio? (a.num * b.num) (a.den * b.den)

/-- The rounded quotient. -/
def div? (a b : Magnitude) : Option Magnitude := ofRatio? (a.num * b.den) (a.den * b.num)

/-- The greatest power of ten below the greatest magnitude is the one with this exponent. -/
def greatestPower : Nat := 308

/-- Divides by a power of ten, in steps by the greatest one. -/
def shrink? (m : Magnitude) (power : Nat) : Option Magnitude := do
  if power ≤ greatestPower then
    m.div? (← ofRatio? (Decimal.powerOfTen power) 1)
  else if m.significand = 0 then some m
  else shrink? (← m.div? (← ofRatio? (Decimal.powerOfTen greatestPower) 1)) (power - greatestPower)
termination_by power
decreasing_by
  simp only [greatestPower] at *
  omega

/-- A whole number times a power of ten, or none if it is beyond the greatest magnitude. -/
def scale? (whole : Nat) (power : Int) : Option Magnitude := do
  let m ← ofRatio? whole 1
  if power < 0 then m.shrink? (-power).toNat
  else if power.toNat ≤ greatestPower then m.mul? (← ofRatio? (Decimal.powerOfTen power.toNat) 1)
  else if m.significand = 0 then some m
  else none

end Magnitude

end KeyVault
