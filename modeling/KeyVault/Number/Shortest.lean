import KeyVault.Number.Binary64

/-!
# Shortest decimal digits

The shortest decimal that rounds to a given floating-point number, and of several the nearest one.

## Main definitions

- `Magnitude.rounds` — whether a ratio rounds to a magnitude
- `Magnitude.shortest?` — digits and a power of ten

## Design notes

A decimal with fewer digits lies on a coarser grid of multiples of a power of ten. The grids are
tried from the coarsest on; on each, only the two neighbours of the value can round to it.
-/

namespace KeyVault

namespace Magnitude

/-- Whether `point / unit` rounds to the magnitude: it lies between the midpoints to the two
neighbours, or on one of them if the significand is even. -/
def rounds (m : Magnitude) (point unit : Nat) : Bool :=
  let half : Int := m.exponent - 2
  -- In quarters of a unit: the lower neighbour of a power of two is only half as far away.
  let below := if m.significand = leastNormal ∧ m.exponent ≠ -1074 then 1 else 2
  let low := (4 * m.significand - below) * unit <<< half.toNat
  let high := (4 * m.significand + 2) * unit <<< half.toNat
  let place := point <<< (-half).toNat
  if m.significand % 2 = 0 then low ≤ place && place ≤ high else low < place && place < high

/-- The multiple of `10 ^ power` that is nearest to the magnitude among those that round to it,
counted in units of that power; a tie goes to the even count. -/
def onGrid? (m : Magnitude) (power : Int) : Option Nat :=
  let up := Decimal.powerOfTen power.toNat
  let down := Decimal.powerOfTen (-power).toNat
  let count := m.num * down / (m.den * up)
  let rest := 2 * (m.num * down % (m.den * up))
  let low := m.rounds (count * up) down
  let high := m.rounds ((count + 1) * up) down
  let nearLow := rest < m.den * up || (rest == m.den * up && count % 2 == 0)
  if low && (nearLow || !high) then some count
  else if high then some (count + 1)
  else none

/-- The shortest digits of a nonzero magnitude, as a count of units of a power of ten. -/
def shortest? (m : Magnitude) : Option (Nat × Int) :=
  (List.range 640).findSome? fun (i : Nat) =>
    (m.onGrid? (309 - i)).map fun count => (count, 309 - i)

end Magnitude

end KeyVault
