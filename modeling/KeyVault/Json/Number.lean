import KeyVault.Json.Lexis
import KeyVault.Number.Decimal
import KeyVault.Number.Shortest

/-!
# JSON numbers

## Main definitions

- `Json.Number` — a whole number of 64 bits, or a floating-point number
- `Json.Number.write`, `Json.Number.read` — its text
- `Json.Number.skip` — the text behind a number that nobody looks at

## Design notes

A number without point and exponent is whole if it fits: from `-2 ^ 63` to `2 ^ 64 - 1`. Minus zero
and all other numbers are floating-point. Digits that do not fit into 64 bits are dropped; those of
the whole part still count as powers of ten.

A floating-point number is written with its shortest digits: positionally, with `.0` if it is whole,
where its point stands at most five places before and sixteen behind the first digit, and else with
one digit before the point and an exponent with its sign.
-/

namespace KeyVault

namespace Json

open Bytes (ascii)
open Decimal (isDigit)

inductive Number
  | whole (n : Int)
  | float (x : Binary64)
  deriving DecidableEq, Repr

namespace Number

/-! ### Writing -/

def writeInt (n : Int) : Bytes :=
  if n < 0 then ascii '-' :: Decimal.digits n.natAbs else Decimal.digits n.natAbs

/-- An exponent, which always has its sign. -/
def writeExponent (n : Int) : Bytes := if n < 0 then writeInt n else ascii '+' :: writeInt n

/-- A positive magnitude of the given digits and power of ten. -/
def writeDigits (digits : Bytes) (power : Int) : Bytes :=
  let point : Int := digits.length + power
  if 0 ≤ power ∧ point ≤ 16 then
    digits ++ List.replicate power.toNat (ascii '0') ++ [ascii '.', ascii '0']
  else if 0 < point ∧ point ≤ 16 then
    digits.take point.toNat ++ ascii '.' :: digits.drop point.toNat
  else if -5 < point ∧ point ≤ 0 then
    [ascii '0', ascii '.'] ++ List.replicate (-point).toNat (ascii '0') ++ digits
  else
    let mantissa :=
      if digits.length ≤ 1 then digits else digits.take 1 ++ ascii '.' :: digits.drop 1
    mantissa ++ ascii 'e' :: writeExponent (point - 1)

def writeMagnitude (m : Magnitude) : Bytes :=
  if m.significand = 0 then [ascii '0', ascii '.', ascii '0']
  else
    match m.shortest? with
    | some (count, power) => writeDigits (Decimal.digits count) power
    | none => []

def write : Number → Bytes
  | whole n => writeInt n
  | float x => (if x.negative then [ascii '-'] else []) ++ writeMagnitude x.magnitude

/-! ### Reading -/

/-- The digits at the front of a text, which must have one. -/
def readDigits (s : Bytes) : Except Failure (Bytes × Bytes) :=
  match s with
  | [] => .error .ended
  | b :: _ =>
    if isDigit b then .ok (s.takeWhile isDigit, s.dropWhile isDigit) else .error .malformed

/-- The digits of the whole part: a zero stands alone. -/
def readWhole (s : Bytes) : Except Failure (Bytes × Bytes) := do
  let (digits, rest) ← readDigits s
  if digits.head? = some (ascii '0') ∧ digits.length ≠ 1 then .error .malformed
  else return (digits, rest)

/-- The sign and the digits of an exponent, after its letter. -/
def readExponent (s : Bytes) : Except Failure ((Bool × Bytes) × Bytes) :=
  match s with
  | [] => .error .ended
  | b :: rest => do
    let digits := if b = ascii '+' ∨ b = ascii '-' then rest else s
    let (digits, rest) ← readDigits digits
    return ((b = ascii '-', digits), rest)

def greatestSignificand : Nat := UInt64.size - 1

def greatestExponent : Nat := 0x7fffffff

/-- A floating-point number from its significand, the power of ten that the digits ask for, and an
exponent; an exponent that is too great gives zero, or nothing if the number would grow. -/
def assemble (negative : Bool) (significand : Nat) (power : Int) (exponent : Bool × Bytes) :
    Except Failure Number :=
  let (down, digits) := exponent
  match Decimal.absorb greatestExponent 0 digits with
  | (e, []) =>
    match Magnitude.scale? significand (if down then power - e else power + e) with
    | some m => .ok (.float ⟨negative, m⟩)
    | none => .error .malformed
  | (_, _ :: _) =>
    if significand = 0 ∨ down then .ok (.float ⟨negative, ⟨0, -1074⟩⟩) else .error .malformed

/-- A number without point and exponent. -/
def ofWhole (negative : Bool) (significand : Nat) : Number :=
  if negative then
    -- Minus zero and what lies below `-2 ^ 63` have no whole form.
    if 0 < significand ∧ significand ≤ 0x8000000000000000 then .whole (-(significand : Int))
    else
      match Magnitude.scale? significand 0 with
      | some m => .float ⟨true, m⟩
      | none => .whole 0
  else .whole significand

def isExponentMark (b : UInt8) : Bool := b == ascii 'e' || b == ascii 'E'

/-- The optional exponent behind a whole part and a fraction. -/
def readScaled (negative : Bool) (significand : Nat) (power : Int) (s : Bytes) :
    Except Failure (Number × Bytes) :=
  match s with
  | [] => do
    return (← assemble negative significand power (false, []), [])
  | b :: rest =>
    if isExponentMark b then do
      let (exponent, rest) ← readExponent rest
      return (← assemble negative significand power exponent, rest)
    else do
      return (← assemble negative significand power (false, []), s)

/-- A number after its sign. -/
def readUnsigned (negative : Bool) (s : Bytes) : Except Failure (Number × Bytes) := do
  let (digits, rest) ← readWhole s
  let (significand, dropped) := Decimal.absorb greatestSignificand 0 digits
  match rest with
  | [] =>
    if dropped = [] then return (ofWhole negative significand, [])
    else readScaled negative significand dropped.length []
  | b :: behind =>
    if b = ascii '.' then
      let (fraction, rest) ← readDigits behind
      let (significand, ignored) := Decimal.absorb greatestSignificand significand fraction
      -- A digit that is dropped from the fraction moves no point, unlike one of the whole part.
      let power : Int := dropped.length - (fraction.length - ignored.length)
      readScaled negative significand power rest
    else if isExponentMark b ∨ dropped ≠ [] then
      readScaled negative significand dropped.length rest
    else return (ofWhole negative significand, rest)

def read (s : Bytes) : Except Failure (Number × Bytes) :=
  match s with
  | [] => .error .ended
  | b :: rest => if b = ascii '-' then readUnsigned true rest else readUnsigned false s

/-! ### Skipping -/

/-- A digit that is missing is malformed here even where the text ends. -/
def skipDigits (s : Bytes) : Except Failure Bytes :=
  match s with
  | [] => .error .malformed
  | b :: _ => if isDigit b then .ok (s.dropWhile isDigit) else .error .malformed

/-- The text behind an optional exponent. -/
def skipExponent (s : Bytes) : Except Failure Bytes :=
  match s with
  | [] => .ok []
  | b :: rest =>
    if isExponentMark b then
      match rest with
      | [] => .error .malformed
      | c :: digits => skipDigits (if c = ascii '+' ∨ c = ascii '-' then digits else rest)
    else .ok s

/-- The text behind a number after its sign. -/
def skipUnsigned (s : Bytes) : Except Failure Bytes := do
  let digits := s.takeWhile isDigit
  if digits = [] ∨ (digits.head? = some (ascii '0') ∧ digits.length ≠ 1) then .error .malformed
  else
    match s.dropWhile isDigit with
    | [] => return []
    | b :: rest =>
      if b = ascii '.' then skipExponent (← skipDigits rest) else skipExponent (b :: rest)

def skip (s : Bytes) : Except Failure Bytes :=
  match s with
  | [] => .error .malformed
  | b :: rest => if b = ascii '-' then skipUnsigned rest else skipUnsigned s

end Number

end Json

end KeyVault
