import KeyVault.Bytes

/-!
# Base64

The padded standard form of RFC 4648: three bytes are written as four characters, and one or two
last bytes are filled up with `=`.

## Main definitions

- `Base64.encode` — the text of a byte string
- `Base64.decode?` — the byte string of a text

## Design notes

Decoding takes only what encoding writes: padding is required, the bits that no byte uses are zero,
and no other character, blanks included, is skipped.
-/

namespace KeyVault

namespace Base64

/-- The character of a six-bit number. -/
def digit (n : Nat) : Char :=
  if n < 26 then Char.ofNat (65 + n)
  else if n < 52 then Char.ofNat (71 + n)
  else if n < 62 then Char.ofNat (n - 4)
  else if n = 62 then '+'
  else '/'

/-- The six-bit number of a character. -/
def value? (c : Char) : Option Nat :=
  if 65 ≤ c.toNat ∧ c.toNat ≤ 90 then some (c.toNat - 65)
  else if 97 ≤ c.toNat ∧ c.toNat ≤ 122 then some (c.toNat - 71)
  else if 48 ≤ c.toNat ∧ c.toNat ≤ 57 then some (c.toNat + 4)
  else if c = '+' then some 62
  else if c = '/' then some 63
  else none

/-- The characters of a byte string. -/
def encodeChars : Bytes → List Char
  | [] => []
  | [a] =>
    let n := a.toNat * 16
    [digit (n / 64), digit (n % 64), '=', '=']
  | [a, b] =>
    let n := (a.toNat * 256 + b.toNat) * 4
    [digit (n / 4096), digit (n / 64 % 64), digit (n % 64), '=']
  | a :: b :: c :: rest =>
    let n := (a.toNat * 256 + b.toNat) * 256 + c.toNat
    digit (n / 262144) :: digit (n / 4096 % 64) :: digit (n / 64 % 64) :: digit (n % 64)
      :: encodeChars rest

/-- The text of a byte string. -/
def encode (b : Bytes) : String := String.ofList (encodeChars b)

/-- The byte of a group that ends in two padding characters. -/
def oneByte? (w x : Char) : Option Bytes := do
  let n := (← value? w) * 64 + (← value? x)
  if n % 16 = 0 then some [(n / 16).toUInt8] else none

/-- The bytes of a group that ends in one padding character. -/
def twoBytes? (w x y : Char) : Option Bytes := do
  let n := ((← value? w) * 64 + (← value? x)) * 64 + (← value? y)
  if n % 4 = 0 then some [(n / 1024).toUInt8, (n / 4).toUInt8] else none

/-- The bytes of a full group. -/
def threeBytes? (w x y z : Char) : Option Bytes := do
  let n := (((← value? w) * 64 + (← value? x)) * 64 + (← value? y)) * 64 + (← value? z)
  some [(n / 65536).toUInt8, (n / 256).toUInt8, n.toUInt8]

/-- The byte string of a list of characters; padding may stand in the last group only. -/
def decodeChars? : List Char → Option Bytes
  | [] => some []
  | [w, x, '=', '='] => oneByte? w x
  | [w, x, y, '='] => twoBytes? w x y
  | w :: x :: y :: z :: rest => do
    let group ← threeBytes? w x y z
    let bytes ← decodeChars? rest
    some (group ++ bytes)
  | _ => none

/-- The byte string of a text. -/
def decode? (s : String) : Option Bytes := decodeChars? s.toList

end Base64

end KeyVault
