import KeyVault.Json.Value

/-!
# Types with a JSON form

## Main definitions

- `Json.Codec` — types whose values are written as JSON and read from it
- `Json.encode`, `Json.decode` — whole texts
- `Json.Codec` instances for truth values, strings, bounded whole numbers, lists, and any value

## Design notes

A reader gets the limits that hold where it stands, and skips blanks in front of its value. A whole
text may have blanks behind its value and nothing else.
-/

namespace KeyVault

namespace Json

open Bytes (ascii)

/-- Types whose values are written as JSON and read from it. -/
class Codec (α : Type) where
  /-- The compact text of a value. -/
  write : α → Bytes
  /-- The value at the front of a text. -/
  read : Limits → Bytes → Except Failure (α × Bytes)

/-! ### Whole texts -/

/-- The arrays and objects that may be open at once. -/
def greatestDepth : Nat := 127

/-- The text of a value. -/
def encode {α : Type} [Codec α] (value : α) : Bytes := Codec.write value

/-- The value of a text, with arrays and objects open to at most the given depth. -/
def decodeWithin {α : Type} [Codec α] (depth : Nat) (text : Bytes) : Except Failure α := do
  let (value, rest) ← Codec.read ⟨text.length + 1, depth⟩ text
  if skipBlanks rest = [] then return value else .error .malformed

/-- The value of a text. -/
def decode {α : Type} [Codec α] (text : Bytes) : Except Failure α := decodeWithin greatestDepth text

/-! ### Readers -/

/-- The truth value at the front of a text. -/
def readBool (s : Bytes) : Except Failure (Bool × Bytes) :=
  match skipBlanks s with
  | [] => .error .ended
  | b :: rest =>
    if b = ascii 't' then do return (true, ← literal (Bytes.ofString "rue") rest)
    else if b = ascii 'f' then do return (false, ← literal (Bytes.ofString "alse") rest)
    else .error (mismatch s)

/-- The string at the front of a text. -/
def readString (s : Bytes) : Except Failure (String × Bytes) :=
  match skipBlanks s with
  | [] => .error .ended
  | b :: rest => if b = ascii '"' then Text.read rest else .error (mismatch s)

/-- The null at the front of a text. -/
def readNull (s : Bytes) : Except Failure Bytes :=
  match skipBlanks s with
  | [] => .error .ended
  | b :: rest =>
    if b = ascii 'n' then literal (Bytes.ofString "ull") rest else .error (mismatch s)

/-- The whole number at the front of a text, from zero to the given bound. -/
def readNat (bound : Nat) (s : Bytes) : Except Failure (Nat × Bytes) :=
  match skipBlanks s with
  | [] => .error .ended
  | b :: rest =>
    if beginsNumber b then do
      match ← Number.read (b :: rest) with
      | (.whole (.ofNat n), rest) => if n ≤ bound then return (n, rest) else .error .mismatch
      | _ => .error .mismatch
    else .error (mismatch s)

/-- The array at the front of a text, with items read by `item` inside of it. -/
def readList {α : Type} (item : Limits → Bytes → Except Failure (α × Bytes)) (limits : Limits)
    (s : Bytes) : Except Failure (List α × Bytes) :=
  match skipBlanks s with
  | [] => .error .ended
  | b :: rest =>
    if b = ascii '[' then do
      let inner ← limits.enter
      readItems (item inner) limits.size true [] rest
    else .error (mismatch s)

/-! ### Instances -/

instance : Codec Bool where
  write := writeBool
  read _ := readBool

instance : Codec String where
  write := Text.write
  read _ := readString

instance : Codec UInt8 where
  write n := Decimal.digits n.toNat
  read _ s := do
    let (n, rest) ← readNat (UInt8.size - 1) s
    return (n.toUInt8, rest)

instance : Codec UInt32 where
  write n := Decimal.digits n.toNat
  read _ s := do
    let (n, rest) ← readNat (UInt32.size - 1) s
    return (n.toUInt32, rest)

instance : Codec UInt64 where
  write n := Decimal.digits n.toNat
  read _ s := do
    let (n, rest) ← readNat (UInt64.size - 1) s
    return (n.toUInt64, rest)

instance {α : Type} [Codec α] : Codec (List α) where
  write l := writeItems (l.map Codec.write)
  read := readList Codec.read

instance : Codec Value where
  write := Value.write
  read limits := Value.read limits.size limits.depth

end Json

end KeyVault
