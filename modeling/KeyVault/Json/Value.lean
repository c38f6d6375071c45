import KeyVault.Json.Brackets
import KeyVault.NameMap
import KeyVault.Text.Debug

/-!
# JSON values

Any JSON value: its type, its text, and its reader.

## Main definitions

- `Json.Value` — null, truth values, numbers, strings, arrays and objects
- `Json.Value.write` — the compact text of a value
- `Json.Value.read` — the value at the front of a text
- `Json.mismatch` — the failure of a text whose value is of another shape than the wanted one
- `Debug Json.Value` — the debug text of a value, which names its kind

## Design notes

An object holds its members in the order of their keys, each key once: reading keeps the last member
of a repeated key. Reading recurses on the number of brackets that may still be opened.
-/

namespace KeyVault

namespace Json

open Bytes (ascii)

/-- A JSON value. -/
inductive Value
  | null
  | bool (b : Bool)
  | number (n : Number)
  | string (s : String)
  | array (items : List Value)
  | object (members : List (String × Value))

/-! ### Scalars -/

/-- The text of a truth value. -/
def writeBool (b : Bool) : Bytes := Bytes.ofString (if b then "true" else "false")

/-- Whether a byte can begin a number. -/
def beginsNumber (b : UInt8) : Bool := b == ascii '-' || Decimal.isDigit b

/-- The failure of a text whose value is of another shape than the wanted one: that of the value
itself if it is a scalar that cannot be read, and a mismatch otherwise. -/
def mismatch (s : Bytes) : Failure :=
  let scalar {α : Type} (reading : Except Failure α) : Failure :=
    match reading with
    | .error e => e
    | .ok _ => .mismatch
  match skipBlanks s with
  | [] => .ended
  | b :: rest =>
    if b = ascii '[' ∨ b = ascii '\x7b' then .mismatch
    else if b = ascii '"' then scalar (Text.read rest)
    else if beginsNumber b then scalar (Number.read (b :: rest))
    else if b = ascii 'n' then scalar (literal (Bytes.ofString "ull") rest)
    else if b = ascii 't' then scalar (literal (Bytes.ofString "rue") rest)
    else if b = ascii 'f' then scalar (literal (Bytes.ofString "alse") rest)
    else .malformed

namespace Value

/-! ### Writing -/

mutual

/-- The compact text of a value. -/
def write : Value → Bytes
  | null => Bytes.ofString "null"
  | bool b => writeBool b
  | number n => n.write
  | string s => Text.write s
  | array items => writeItems (writeEach items)
  | object members => writeMembers (writeMemberEach members)

/-- The text of each item. -/
def writeEach : List Value → List Bytes
  | [] => []
  | v :: items => write v :: writeEach items

/-- The text of each member's value. -/
def writeMemberEach : List (String × Value) → List (String × Bytes)
  | [] => []
  | (name, v) :: members => (name, write v) :: writeMemberEach members

end

/-! ### Reading -/

/-- The value at the front of a text. -/
def read (size : Nat) : (depth : Nat) → (s : Bytes) → Except Failure (Value × Bytes)
  | depth, s => do
    match skipBlanks s with
    | [] => .error .ended
    | b :: rest =>
      if b = ascii '"' then
        let (text, rest) ← Text.read rest
        return (string text, rest)
      else if beginsNumber b then
        let (n, rest) ← Number.read (b :: rest)
        return (number n, rest)
      else if b = ascii '[' then
        match depth with
        | 0 => .error .malformed
        | depth + 1 =>
          let (items, rest) ← readItems (read size depth) size true [] rest
          return (array items, rest)
      else if b = ascii '\x7b' then
        match depth with
        | 0 => .error .malformed
        | depth + 1 =>
          let member (members : List (String × Value)) (name : String) (s : Bytes) := do
            let (v, rest) ← read size depth (← expect (ascii ':') s)
            return (Members.insert name v members, rest)
          let (members, rest) ← readMembers member size true [] rest
          return (object members, rest)
      else if b = ascii 'n' then return (null, ← literal (Bytes.ofString "ull") rest)
      else if b = ascii 't' then return (bool true, ← literal (Bytes.ofString "rue") rest)
      else if b = ascii 'f' then return (bool false, ← literal (Bytes.ofString "alse") rest)
      else .error .malformed
termination_by structural depth => depth

/-! ### Debug texts -/

mutual

/-- The debug text of a value. -/
def debug : Value → String
  | null => "Null"
  | bool b => "Bool(" ++ Debug.debug b ++ ")"
  | number n => "Number(" ++ (n.write.toString?).getD "" ++ ")"
  | string s => "String(" ++ Debug.quoted s ++ ")"
  | array items => "Array " ++ Debug.listOf (debugEach items)
  | object members => "Object " ++ Debug.setOf (debugMemberEach members)

/-- The debug text of each item. -/
def debugEach : List Value → List String
  | [] => []
  | v :: items => debug v :: debugEach items

/-- The debug text of each member. -/
def debugMemberEach : List (String × Value) → List String
  | [] => []
  | (name, v) :: members => Debug.field (Debug.quoted name, debug v) :: debugMemberEach members

end

instance : Debug Value := ⟨debug⟩

end Value

end Json

end KeyVault
