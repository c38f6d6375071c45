import KeyVault.Bytes

/-!
# The lexis of JSON

What the readers of all values share: why a text is refused, blanks, literals, and the punctuation
of arrays and objects.

## Main definitions

- `Json.Failure` — the three kinds of refusal
- `Json.Limits` — how much a reader may still read
- `Json.skipBlanks`, `Json.expect`, `Json.literal` — blanks and fixed bytes
- `Json.Turn`, `Json.nextItem`, `Json.nextMember` — what stands next between two brackets

## Design notes

Reading is streaming: every function takes the text that is left and gives the text that is left
after it, and the first problem decides the failure.
-/

namespace KeyVault

namespace Json

/-- Why a text is refused. -/
inductive Failure
  /-- It ends before its value does. -/
  | ended
  /-- It is not JSON, nests too deep, or goes on after its value. -/
  | malformed
  /-- It is JSON, but not a value of the wanted shape. -/
  | mismatch
  deriving DecidableEq, Repr

/-- The name of a kind of refusal. -/
def Failure.category : Failure → String
  | ended => "eof"
  | malformed => "syntax"
  | mismatch => "data"

/-- How much a reader may still read. -/
structure Limits where
  /-- More than the bytes that are left: no list can have as many members. -/
  size : Nat
  /-- Arrays and objects that may still be opened, one inside the other. -/
  depth : Nat

/-- The limits inside one more array or object. -/
def Limits.enter (l : Limits) : Except Failure Limits :=
  match l.depth with
  | 0 => .error .malformed
  | depth + 1 => .ok ⟨l.size, depth⟩

/-! ### Fixed bytes -/

/-- The bytes that may stand between tokens. -/
def isBlank (b : UInt8) : Bool := b == 0x20 || b == 0x0a || b == 0x09 || b == 0x0d

/-- The text from its first byte that is not blank. -/
def skipBlanks (s : Bytes) : Bytes := s.dropWhile isBlank

/-- The text after the byte `wanted`, which may have blanks before it. -/
def expect (wanted : UInt8) (s : Bytes) : Except Failure Bytes :=
  match skipBlanks s with
  | [] => .error .ended
  | b :: rest => if b = wanted then .ok rest else .error .malformed

/-- The text after a word, byte by byte. -/
def literal : (word s : Bytes) → Except Failure Bytes
  | [], s => .ok s
  | _ :: _, [] => .error .ended
  | w :: word, b :: s => if b = w then literal word s else .error .malformed

/-! ### Punctuation -/

/-- What stands next between two brackets. -/
inductive Turn
  /-- The closing bracket; the text after it. -/
  | close (rest : Bytes)
  /-- One more item or member; the text from it on. -/
  | more (rest : Bytes)

/-- What stands next in an array: its end, or an item, behind a comma unless it is the first. A
comma before the end is refused. -/
def nextItem (first : Bool) (s : Bytes) : Except Failure Turn :=
  match skipBlanks s with
  | [] => .error .ended
  | b :: rest =>
    if b = Bytes.ascii ']' then .ok (.close rest)
    else if first then .ok (.more (b :: rest))
    else if b = Bytes.ascii ',' then
      match skipBlanks rest with
      | [] => .error .ended
      | c :: item => if c = Bytes.ascii ']' then .error .malformed else .ok (.more (c :: item))
    else .error .malformed

/-- What stands next in an object: its end, or the key of a member after its opening quote. -/
def nextMember (first : Bool) (s : Bytes) : Except Failure Turn :=
  match skipBlanks s with
  | [] => .error .ended
  | b :: rest =>
    if b = Bytes.ascii '\x7d' then .ok (.close rest)
    else if first then
      if b = Bytes.ascii '"' then .ok (.more rest) else .error .malformed
    else if b = Bytes.ascii ',' then do
      let key ← expect (Bytes.ascii '"') rest
      return .more key
    else .error .malformed

end Json

end KeyVault
