import KeyVault.Json.Number
import KeyVault.Json.Text

/-!
# JSON arrays, objects and skipped values

The readers of what stands between brackets, whatever the items and members are, and the reader of
a value that nobody looks at.

## Main definitions

- `Json.readItems` — the items of an array
- `Json.readMembers` — the members of an object, folded into a state
- `Json.writeItems` — items between square brackets
- `Json.skip` — the text behind any value

## Design notes

A skipped value keeps the brackets that are open in a list and not in nested calls: it may nest to
any depth. Each round of a loop reads at least one byte, so the size of the text bounds the rounds.
-/

namespace KeyVault

namespace Json

open Bytes (ascii)

/-! ### Items and members -/

/-- The items of an array after its opening bracket; `read` holds those so far, last one first. -/
def readItems {α : Type} (item : Bytes → Except Failure (α × Bytes)) :
    (size : Nat) → (first : Bool) → (read : List α) → (s : Bytes) → Except Failure (List α × Bytes)
  | 0, _, _, _ => .error .ended
  | size + 1, first, read, s => do
    match ← nextItem first s with
    | .close rest => return (read.reverse, rest)
    | .more rest =>
      let (value, rest) ← item rest
      readItems item size false (value :: read) rest

/-- The members of an object after its opening bracket. Each is read by `member` from behind its
key on, colon included. -/
def readMembers {σ : Type} (member : σ → String → Bytes → Except Failure (σ × Bytes)) :
    (size : Nat) → (first : Bool) → (state : σ) → (s : Bytes) → Except Failure (σ × Bytes)
  | 0, _, _, _ => .error .ended
  | size + 1, first, state, s => do
    match ← nextMember first s with
    | .close rest => return (state, rest)
    | .more key =>
      let (name, rest) ← Text.read key
      let (state, rest) ← member state name rest
      readMembers member size false state rest

/-- Written items behind one another, with commas between them. -/
def commaSeparated : List Bytes → Bytes
  | [] => []
  | item :: items => item ++ items.flatMap fun i => ascii ',' :: i

/-- Written items as an array. -/
def writeItems (items : List Bytes) : Bytes := ascii '[' :: commaSeparated items ++ [ascii ']']

/-- Written members as an object. -/
def writeMembers (members : List (String × Bytes)) : Bytes :=
  let member (m : String × Bytes) := Text.write m.1 ++ ascii ':' :: m.2
  ascii '\x7b' :: commaSeparated (members.map member) ++ [ascii '\x7d']

/-! ### Skipped values -/

/-- The two kinds of brackets. -/
inductive Bracket
  | array
  | object
  deriving DecidableEq

/-- The front of a value. -/
inductive Front
  | whole (rest : Bytes)
  | opened (bracket : Bracket) (rest : Bytes)

/-- Reads a value that is no array or object, or else an opening bracket. -/
def skipFront (s : Bytes) : Except Failure Front :=
  match skipBlanks s with
  | [] => .error .ended
  | b :: rest =>
    if b = ascii '[' then .ok (.opened .array rest)
    else if b = ascii '\x7b' then .ok (.opened .object rest)
    else if b = ascii '"' then do return .whole (← Text.skip rest)
    else if b = ascii '-' ∨ Decimal.isDigit b then do return .whole (← Number.skip (b :: rest))
    else if b = ascii 'n' then do return .whole (← literal (Bytes.ofString "ull") rest)
    else if b = ascii 't' then do return .whole (← literal (Bytes.ofString "rue") rest)
    else if b = ascii 'f' then do return .whole (← literal (Bytes.ofString "alse") rest)
    else .error .malformed

/-- What stands next between two brackets, from its value on. -/
def skipTurn (bracket : Bracket) (first : Bool) (s : Bytes) : Except Failure Turn :=
  match bracket with
  | .array => nextItem first s
  | .object => do
    match ← nextMember first s with
    | .close rest => return .close rest
    | .more key =>
      let rest ← Text.skip key
      return .more (← expect (ascii ':') rest)

/-- Skips on until all open brackets are closed, the innermost being the first. -/
def skipOpen : (size : Nat) → (brackets : List Bracket) → (first : Bool) → (s : Bytes) →
    Except Failure Bytes
  | _, [], _, s => .ok s
  | 0, _ :: _, _, _ => .error .ended
  | size + 1, bracket :: outer, first, s => do
    match ← skipTurn bracket first s with
    | .close rest => skipOpen size outer false rest
    | .more rest =>
      match ← skipFront rest with
      | .whole rest => skipOpen size (bracket :: outer) false rest
      | .opened inner rest => skipOpen size (inner :: bracket :: outer) true rest

/-- The text behind a value that nobody looks at, of any depth. -/
def skip (size : Nat) (s : Bytes) : Except Failure Bytes := do
  match ← skipFront s with
  | .whole rest => return rest
  | .opened bracket rest => skipOpen size [bracket] true rest

end Json

end KeyVault
