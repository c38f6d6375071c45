import KeyVault.Json.Lexis

/-!
# JSON strings

Strings between quotes: how they are written, read, and skipped.

## Main definitions

- `Json.Text.write` — a string between quotes
- `Json.Text.State`, `Json.Text.step` — the automaton that reads one byte after the other
- `Json.Text.read` — the string after an opening quote
- `Json.Text.skip` — the text behind a string that nobody looks at

## Design notes

Reading checks that surrogates come in pairs as soon as it sees them, and that the bytes are valid
UTF-8 at the closing quote. Skipping checks neither.
-/

namespace KeyVault

namespace Json

namespace Text

open Bytes (ascii)

/-! ### Writing -/

def hexDigit (n : Nat) : UInt8 := if n < 10 then (48 + n).toUInt8 else (87 + n).toUInt8

/-- How one byte of a string is written. -/
def writeByte (b : UInt8) : Bytes :=
  if b = ascii '"' then [ascii '\\', ascii '"']
  else if b = ascii '\\' then [ascii '\\', ascii '\\']
  else if b = 0x08 then [ascii '\\', ascii 'b']
  else if b = 0x0c then [ascii '\\', ascii 'f']
  else if b = 0x0a then [ascii '\\', ascii 'n']
  else if b = 0x0d then [ascii '\\', ascii 'r']
  else if b = 0x09 then [ascii '\\', ascii 't']
  else if b < 0x20 then
    [ascii '\\', ascii 'u', ascii '0', ascii '0', hexDigit (b.toNat / 16), hexDigit (b.toNat % 16)]
  else [b]

/-- A string between quotes. -/
def write (s : String) : Bytes :=
  ascii '"' :: (Bytes.ofString s).flatMap writeByte ++ [ascii '"']

/-! ### Reading -/

/-- Where in a string a reader stands. -/
inductive State
  | plain
  | escape
  /-- In the digits of a code unit, which may follow a leading surrogate. -/
  | hex (lead : Option Nat) (digits : Bytes)
  /-- Before the backslash that has to follow a leading surrogate. -/
  | pairSlash (lead : Nat)
  /-- Before the `u` that has to follow that backslash. -/
  | pairMark (lead : Nat)
  deriving DecidableEq

/-- What a byte does. -/
inductive Step
  | close
  /-- It adds some bytes to the string. -/
  | more (state : State) (out : Bytes)
  | refuse

/-- The byte that a letter after a backslash stands for. -/
def escaped? (b : UInt8) : Option UInt8 :=
  if b = ascii '"' ∨ b = ascii '\\' ∨ b = ascii '/' then some b
  else if b = ascii 'b' then some 0x08
  else if b = ascii 'f' then some 0x0c
  else if b = ascii 'n' then some 0x0a
  else if b = ascii 'r' then some 0x0d
  else if b = ascii 't' then some 0x09
  else none

def hexValue? (b : UInt8) : Option Nat :=
  if ascii '0' ≤ b ∧ b ≤ ascii '9' then some (b.toNat - 48)
  else if ascii 'a' ≤ b ∧ b ≤ ascii 'f' then some (b.toNat - 87)
  else if ascii 'A' ≤ b ∧ b ≤ ascii 'F' then some (b.toNat - 55)
  else none

def hexNumber? (digits : Bytes) : Option Nat :=
  digits.foldlM (fun n b => (hexValue? b).map (16 * n + ·)) 0

def isLead (unit : Nat) : Bool := 0xd800 ≤ unit && unit < 0xdc00

def isTrail (unit : Nat) : Bool := 0xdc00 ≤ unit && unit < 0xe000

def codePoint (n : Nat) : Bytes := String.utf8EncodeChar (Char.ofNat n)

/-- What a finished code unit does. -/
def unit (lead : Option Nat) (n : Nat) : Step :=
  match lead with
  | none =>
    if isTrail n then .refuse
    else if isLead n then .more (.pairSlash n) []
    else .more .plain (codePoint n)
  | some l =>
    -- Each half of a pair holds ten bits.
    if isTrail n then .more .plain (codePoint (0x10000 + (l - 0xd800) * 0x400 + (n - 0xdc00)))
    else .refuse

/-- What the next byte does; `paired` asks for surrogates in pairs. -/
def step (paired : Bool) (state : State) (b : UInt8) : Step :=
  match state with
  | .plain =>
    if b = ascii '"' then .close
    else if b < 0x20 then .refuse
    else if b = ascii '\\' then .more .escape []
    else .more .plain [b]
  | .escape =>
    match escaped? b with
    | some c => .more .plain [c]
    | none => if b = ascii 'u' then .more (.hex none []) [] else .refuse
  | .hex lead digits =>
    if digits.length < 3 then .more (.hex lead (digits ++ [b])) []
    else
      match hexNumber? (digits ++ [b]) with
      | none => .refuse
      | some n => if paired then unit lead n else .more .plain []
  | .pairSlash lead => if b = ascii '\\' then .more (.pairMark lead) [] else .refuse
  | .pairMark lead => if b = ascii 'u' then .more (.hex (some lead) []) [] else .refuse

/-- Runs the automaton up to the closing quote; `read` holds the bytes so far, last one first. -/
def scan (paired : Bool) : (state : State) → (read s : Bytes) → Except Failure (Bytes × Bytes)
  | _, _, [] => .error .ended
  | state, read, b :: s =>
    match step paired state b with
    | .close => .ok (read.reverse, s)
    | .more state out => scan paired state (out.reverse ++ read) s
    | .refuse => .error .malformed

/-- The string after an opening quote. -/
def read (s : Bytes) : Except Failure (String × Bytes) := do
  let (bytes, rest) ← scan true .plain [] s
  match bytes.toString? with
  | some text => .ok (text, rest)
  | none => .error .malformed

/-- The text behind a string that nobody looks at, after its opening quote. -/
def skip (s : Bytes) : Except Failure Bytes := do
  let (_, rest) ← scan false .plain [] s
  return rest

end Text

end Json

end KeyVault
