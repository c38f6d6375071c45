import KeyVault.Json.Codec

/-!
# Records

Records with named fields: one description of the fields gives the text of a record and the reader
of both of its forms, the object and the array.

## Main definitions

- `Json.Field`, `Json.Row`, `Json.Draft` — a field, the values of all fields, and the values read so
  far
- `Json.Record` — types that are described by their fields
- `Json.Record.write`, `Json.Record.read` — the text of a record, and its reader

## Design notes

An object may hold its members in any order, and others beside them, which are skipped. A field that
comes twice is refused as soon as its key is read; one that does not come takes its fallback, or the
record is refused. An array holds the fields in the order of their declaration; it may end early if
the others have fallbacks.
-/

namespace KeyVault

namespace Json

open Bytes (ascii)

structure Field where
  name : String
  type : Type
  codec : Codec type
  /-- The value of a field that is missing. -/
  fallback : Option type

/-- A field of a type with a JSON form that must not be missing. -/
def Field.required (name : String) (type : Type) [codec : Codec type] : Field :=
  ⟨name, type, codec, none⟩

/-- A field of a type with a JSON form that may be missing. -/
def Field.defaulted {type : Type} [codec : Codec type] (name : String) (value : type) : Field :=
  ⟨name, type, codec, some value⟩

/-- A value for each field. -/
def Row : List Field → Type
  | [] => Unit
  | f :: fields => f.type × Row fields

/-- A value for each field that has been read. -/
def Draft : List Field → Type
  | [] => Unit
  | f :: fields => Option f.type × Draft fields

/-- The draft before any field has been read. -/
def Draft.empty : (fields : List Field) → Draft fields
  | [] => ()
  | _ :: fields => (none, Draft.empty fields)

/-- The row of a draft whose missing fields have fallbacks. -/
def Draft.finish : (fields : List Field) → Draft fields → Option (Row fields)
  | [], _ => some ()
  | f :: fields, (value, draft) => do
    let first ← value.or f.fallback
    let others ← Draft.finish fields draft
    return (first, others)

/-- Types that are described by their fields. -/
class Record (α : Type) where
  fields : List Field
  toRow : α → Row fields
  ofRow : Row fields → α
  /-- A record is determined by its fields. -/
  ofRow_toRow : ∀ a, ofRow (toRow a) = a

namespace Record

/-! ### Writing -/

def members : (fields : List Field) → Row fields → List (String × Bytes)
  | [], _ => []
  | f :: fields, (value, row) => (f.name, f.codec.write value) :: members fields row

/-- The text of a record: its object form, with the fields in order. -/
def write {α : Type} [Record α] (a : α) : Bytes := writeMembers (members (fields α) (toRow a))

/-! ### Reading the object form -/

/-- Reads the value of a member into the field of its name, if there is one. -/
def readField (limits : Limits) (name : String) : (fields : List Field) → Draft fields → Bytes →
    Option (Except Failure (Draft fields × Bytes))
  | [], _, _ => none
  | f :: fields, (value, draft), s =>
    if name = f.name then
      match value with
      -- A repeated key is refused before its colon is looked for.
      | some _ => some (.error .mismatch)
      | none => some do
        let (v, rest) ← f.codec.read limits (← expect (ascii ':') s)
        return ((some v, draft), rest)
    else
      (readField limits name fields draft s).map fun reading => do
        let (draft, rest) ← reading
        return ((value, draft), rest)

/-- Reads a member into a draft from behind its key on; a member that is no field is skipped. -/
def readMember (fields : List Field) (limits : Limits) (draft : Draft fields) (name : String)
    (s : Bytes) : Except Failure (Draft fields × Bytes) :=
  match readField limits name fields draft s with
  | some reading => reading
  | none => do
    let rest ← skip limits.size (← expect (ascii ':') s)
    return (draft, rest)

/-- Reads the members of an object after its opening bracket. -/
def readObject (fields : List Field) (limits : Limits) (s : Bytes) :
    Except Failure (Row fields × Bytes) := do
  let (draft, rest) ← readMembers (readMember fields limits) limits.size true (.empty fields) s
  match draft.finish fields with
  | some row => return (row, rest)
  | none => .error .mismatch

/-! ### Reading the array form -/

/-- Reads the items of an array, one for each field. -/
def readArray (limits : Limits) : (fields : List Field) → (first : Bool) → (s : Bytes) →
    Except Failure (Row fields × Bytes)
  | [], _, s => do
    let rest ← expect (ascii ']') s
    return ((), rest)
  | f :: fields, first, s => do
    match ← nextItem first s with
    | .close rest =>
      match (Draft.empty (f :: fields)).finish (f :: fields) with
      | some row => return (row, rest)
      | none => .error .mismatch
    | .more item =>
      let (value, rest) ← f.codec.read limits item
      let (row, rest) ← readArray limits fields false rest
      return ((value, row), rest)

/-- The record at the front of a text, in either form. -/
def read {α : Type} [Record α] (limits : Limits) (s : Bytes) : Except Failure (α × Bytes) :=
  match skipBlanks s with
  | [] => .error .ended
  | b :: rest =>
    if b = ascii '\x7b' then do
      let inner ← limits.enter
      let (row, rest) ← readObject (fields α) inner rest
      return (ofRow row, rest)
    else if b = ascii '[' then do
      let inner ← limits.enter
      let (row, rest) ← readArray inner (fields α) true rest
      return (ofRow row, rest)
    else .error (mismatch s)

end Record

instance {α : Type} [Record α] : Codec α where
  write := Record.write
  read := Record.read

end Json

end KeyVault
