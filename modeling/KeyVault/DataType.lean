import KeyVault.Json.Codec
import KeyVault.Text.Debug

/-!
# Data types

The types of data that an account can keep encrypted, and sets of them.

## Main definitions

- `DataType` — the types in the order of their declaration
- `DataTypeSet` — a set of types, one bit for each
- `DataTypeSet.toList` — the types of a set in the order of their declaration

## Main statements

- `DataTypeSet.has_put`, `DataTypeSet.has_putAll` — what a set holds after an insertion
- `DataTypeSet.ext_has` — sets that hold the same types are equal

## Design notes

A type is written as its name. It is read from its name, or from an object whose only member has the
name as its key and null as its value. Where that key has to stand nothing but a string is read:
anything else is malformed there, even if it is a value of another kind.
-/

namespace KeyVault

inductive DataType
  | bookmarks
  | preferences
  | passwords
  | autofillProfile
  | autofill
  | themes
  | typedUrls
  | extensions
  | searchEngines
  | sessions
  | apps
  | deviceInfo
  | nigori
  deriving DecidableEq, Repr

namespace DataType

/-- All types in the order of their declaration. -/
def all : List DataType := [bookmarks, preferences, passwords, autofillProfile, autofill, themes,
  typedUrls, extensions, searchEngines, sessions, apps, deviceInfo, nigori]

def name : DataType → String
  | bookmarks => "bookmarks"
  | preferences => "preferences"
  | passwords => "passwords"
  | autofillProfile => "autofill_profile"
  | autofill => "autofill"
  | themes => "themes"
  | typedUrls => "typed_urls"
  | extensions => "extensions"
  | searchEngines => "search_engines"
  | sessions => "sessions"
  | apps => "apps"
  | deviceInfo => "device_info"
  | nigori => "nigori"

def ofName? (s : String) : Option DataType := all.find? fun t => t.name == s

theorem mem_all (t : DataType) : t ∈ all := by
  cases t <;> decide

@[simp]
theorem ofName?_name (t : DataType) : ofName? t.name = some t := by
  cases t <;> decide

instance : Debug DataType where
  debug
    | bookmarks => "Bookmarks"
    | preferences => "Preferences"
    | passwords => "Passwords"
    | autofillProfile => "AutofillProfile"
    | autofill => "Autofill"
    | themes => "Themes"
    | typedUrls => "TypedUrls"
    | extensions => "Extensions"
    | searchEngines => "SearchEngines"
    | sessions => "Sessions"
    | apps => "Apps"
    | deviceInfo => "DeviceInfo"
    | nigori => "Nigori"

/-- The type of a string that has been read. -/
def ofString (s : String) : Except Json.Failure DataType :=
  match ofName? s with
  | some t => .ok t
  | none => .error .mismatch

/-- The type at the front of a text. -/
def read (limits : Json.Limits) (s : Bytes) : Except Json.Failure (DataType × Bytes) :=
  match Json.skipBlanks s with
  | [] => .error .ended
  | b :: rest =>
    if b = Bytes.ascii '"' then do
      let (text, rest) ← Json.Text.read rest
      return (← ofString text, rest)
    else if b = Bytes.ascii '\x7b' then do
      let _ ← limits.enter
      let (text, rest) ← Json.Text.read (← Json.expect (Bytes.ascii '"') rest)
      let t ← ofString text
      let rest ← Json.readNull (← Json.expect (Bytes.ascii ':') rest)
      return (t, ← Json.expect (Bytes.ascii '\x7d') rest)
    else .error .malformed

instance : Json.Codec DataType where
  write t := Json.Text.write t.name
  read := read

/-- The place of a type in the order of declaration. -/
def place (t : DataType) : Fin 13 :=
  match t with
  | bookmarks => 0
  | preferences => 1
  | passwords => 2
  | autofillProfile => 3
  | autofill => 4
  | themes => 5
  | typedUrls => 6
  | extensions => 7
  | searchEngines => 8
  | sessions => 9
  | apps => 10
  | deviceInfo => 11
  | nigori => 12

theorem place_getD_all : ∀ i : Fin 13, (all.getD i nigori).place = i := by
  decide

theorem getD_all_place (t : DataType) : all.getD t.place nigori = t := by
  cases t <;> rfl

theorem place_injective {t u : DataType} (h : t.place = u.place) : t = u := by
  rw [← getD_all_place t, h, getD_all_place]

end DataType

/-- A set of data types. -/
structure DataTypeSet where
  /-- One bit for each type. -/
  bits : BitVec 13
  deriving DecidableEq

namespace DataTypeSet

def empty : DataTypeSet := ⟨0⟩

def has (s : DataTypeSet) (t : DataType) : Bool := s.bits.getLsbD t.place

def put (s : DataTypeSet) (t : DataType) : DataTypeSet := ⟨s.bits ||| BitVec.twoPow 13 t.place⟩

def putAll (s other : DataTypeSet) : DataTypeSet := ⟨s.bits ||| other.bits⟩

def hasAll (s other : DataTypeSet) : Bool := DataType.all.all fun t => !other.has t || s.has t

def toList (s : DataTypeSet) : List DataType := DataType.all.filter s.has

def ofList (l : List DataType) : DataTypeSet := l.foldl put empty

def size (s : DataTypeSet) : Nat := s.toList.length

/-- The types with an encryption of their own, which count as encrypted always. -/
def sensitive : DataTypeSet := ofList [.passwords, .nigori]

@[simp]
theorem has_empty (t : DataType) : empty.has t = false := by
  cases t <;> decide

/-- What a set holds after an insertion. -/
@[simp]
theorem has_put (s : DataTypeSet) (t u : DataType) : (s.put t).has u = (s.has u || t == u) := by
  have h : (t == u) = (t.place == u.place) := by
    rw [Bool.eq_iff_iff]
    simp only [beq_iff_eq]
    exact ⟨congrArg DataType.place, DataType.place_injective⟩
  have hlt : u.place.val < 13 := u.place.isLt
  have hval : (t.place == u.place) = decide (u.place.val = t.place.val) := by
    simp [BEq.beq, Fin.ext_iff, eq_comm]
  simp [has, put, h, hval, hlt]

/-- What a set holds after the insertion of another one. -/
@[simp]
theorem has_putAll (s other : DataTypeSet) (t : DataType) :
    (s.putAll other).has t = (s.has t || other.has t) := by
  simp [has, putAll]

/-- Sets that hold the same types are equal. -/
theorem ext_has {s other : DataTypeSet} (h : ∀ t, s.has t = other.has t) : s = other := by
  obtain ⟨a⟩ := s
  obtain ⟨b⟩ := other
  congr 1
  refine BitVec.eq_of_getLsbD_eq fun i hi => ?_
  have ht := DataType.place_getD_all ⟨i, hi⟩
  have := h (DataType.all.getD i .nigori)
  rwa [has, has, ht] at this

instance : Debug DataTypeSet where
  debug s := "ModelTypeSet(" ++ Debug.setOf (s.toList.map Debug.debug) ++ ")"

instance : Json.Codec DataTypeSet where
  write s := Json.writeItems (s.toList.map Json.Codec.write)
  read limits s := do
    let (types, rest) ← Json.readList Json.Codec.read limits s
    return (ofList types, rest)

end DataTypeSet

end KeyVault
