import KeyVault.Text.Glyphless

/-!
# Debug texts

One-line texts of values for people: strings between quotes, lists, and records with the names of
their fields. A record can hide fields.

## Main definitions

- `Debug` — types whose values have a debug text
- `Debug.quoted` — a string between quotes
- `Debug.listOf`, `Debug.setOf` — lists and sets
- `Debug.fields`, `Debug.openFields` — a record, with all of its fields or with some hidden
-/

namespace KeyVault

/-- Types whose values have a debug text. -/
class Debug (α : Type) where
  /-- The debug text of a value. -/
  debug : α → String

namespace Debug

/-- How one character of a string is shown. -/
def quotedChar (c : Char) : String :=
  if c = '"' then "\\\""
  else if c = '\\' then "\\\\"
  else if c = '\n' then "\\n"
  else if c = '\r' then "\\r"
  else if c = '\t' then "\\t"
  else if c = '\x00' then "\\0"
  else if isGlyphless c then "\\u\x7b" ++ String.ofList (Nat.toDigits 16 c.toNat) ++ "\x7d"
  else c.toString

/-- A string between quotes. -/
def quoted (s : String) : String := "\"" ++ String.join (s.toList.map quotedChar) ++ "\""

/-- Texts with commas between them. -/
def commaSeparated (texts : List String) : String := String.intercalate ", " texts

/-- A list of texts. -/
def listOf (texts : List String) : String := "[" ++ commaSeparated texts ++ "]"

/-- A set of texts. -/
def setOf (texts : List String) : String := "\x7b" ++ commaSeparated texts ++ "\x7d"

/-- A field with its name. -/
def field (f : String × String) : String := f.1 ++ ": " ++ f.2

/-- A record with all of its fields. -/
def fields (name : String) (shown : List (String × String)) : String :=
  name ++ " \x7b " ++ commaSeparated (shown.map field) ++ " \x7d"

/-- A record that hides some of its fields. -/
def openFields (name : String) (shown : List (String × String)) : String :=
  name ++ " \x7b " ++ commaSeparated (shown.map field ++ [".."]) ++ " \x7d"

/-- A value that may be missing. -/
def optional (text : Option String) : String :=
  match text with
  | some t => "Some(" ++ t ++ ")"
  | none => "None"

instance : Debug String := ⟨quoted⟩

instance : Debug Bool := ⟨fun b => if b then "true" else "false"⟩

instance : Debug Nat := ⟨Nat.repr⟩

instance : Debug UInt8 := ⟨fun n => Nat.repr n.toNat⟩

instance : Debug UInt32 := ⟨fun n => Nat.repr n.toNat⟩

instance : Debug UInt64 := ⟨fun n => Nat.repr n.toNat⟩

instance {α : Type} [Debug α] : Debug (List α) := ⟨fun l => listOf (l.map debug)⟩

instance {α : Type} [Debug α] : Debug (Option α) := ⟨fun o => optional (o.map debug)⟩

end Debug

end KeyVault
