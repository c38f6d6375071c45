import KeyVault.Json.Brackets

/-!
# Compact punctuation

What the readers of fixed bytes do on compact text, in which no blanks stand between tokens.

## Main definitions

- `Json.Begins` — a text that begins a value: its first byte is no blank and closes no array
- `Json.separator`, `Json.separated` — the comma before all items but the first

## Main statements

- `Json.nextItem_separator`, `Json.nextMember_separator` — an item or a member that stands next
-/

namespace KeyVault

namespace Json

open Bytes (ascii)

/-- A text that begins a value. -/
def Begins (text : Bytes) : Prop :=
  ∃ b rest, text = b :: rest ∧ isBlank b = false ∧ b ≠ ascii ']'

theorem Begins.append {text : Bytes} (h : Begins text) (rest : Bytes) : Begins (text ++ rest) := by
  obtain ⟨b, tail, rfl, hblank, hclose⟩ := h
  exact ⟨b, tail ++ rest, rfl, hblank, hclose⟩

theorem Begins.ne_nil {text : Bytes} (h : Begins text) : text ≠ [] := by
  obtain ⟨b, rest, rfl, -⟩ := h
  exact List.cons_ne_nil b rest

/-- No digit is a blank or closes an array. -/
theorem begins_of_isDigit {b : UInt8} (h : Decimal.isDigit b = true) (rest : Bytes) :
    Begins (b :: rest) := by
  refine ⟨b, rest, rfl, Bool.eq_false_iff.2 fun hblank => ?_, ?_⟩
  · have hcases : ((b = 0x20 ∨ b = 0x0a) ∨ b = 0x09) ∨ b = 0x0d := by
      simpa [isBlank] using hblank
    rcases hcases with ((rfl | rfl) | rfl) | rfl <;> exact absurd h (by decide)
  · rintro rfl
    exact absurd h (by decide)

/-! ### Fixed bytes -/

theorem skipBlanks_cons {b : UInt8} (h : isBlank b = false) (s : Bytes) :
    skipBlanks (b :: s) = b :: s := by
  rw [skipBlanks, List.dropWhile_cons, h]
  rfl

theorem skipBlanks_of_begins {text : Bytes} (h : Begins text) : skipBlanks text = text := by
  obtain ⟨b, rest, rfl, hblank, -⟩ := h
  exact skipBlanks_cons hblank rest

theorem expect_cons {b : UInt8} (h : isBlank b = false) (s : Bytes) :
    expect b (b :: s) = .ok s := by
  rw [expect, skipBlanks_cons h]
  exact if_pos rfl

theorem literal_append (word rest : Bytes) : literal word (word ++ rest) = .ok rest := by
  induction word with
  | nil => rfl
  | cons w word ih => rw [List.cons_append, literal, if_pos rfl, ih]

/-! ### Commas -/

/-- What stands before an item or a member: a comma, unless it is the first one. -/
def separator (first : Bool) : Bytes := if first then [] else [ascii ',']

/-- Texts behind one another with commas between them, and before the first one as well if others
have been there before. -/
def separated (first : Bool) : List Bytes → Bytes
  | [] => []
  | text :: texts => separator first ++ text ++ separated false texts

theorem separated_false (texts : List Bytes) :
    separated false texts = texts.flatMap (ascii ',' :: ·) := by
  induction texts with
  | nil => rfl
  | cons text texts ih => rw [separated, ih]; rfl

theorem commaSeparated_eq (texts : List Bytes) : commaSeparated texts = separated true texts := by
  cases texts with
  | nil => rfl
  | cons text texts => rw [separated, separated_false]; rfl

/-! ### Arrays -/

theorem nextItem_close (first : Bool) (s : Bytes) :
    nextItem first (ascii ']' :: s) = .ok (.close s) := by
  rw [nextItem, skipBlanks_cons (by decide)]
  exact if_pos rfl

/-- An item that stands next. -/
theorem nextItem_separator (first : Bool) {text : Bytes} (h : Begins text) :
    nextItem first (separator first ++ text) = .ok (.more text) := by
  obtain ⟨b, rest, rfl, hblank, hclose⟩ := h
  cases first with
  | true =>
    rw [separator, if_pos rfl, List.nil_append, nextItem, skipBlanks_cons hblank]
    simp only [if_neg hclose, if_true]
  | false =>
    rw [separator, if_neg Bool.false_ne_true, List.singleton_append, nextItem,
      skipBlanks_cons (by decide)]
    simp only [if_neg (show ascii ',' ≠ ascii ']' by decide), Bool.false_eq_true, if_false, if_true,
      skipBlanks_cons hblank, if_neg hclose]

/-! ### Objects -/

theorem nextMember_close (first : Bool) (s : Bytes) :
    nextMember first (ascii '\x7d' :: s) = .ok (.close s) := by
  rw [nextMember, skipBlanks_cons (by decide)]
  exact if_pos rfl

/-- A member that stands next, from behind its opening quote on. -/
theorem nextMember_separator (first : Bool) (key : Bytes) :
    nextMember first (separator first ++ ascii '"' :: key) = .ok (.more key) := by
  cases first with
  | true =>
    rw [separator, if_pos rfl, List.nil_append, nextMember, skipBlanks_cons (by decide)]
    rfl
  | false =>
    rw [separator, if_neg Bool.false_ne_true, List.singleton_append, nextMember,
      skipBlanks_cons (by decide)]
    simp only [if_neg (show ascii ',' ≠ ascii '\x7d' by decide), Bool.false_eq_true, if_false,
      if_true, expect_cons (show isBlank (ascii '"') = false by decide)]
    rfl

end Json

end KeyVault
