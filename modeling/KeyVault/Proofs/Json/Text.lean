import KeyVault.Json.Text

/-!
# Written strings are read back

The automaton that reads strings undoes the writer: every written byte leaves it between two
characters with that byte added. So a written string gives back its bytes, which are valid UTF-8.

## Main statements

- `Json.Text.writeByte_cases` — the three forms of a written byte
- `Json.Text.scan_writeByte` — what the automaton does on a written byte
- `Json.Text.read_flatMap_writeByte` — a written string is read back, whatever stands behind it
-/

namespace KeyVault

namespace Json

namespace Text

open Bytes (ascii)

/-! ### Steps of the automaton -/

theorem scan_of_more {paired : Bool} {state next : State} {b : UInt8} {out : Bytes}
    (h : step paired state b = .more next out) (read s : Bytes) :
    scan paired state read (b :: s) = scan paired next (out.reverse ++ read) s := by
  rw [scan, h]

theorem scan_of_close {paired : Bool} {state : State} {b : UInt8}
    (h : step paired state b = .close) (read s : Bytes) :
    scan paired state read (b :: s) = .ok (read.reverse, s) := by
  rw [scan, h]

/-- A byte that needs no escape is added as it is. -/
theorem step_plain {b : UInt8} (hquote : b ≠ ascii '"') (hslash : b ≠ ascii '\\')
    (hcontrol : ¬ b < 0x20) (paired : Bool) : step paired .plain b = .more .plain [b] := by
  rw [step, if_neg hquote, if_neg hcontrol, if_neg hslash]

/-! ### Escapes -/

/-- A backslash and a letter add the byte that the letter stands for. -/
theorem scan_escape {letter b : UInt8} (h : escaped? letter = some b) (paired : Bool)
    (read s : Bytes) :
    scan paired .plain read (ascii '\\' :: letter :: s) = scan paired .plain (b :: read) s := by
  have hletter : step paired .escape letter = .more .plain [b] := by rw [step, h]
  rw [scan_of_more (show step paired .plain (ascii '\\') = .more .escape [] from rfl),
    scan_of_more hletter]
  rfl

/-- The four digits of a control byte stand for its number. -/
theorem hexNumber?_control : ∀ n < 32,
    hexNumber? [ascii '0', ascii '0', hexDigit (n / 16), hexDigit (n % 16)] = some n := by
  decide

/-- A control byte is a code point of one byte. -/
theorem codePoint_control : ∀ n < 32, codePoint n = [n.toUInt8] := by
  decide

/-- The number of a control byte is a code unit of its own. -/
theorem unit_control {n : Nat} (h : n < 32) : unit none n = .more .plain [n.toUInt8] := by
  have htrail : isTrail n = false := by
    simp only [isTrail, Bool.and_eq_false_iff, decide_eq_false_iff_not]
    omega
  have hlead : isLead n = false := by
    simp only [isLead, Bool.and_eq_false_iff, decide_eq_false_iff_not]
    omega
  simp [unit, htrail, hlead, codePoint_control n h]

/-- An escape with four digits adds the control byte that they stand for. -/
theorem scan_control {n : Nat} (h : n < 32) (read s : Bytes) :
    scan true .plain read (ascii '\\' :: ascii 'u' :: ascii '0' :: ascii '0'
        :: hexDigit (n / 16) :: hexDigit (n % 16) :: s)
      = scan true .plain (n.toUInt8 :: read) s := by
  have hlast : step true (.hex none [ascii '0', ascii '0', hexDigit (n / 16)]) (hexDigit (n % 16))
      = .more .plain [n.toUInt8] := by
    have hdigits := hexNumber?_control n h
    simp [step, hdigits, unit_control h]
  rw [scan_of_more (show step true .plain (ascii '\\') = .more .escape [] from rfl),
    scan_of_more (show step true .escape (ascii 'u') = .more (.hex none []) [] from rfl),
    scan_of_more (show step true (.hex none []) (ascii '0') = .more (.hex none [ascii '0']) []
      from rfl),
    scan_of_more (show step true (.hex none [ascii '0']) (ascii '0')
      = .more (.hex none [ascii '0', ascii '0']) [] from rfl),
    scan_of_more (show step true (.hex none [ascii '0', ascii '0']) (hexDigit (n / 16))
      = .more (.hex none [ascii '0', ascii '0', hexDigit (n / 16)]) [] from rfl),
    scan_of_more hlast]
  rfl

/-- A byte is written as a backslash and a letter, as the digits of a control byte, or as it is. -/
theorem writeByte_cases (b : UInt8) :
    (∃ letter, escaped? letter = some b ∧ writeByte b = [ascii '\\', letter]) ∨
    (b.toNat < 32 ∧ writeByte b = [ascii '\\', ascii 'u', ascii '0', ascii '0',
      hexDigit (b.toNat / 16), hexDigit (b.toNat % 16)]) ∨
    (b ≠ ascii '"' ∧ b ≠ ascii '\\' ∧ ¬ b < 0x20 ∧ writeByte b = [b]) := by
  unfold writeByte
  iterate 7
    split
    · subst b
      exact Or.inl ⟨_, rfl, rfl⟩
  split
  · rename_i hcontrol
    exact Or.inr (Or.inl ⟨UInt8.lt_iff_toNat_lt.1 hcontrol, rfl⟩)
  · rename_i hquote hslash _ _ _ _ _ hcontrol
    exact Or.inr (Or.inr ⟨hquote, hslash, hcontrol, rfl⟩)

/-! ### Whole strings -/

/-- What the automaton does on a written byte: it adds the byte. -/
theorem scan_writeByte (b : UInt8) (read s : Bytes) :
    scan true .plain read (writeByte b ++ s) = scan true .plain (b :: read) s := by
  rcases writeByte_cases b with ⟨letter, hletter, hb⟩ | ⟨hn, hb⟩ | ⟨hquote, hslash, hcontrol, hb⟩
  · rw [hb]
    exact scan_escape hletter true read s
  · have h := scan_control hn read s
    rw [show b.toNat.toUInt8 = b from UInt8.ofNat_toNat] at h
    rw [hb]
    exact h
  · rw [hb, List.singleton_append, scan_of_more (step_plain hquote hslash hcontrol true)]
    rfl

theorem scan_flatMap_writeByte (bytes read s : Bytes) :
    scan true .plain read (bytes.flatMap writeByte ++ s)
      = scan true .plain (bytes.reverse ++ read) s := by
  induction bytes generalizing read with
  | nil => rfl
  | cons b bytes ih =>
    rw [List.flatMap_cons, List.append_assoc, scan_writeByte, ih]
    simp

/-- A written string is read back from behind its opening quote. -/
theorem read_flatMap_writeByte (text : String) (rest : Bytes) :
    read ((Bytes.ofString text).flatMap writeByte ++ ascii '"' :: rest) = .ok (text, rest) := by
  have hclose : step true .plain (ascii '"') = .close := rfl
  rw [read, scan_flatMap_writeByte, scan_of_close hclose]
  simp [bind, Except.bind]

/-- A written string is a quote, the string and a quote. -/
theorem write_append (text : String) (rest : Bytes) : write text ++ rest
    = ascii '"' :: ((Bytes.ofString text).flatMap writeByte ++ ascii '"' :: rest) := by
  simp [write]

end Text

end Json

end KeyVault
