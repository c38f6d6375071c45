import KeyVault.Proofs.Except
import KeyVault.Proofs.Json.Brackets

/-!
# Texts that go on

A reader looks at no more of a text than its value and the byte behind it. So what has been read
from a text is read from every longer one as well, wherever no number goes on, and the limits of a
longer text are no obstacle.

## Main definitions

- `Json.Blank` — blanks between tokens
- `Json.GoesOn` — a reader does on longer texts what another one does

## Main statements

- `Json.Number.goesOn_read`, `Json.Text.read_append` — numbers and strings
- `Json.goesOn_readItems`, `Json.goesOn_readMembers` — what stands between brackets
- `Json.skip_append` — values that nobody looks at
-/

namespace KeyVault

namespace Json

open Bytes (ascii)
open Decimal (isDigit)

variable {α σ : Type} {s t rest : Bytes}

/-- What stands between two tokens. -/
def Blank (gap : Bytes) : Prop := ∀ b ∈ gap, isBlank b = true

instance (gap : Bytes) : Decidable (Blank gap) :=
  decidable_of_iff (gap.all isBlank = true) List.all_eq_true

/-- What the first reader makes of a text, the second one makes of every longer text. -/
def GoesOn (short long : Bytes → Except Failure (α × Bytes)) : Prop :=
  ∀ {s a r}, short s = .ok (a, r) → ∀ {rest}, Number.Stops rest →
    long (s ++ rest) = .ok (a, r ++ rest)

/-! ### Blanks -/

theorem skipBlanks_eq_nil_iff : skipBlanks s = [] ↔ Blank s := by
  induction s with
  | nil => exact iff_of_true rfl (List.forall_mem_nil _)
  | cons b s ih =>
    rw [Blank, List.forall_mem_cons]
    cases hb : isBlank b with
    | true =>
      rw [skipBlanks, List.dropWhile_cons, if_pos hb]
      exact ih.trans (and_iff_right rfl).symm
    | false => simp [skipBlanks_cons hb]

theorem skipBlanks_blank_append {gap : Bytes} (h : Blank gap) (s : Bytes) :
    skipBlanks (gap ++ s) = skipBlanks s :=
  List.dropWhile_append_of_pos h

theorem isBlank_of_skipBlanks {b : UInt8} (h : skipBlanks s = b :: t) : isBlank b = false := by
  have hhead := List.head?_dropWhile_not isBlank s
  rw [show s.dropWhile isBlank = b :: t from h] at hhead
  simpa using hhead

theorem skipBlanks_append {b : UInt8} (h : skipBlanks s = b :: t) (rest : Bytes) :
    skipBlanks (s ++ rest) = b :: (t ++ rest) := by
  have hdrop : s.dropWhile isBlank = b :: t := h
  rw [skipBlanks, List.dropWhile_append, hdrop]
  rfl

theorem skipBlanks_skipBlanks (s : Bytes) : skipBlanks (skipBlanks s) = skipBlanks s := by
  cases hs : skipBlanks s with
  | nil => rfl
  | cons b t => exact skipBlanks_cons (isBlank_of_skipBlanks hs) t

/-! ### Fixed bytes -/

theorem expect_append {b : UInt8} (h : expect b s = .ok t) (rest : Bytes) :
    expect b (s ++ rest) = .ok (t ++ rest) := by
  rw [expect] at h ⊢
  cases hs : skipBlanks s with
  | nil => rw [hs] at h; cases h
  | cons c tail =>
    rw [hs] at h
    rw [skipBlanks_append hs]
    simp only at h ⊢
    by_cases hc : c = b
    · rw [if_pos hc] at h ⊢
      rw [Except.ok.inj h]
    · rw [if_neg hc] at h
      cases h

theorem literal_append_of_ok {word : Bytes} (h : literal word s = .ok t) (rest : Bytes) :
    literal word (s ++ rest) = .ok (t ++ rest) := by
  induction word generalizing s with
  | nil => rw [← Except.ok.inj h]; rfl
  | cons w word ih =>
    cases s with
    | nil => cases h
    | cons b s =>
      rw [literal] at h
      by_cases hb : b = w
      · rw [if_pos hb] at h
        rw [List.cons_append, literal, if_pos hb, ih h]
      · rw [if_neg hb] at h
        cases h

/-! ### Punctuation -/

/-- A turn in a longer text. -/
def Turn.append (rest : Bytes) : Turn → Turn
  | close s => close (s ++ rest)
  | more s => more (s ++ rest)

theorem nextItem_append {first : Bool} {turn : Turn} (h : nextItem first s = .ok turn)
    (rest : Bytes) : nextItem first (s ++ rest) = .ok (turn.append rest) := by
  rw [nextItem] at h ⊢
  cases hs : skipBlanks s with
  | nil => rw [hs] at h; cases h
  | cons b tail =>
    rw [hs] at h
    rw [skipBlanks_append hs]
    simp only at h ⊢
    split at h
    · rw [← Except.ok.inj h, if_pos ‹_›]; rfl
    · rw [if_neg ‹_›]
      split at h
      · rw [← Except.ok.inj h, if_pos ‹_›]; rfl
      · rw [if_neg ‹_›]
        split at h
        · rw [if_pos ‹_›]
          cases htail : skipBlanks tail with
          | nil => rw [htail] at h; cases h
          | cons c item =>
            rw [htail] at h
            rw [skipBlanks_append htail]
            simp only at h ⊢
            split at h
            · cases h
            · rw [← Except.ok.inj h, if_neg ‹_›]; rfl
        · cases h

theorem nextMember_append {first : Bool} {turn : Turn} (h : nextMember first s = .ok turn)
    (rest : Bytes) : nextMember first (s ++ rest) = .ok (turn.append rest) := by
  rw [nextMember] at h ⊢
  cases hs : skipBlanks s with
  | nil => rw [hs] at h; cases h
  | cons b tail =>
    rw [hs] at h
    rw [skipBlanks_append hs]
    simp only at h ⊢
    split at h
    · rw [← Except.ok.inj h, if_pos ‹_›]; rfl
    · rw [if_neg ‹_›]
      split at h
      · rw [if_pos ‹_›]
        split at h
        · rw [← Except.ok.inj h, if_pos ‹_›]; rfl
        · cases h
      · rw [if_neg ‹_›]
        split at h
        · rw [if_pos ‹_›]
          obtain ⟨key, hkey, h⟩ := bind_eq_ok_iff.1 h
          rw [expect_append hkey, ← Except.ok.inj h]
          rfl
        · cases h

/-! ### Strings -/

namespace Text

theorem scan_append {paired : Bool} {state : State} {read bytes : Bytes}
    (h : scan paired state read s = .ok (bytes, t)) (rest : Bytes) :
    scan paired state read (s ++ rest) = .ok (bytes, t ++ rest) := by
  induction s generalizing state read with
  | nil => cases h
  | cons b s ih =>
    rw [scan] at h
    rw [List.cons_append, scan]
    cases hstep : step paired state b with
    | close =>
      rw [hstep] at h
      obtain ⟨rfl, rfl⟩ := Prod.mk.inj (Except.ok.inj h)
      rfl
    | more next out =>
      rw [hstep] at h
      exact ih h
    | refuse => rw [hstep] at h; cases h

theorem read_append {text : String} (h : read s = .ok (text, t)) (rest : Bytes) :
    read (s ++ rest) = .ok (text, t ++ rest) := by
  obtain ⟨⟨bytes, tail⟩, hscan, h⟩ := bind_eq_ok_iff.1 h
  rw [read, scan_append hscan]
  simp only [bind, Except.bind] at h ⊢
  cases hbytes : bytes.toString? with
  | none => rw [hbytes] at h; cases h
  | some text' =>
    rw [hbytes] at h
    obtain ⟨rfl, rfl⟩ := Prod.mk.inj (Except.ok.inj h)
    rfl

theorem skip_append (h : skip s = .ok t) (rest : Bytes) : skip (s ++ rest) = .ok (t ++ rest) := by
  obtain ⟨⟨bytes, tail⟩, hscan, h⟩ := bind_eq_ok_iff.1 h
  obtain rfl := Except.ok.inj h
  rw [skip, scan_append hscan]
  rfl

end Text

/-! ### Numbers -/

namespace Number

theorem takeWhile_append (h : Stops rest) (s : Bytes) :
    (s ++ rest).takeWhile isDigit = s.takeWhile isDigit := by
  induction s with
  | nil =>
    cases rest with
    | nil => rfl
    | cons b rest => simp [h.head.1]
  | cons b s ih => simp [List.takeWhile_cons, ih]

theorem dropWhile_append (h : Stops rest) (s : Bytes) :
    (s ++ rest).dropWhile isDigit = s.dropWhile isDigit ++ rest := by
  induction s with
  | nil =>
    cases rest with
    | nil => rfl
    | cons b rest => simp [h.head.1]
  | cons b s ih =>
    rw [List.cons_append, List.dropWhile_cons, List.dropWhile_cons, ih]
    split <;> rfl

theorem goesOn_readDigits : GoesOn readDigits readDigits := by
  intro s digits t h rest hrest
  cases s with
  | nil => cases h
  | cons b s =>
    have htake := takeWhile_append hrest (b :: s)
    have hdrop := dropWhile_append hrest (b :: s)
    rw [List.cons_append] at htake hdrop ⊢
    rw [readDigits] at h ⊢
    split at h
    · obtain ⟨rfl, rfl⟩ := Prod.mk.inj (Except.ok.inj h)
      rw [if_pos ‹_›, htake, hdrop]
    · cases h

theorem goesOn_readWhole : GoesOn readWhole readWhole := by
  intro s digits t h rest hrest
  obtain ⟨⟨digits', tail⟩, hdigits, h⟩ := bind_eq_ok_iff.1 h
  rw [readWhole, goesOn_readDigits hdigits hrest]
  simp only [bind, Except.bind] at h ⊢
  split at h
  · cases h
  · obtain ⟨rfl, rfl⟩ := Prod.mk.inj (Except.ok.inj h)
    rw [if_neg ‹_›]
    rfl

theorem goesOn_readExponent : GoesOn readExponent readExponent := by
  intro s exponent t h rest hrest
  cases s with
  | nil => cases h
  | cons b s =>
    obtain ⟨⟨digits, tail⟩, hdigits, h⟩ := bind_eq_ok_iff.1 h
    obtain ⟨rfl, rfl⟩ := Prod.mk.inj (Except.ok.inj h)
    have hlong := goesOn_readDigits hdigits hrest
    rw [List.cons_append, readExponent]
    split at hlong
    · rw [if_pos ‹_›, hlong]
      rfl
    · rw [if_neg ‹_›, ← List.cons_append, hlong]
      rfl

theorem readScaled_of_stops (h : Stops s) (negative : Bool) (significand : Nat) (power : Int) :
    readScaled negative significand power s
      = (assemble negative significand power (false, [])).map (·, s) := by
  cases s with
  | nil =>
    rw [readScaled]
    cases assemble negative significand power (false, []) <;> rfl
  | cons b s =>
    rw [readScaled, if_neg (by simp [h.head.2.2])]
    cases assemble negative significand power (false, []) <;> rfl

theorem goesOn_readScaled (negative : Bool) (significand : Nat) (power : Int) :
    GoesOn (readScaled negative significand power) (readScaled negative significand power) := by
  intro s n t h rest hrest
  cases s with
  | nil =>
    rw [readScaled_of_stops stops_nil] at h
    rw [List.nil_append, readScaled_of_stops hrest]
    cases hn : assemble negative significand power (false, []) with
    | error e => rw [hn] at h; cases h
    | ok m =>
      rw [hn] at h
      obtain ⟨rfl, rfl⟩ := Prod.mk.inj (Except.ok.inj h)
      rfl
  | cons b s =>
    rw [readScaled] at h
    rw [List.cons_append, readScaled]
    split at h
    · obtain ⟨⟨exponent, tail⟩, hexponent, h⟩ := bind_eq_ok_iff.1 h
      obtain ⟨m, hm, h⟩ := bind_eq_ok_iff.1 h
      obtain ⟨rfl, rfl⟩ := Prod.mk.inj (Except.ok.inj h)
      rw [if_pos ‹_›, goesOn_readExponent hexponent hrest]
      simp only [bind, Except.bind, hm]
      rfl
    · obtain ⟨m, hm, h⟩ := bind_eq_ok_iff.1 h
      obtain ⟨rfl, rfl⟩ := Prod.mk.inj (Except.ok.inj h)
      rw [if_neg ‹_›, hm]
      rfl

theorem goesOn_readUnsigned (negative : Bool) :
    GoesOn (readUnsigned negative) (readUnsigned negative) := by
  intro s n t h rest hrest
  obtain ⟨⟨digits, behind⟩, hwhole, h⟩ := bind_eq_ok_iff.1 h
  rw [readUnsigned, goesOn_readWhole hwhole hrest]
  rcases habsorb : Decimal.absorb greatestSignificand 0 digits with ⟨significand, dropped⟩
  simp only [bind, Except.bind, habsorb] at h ⊢
  cases behind with
  | nil =>
    -- The short text ends behind its digits; the long one does not go on with the number.
    dsimp only at h
    by_cases hdropped : dropped = []
    · rw [if_pos hdropped] at h
      obtain ⟨rfl, rfl⟩ := Prod.mk.inj (Except.ok.inj h)
      cases rest with
      | nil => simp only [if_pos hdropped]; rfl
      | cons c rest =>
        obtain ⟨-, hpoint, hmark⟩ := hrest.head
        simp [hpoint, hmark, hdropped, pure, Except.pure]
    · rw [if_neg hdropped] at h
      have hlong := goesOn_readScaled negative significand dropped.length h hrest
      rw [List.nil_append] at hlong
      cases rest with
      | nil => simpa [hdropped] using hlong
      | cons c rest =>
        obtain ⟨-, hpoint, -⟩ := hrest.head
        simp [hpoint, hdropped, hlong]
  | cons b behind =>
    simp only [List.cons_append] at h ⊢
    by_cases hpoint : b = ascii '.'
    · rw [if_pos hpoint] at h ⊢
      obtain ⟨⟨fraction, tail⟩, hfraction, h⟩ := bind_eq_ok_iff.1 h
      rw [goesOn_readDigits hfraction hrest]
      exact goesOn_readScaled _ _ _ h hrest
    · rw [if_neg hpoint] at h ⊢
      split at h
      · rw [if_pos ‹_›, ← List.cons_append]
        exact goesOn_readScaled _ _ _ h hrest
      · obtain ⟨rfl, rfl⟩ := Prod.mk.inj (Except.ok.inj h)
        rw [if_neg ‹_›]
        rfl

theorem goesOn_read : GoesOn read read := by
  intro s n t h rest hrest
  cases s with
  | nil => cases h
  | cons b s =>
    rw [read] at h
    rw [List.cons_append, read]
    split at h
    · rw [if_pos ‹_›]
      exact goesOn_readUnsigned true h hrest
    · rw [if_neg ‹_›, ← List.cons_append]
      exact goesOn_readUnsigned false h hrest

/-! ### Skipped numbers -/

theorem skipDigits_append (h : skipDigits s = .ok t) (hrest : Stops rest) :
    skipDigits (s ++ rest) = .ok (t ++ rest) := by
  cases s with
  | nil => cases h
  | cons b s =>
    have hdrop := dropWhile_append hrest (b :: s)
    rw [skipDigits] at h
    rw [List.cons_append] at hdrop ⊢
    rw [skipDigits, hdrop]
    split at h
    · rw [if_pos ‹_›, Except.ok.inj h]
    · cases h

theorem skipExponent_append (h : skipExponent s = .ok t) (hrest : Stops rest) :
    skipExponent (s ++ rest) = .ok (t ++ rest) := by
  cases s with
  | nil =>
    obtain rfl := Except.ok.inj h
    cases rest with
    | nil => rfl
    | cons b rest => simp [skipExponent, hrest.head.2.2]
  | cons b s =>
    unfold skipExponent at h ⊢
    simp only [List.cons_append] at h ⊢
    split at h
    · rw [if_pos ‹_›]
      cases s with
      | nil => cases h
      | cons c digits =>
        have hlong := skipDigits_append h hrest
        simp only [List.cons_append]
        split
        · rwa [if_pos ‹_›] at hlong
        · rwa [if_neg ‹_›] at hlong
    · rw [if_neg ‹_›, ← Except.ok.inj h]
      rfl

theorem skipUnsigned_append (h : skipUnsigned s = .ok t) (hrest : Stops rest) :
    skipUnsigned (s ++ rest) = .ok (t ++ rest) := by
  rw [skipUnsigned] at h ⊢
  simp only [takeWhile_append hrest, dropWhile_append hrest] at h ⊢
  split at h
  · cases h
  · rw [if_neg ‹_›]
    cases hbehind : s.dropWhile isDigit with
    | nil =>
      rw [hbehind] at h
      obtain rfl := Except.ok.inj h
      cases rest with
      | nil => rfl
      | cons b rest =>
        obtain ⟨-, hpoint, hmark⟩ := hrest.head
        simp [if_neg hpoint, skipExponent, hmark]
    | cons b behind =>
      rw [hbehind] at h
      simp only [List.cons_append] at h ⊢
      split at h
      · obtain ⟨tail, hdigits, h⟩ := bind_eq_ok_iff.1 h
        rw [if_pos ‹_›, skipDigits_append hdigits hrest]
        exact skipExponent_append h hrest
      · rw [if_neg ‹_›, ← List.cons_append]
        exact skipExponent_append h hrest

theorem skip_append (h : skip s = .ok t) (hrest : Stops rest) :
    skip (s ++ rest) = .ok (t ++ rest) := by
  cases s with
  | nil => cases h
  | cons b s =>
    rw [skip] at h
    rw [List.cons_append, skip]
    split at h
    · rw [if_pos ‹_›]
      exact skipUnsigned_append h hrest
    · rw [if_neg ‹_›, ← List.cons_append]
      exact skipUnsigned_append h hrest

end Number

/-! ### Items and members -/

theorem goesOn_readItems {item item' : Bytes → Except Failure (α × Bytes)}
    (hitem : GoesOn item item')
    {size size' : Nat} (hsize : size ≤ size') (first : Bool) (read : List α) :
    GoesOn (readItems item size first read) (readItems item' size' first read) := by
  intro s l t h rest hrest
  induction size generalizing size' first read s with
  | zero => cases h
  | succ size ih =>
    obtain ⟨size', rfl⟩ := Nat.exists_eq_add_one.2 (Nat.lt_of_lt_of_le size.succ_pos hsize)
    obtain ⟨turn, hturn, h⟩ := bind_eq_ok_iff.1 h
    have hlong := nextItem_append hturn rest
    cases turn with
    | close behind =>
      obtain ⟨rfl, rfl⟩ := Prod.mk.inj (Except.ok.inj h)
      exact readItems_of_close hlong read
    | more next =>
      obtain ⟨⟨a, behind⟩, ha, h⟩ := bind_eq_ok_iff.1 h
      rw [Turn.append] at hlong
      rw [readItems_of_more hlong, hitem ha hrest]
      exact ih (Nat.le_of_succ_le_succ hsize) false (a :: read) h

theorem goesOn_readMembers {member member' : σ → String → Bytes → Except Failure (σ × Bytes)}
    (hmember : ∀ state name, GoesOn (member state name) (member' state name)) {size size' : Nat}
    (hsize : size ≤ size') (first : Bool) (state : σ) :
    GoesOn (readMembers member size first state) (readMembers member' size' first state) := by
  intro s last t h rest hrest
  induction size generalizing size' first state s with
  | zero => cases h
  | succ size ih =>
    obtain ⟨size', rfl⟩ := Nat.exists_eq_add_one.2 (Nat.lt_of_lt_of_le size.succ_pos hsize)
    obtain ⟨turn, hturn, h⟩ := bind_eq_ok_iff.1 h
    have hlong := nextMember_append hturn rest
    cases turn with
    | close behind =>
      obtain ⟨rfl, rfl⟩ := Prod.mk.inj (Except.ok.inj h)
      exact readMembers_of_close hlong state
    | more next =>
      obtain ⟨⟨name, behind⟩, hname, h⟩ := bind_eq_ok_iff.1 h
      obtain ⟨⟨state', tail⟩, hstate, h⟩ := bind_eq_ok_iff.1 h
      rw [Turn.append] at hlong
      rw [readMembers_of_more hlong (Text.read_append hname rest), hmember _ _ hstate hrest]
      exact ih (Nat.le_of_succ_le_succ hsize) false state' h

/-! ### Skipped values -/

/-- The front of a value in a longer text. -/
def Front.append (rest : Bytes) : Front → Front
  | whole s => whole (s ++ rest)
  | opened bracket s => opened bracket (s ++ rest)

theorem skipFront_append {front : Front} (h : skipFront s = .ok front) (hrest : Number.Stops rest) :
    skipFront (s ++ rest) = .ok (front.append rest) := by
  rw [skipFront] at h ⊢
  cases hs : skipBlanks s with
  | nil => rw [hs] at h; cases h
  | cons b tail =>
    rw [hs] at h
    rw [skipBlanks_append hs]
    simp only at h ⊢
    split at h
    · rw [if_pos ‹_›, ← Except.ok.inj h]; rfl
    rw [if_neg ‹_›]
    split at h
    · rw [if_pos ‹_›, ← Except.ok.inj h]; rfl
    rw [if_neg ‹_›]
    split at h
    · obtain ⟨behind, htext, h⟩ := bind_eq_ok_iff.1 h
      rw [if_pos ‹_›, Text.skip_append htext, ← Except.ok.inj h]; rfl
    rw [if_neg ‹_›]
    split at h
    · obtain ⟨behind, hnumber, h⟩ := bind_eq_ok_iff.1 h
      rw [if_pos ‹_›, ← List.cons_append, Number.skip_append hnumber hrest, ← Except.ok.inj h]; rfl
    rw [if_neg ‹_›]
    split at h
    · obtain ⟨behind, hword, h⟩ := bind_eq_ok_iff.1 h
      rw [if_pos ‹_›, literal_append_of_ok hword, ← Except.ok.inj h]; rfl
    rw [if_neg ‹_›]
    split at h
    · obtain ⟨behind, hword, h⟩ := bind_eq_ok_iff.1 h
      rw [if_pos ‹_›, literal_append_of_ok hword, ← Except.ok.inj h]; rfl
    rw [if_neg ‹_›]
    split at h
    · obtain ⟨behind, hword, h⟩ := bind_eq_ok_iff.1 h
      rw [if_pos ‹_›, literal_append_of_ok hword, ← Except.ok.inj h]; rfl
    · cases h

theorem skipTurn_append {bracket : Bracket} {first : Bool} {turn : Turn}
    (h : skipTurn bracket first s = .ok turn) (rest : Bytes) :
    skipTurn bracket first (s ++ rest) = .ok (turn.append rest) := by
  cases bracket with
  | array => exact nextItem_append h rest
  | object =>
    obtain ⟨next, hnext, h⟩ := bind_eq_ok_iff.1 h
    have hlong := nextMember_append hnext rest
    rw [skipTurn, hlong]
    cases next with
    | close behind => rw [← Except.ok.inj h]; rfl
    | more key =>
      obtain ⟨behind, hkey, h⟩ := bind_eq_ok_iff.1 h
      obtain ⟨value, hvalue, h⟩ := bind_eq_ok_iff.1 h
      rw [← Except.ok.inj h]
      simp only [Turn.append, bind, Except.bind, Text.skip_append hkey, expect_append hvalue]
      rfl

theorem skipOpen_nil (size : Nat) (first : Bool) (s : Bytes) :
    skipOpen size [] first s = .ok s := by
  cases size <;> rfl

/-- Skips a value and what is open behind it. -/
def skipValue (size : Nat) (brackets : List Bracket) (s : Bytes) : Except Failure Bytes := do
  match ← skipFront s with
  | .whole rest => skipOpen size brackets false rest
  | .opened inner rest => skipOpen size (inner :: brackets) true rest

theorem skip_eq_skipValue (size : Nat) (s : Bytes) : skip size s = skipValue size [] s := by
  rw [skip, skipValue]
  cases skipFront s with
  | error e => rfl
  | ok front => cases front with
    | whole rest => exact (skipOpen_nil size false rest).symm
    | opened bracket rest => rfl

theorem skipOpen_of_close {size : Nat} {bracket : Bracket} {outer : List Bracket} {first : Bool}
    (h : skipTurn bracket first s = .ok (.close t)) :
    skipOpen (size + 1) (bracket :: outer) first s = skipOpen size outer false t := by
  rw [skipOpen, h]
  rfl

theorem skipOpen_of_more {size : Nat} {bracket : Bracket} {outer : List Bracket} {first : Bool}
    (h : skipTurn bracket first s = .ok (.more t)) :
    skipOpen (size + 1) (bracket :: outer) first s = skipValue size (bracket :: outer) t := by
  rw [skipOpen, h]
  rfl

theorem skipOpen_append {size size' : Nat} (hsize : size ≤ size') {brackets : List Bracket}
    {first : Bool} (h : skipOpen size brackets first s = .ok t) (hrest : Number.Stops rest) :
    skipOpen size' brackets first (s ++ rest) = .ok (t ++ rest) := by
  induction size generalizing size' brackets first s with
  | zero =>
    cases brackets with
    | nil => rw [skipOpen_nil, ← Except.ok.inj h]
    | cons => cases h
  | succ size ih =>
    cases brackets with
    | nil => rw [skipOpen_nil, ← Except.ok.inj h]
    | cons bracket outer =>
      obtain ⟨size', rfl⟩ := Nat.exists_eq_add_one.2 (Nat.lt_of_lt_of_le size.succ_pos hsize)
      have hsize' := Nat.le_of_succ_le_succ hsize
      obtain ⟨turn, hturn, h⟩ := bind_eq_ok_iff.1 h
      have hlong := skipTurn_append hturn rest
      cases turn with
      | close behind =>
        rw [skipOpen_of_close hlong]
        exact ih hsize' h
      | more next =>
        obtain ⟨front, hfront, h⟩ := bind_eq_ok_iff.1 h
        rw [skipOpen_of_more hlong, skipValue, skipFront_append hfront hrest]
        cases front with
        | whole behind => exact ih hsize' h
        | opened inner behind => exact ih hsize' h

/-- What is skipped in a text is skipped in a longer one. -/
theorem skip_append {size size' : Nat} (hsize : size ≤ size') (h : skip size s = .ok t)
    (hrest : Number.Stops rest) : skip size' (s ++ rest) = .ok (t ++ rest) := by
  obtain ⟨front, hfront, h⟩ := bind_eq_ok_iff.1 h
  rw [skip, skipFront_append hfront hrest]
  cases front with
  | whole behind => rw [← Except.ok.inj h]; rfl
  | opened bracket behind => exact skipOpen_append hsize h hrest

end Json

end KeyVault
