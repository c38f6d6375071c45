import KeyVault.Proofs.Json.Streams
import KeyVault.Proofs.Json.Value

/-!
# Compact texts are skipped

The grammar of JSON texts without blanks, with every spelling of strings and numbers, at any depth.
A reader that skips a value passes such a text by, whatever stands behind it: each round of its loop
takes at least one byte, so the size of the text is enough for all of them.

## Main definitions

- `Json.Text.Body`, `Json.Number.IsNumber`, `Json.IsText` — strings, numbers and all values

## Main statements

- `Json.skip_of_isText` — a compact text is skipped
- `Json.Value.isText_write` — a written value is a compact text
-/

namespace KeyVault

namespace Json

open Bytes (ascii)
open Decimal (isDigit)

/-! ### Strings -/

namespace Text

/-- What can stand between the quotes of a string. -/
inductive Body : Bytes → Prop
  | nil : Body []
  | plain {b : UInt8} {s : Bytes} (hquote : b ≠ ascii '"') (hslash : b ≠ ascii '\\')
    (hcontrol : ¬ b < 0x20) (h : Body s) : Body (b :: s)
  | escape {letter b : UInt8} {s : Bytes} (hletter : escaped? letter = some b) (h : Body s) :
    Body (ascii '\\' :: letter :: s)
  /-- Surrogates need not come in pairs. -/
  | unit {i j k l : UInt8} {n : Nat} {s : Bytes} (hdigits : hexNumber? [i, j, k, l] = some n)
    (h : Body s) : Body (ascii '\\' :: ascii 'u' :: i :: j :: k :: l :: s)

theorem scan_unit {i j k l : UInt8} {n : Nat} (h : hexNumber? [i, j, k, l] = some n)
    (read s : Bytes) :
    scan false .plain read (ascii '\\' :: ascii 'u' :: i :: j :: k :: l :: s)
      = scan false .plain read s := by
  have hlast : step false (.hex none [i, j, k]) l = .more .plain [] := by simp [step, h]
  rw [scan_of_more (show step false .plain (ascii '\\') = .more .escape [] from rfl),
    scan_of_more (show step false .escape (ascii 'u') = .more (.hex none []) [] from rfl),
    scan_of_more (show step false (.hex none []) i = .more (.hex none [i]) [] from rfl),
    scan_of_more (show step false (.hex none [i]) j = .more (.hex none [i, j]) [] from rfl),
    scan_of_more (show step false (.hex none [i, j]) k = .more (.hex none [i, j, k]) [] from rfl),
    scan_of_more hlast]
  rfl

theorem skip_body {body : Bytes} (h : Body body) (rest : Bytes) :
    skip (body ++ ascii '"' :: rest) = .ok rest := by
  suffices hscan : ∀ read, ∃ bytes,
      scan false .plain read (body ++ ascii '"' :: rest) = .ok (bytes, rest) by
    obtain ⟨bytes, hscan⟩ := hscan []
    rw [skip, hscan]
    rfl
  induction h with
  | nil => exact fun read => ⟨read.reverse, scan_of_close rfl read rest⟩
  | plain hquote hslash hcontrol _ ih =>
    intro read
    rw [List.cons_append, scan_of_more (step_plain hquote hslash hcontrol false)]
    exact ih _
  | escape hletter _ ih =>
    intro read
    rw [List.cons_append, List.cons_append, scan_escape hletter]
    exact ih _
  | unit hdigits _ ih =>
    intro read
    simp only [List.cons_append]
    rw [scan_unit hdigits]
    exact ih read

/-- A written string stands between its quotes. -/
theorem body_flatMap_writeByte (bytes : Bytes) : Body (bytes.flatMap writeByte) := by
  induction bytes with
  | nil => exact .nil
  | cons b bytes ih =>
    rw [List.flatMap_cons]
    rcases writeByte_cases b with ⟨letter, hletter, hb⟩ | ⟨hn, hb⟩ | ⟨hquote, hslash, hcontrol, hb⟩
    · rw [hb]
      exact .escape hletter ih
    · rw [hb]
      exact .unit (hexNumber?_control _ hn) ih
    · rw [hb]
      exact .plain hquote hslash hcontrol ih

end Text

/-! ### Numbers -/

namespace Number

def IsDigits (s : Bytes) : Prop := s ≠ [] ∧ ∀ b ∈ s, isDigit b = true

/-- The digits of a whole part: a zero stands alone. -/
def IsWholePart (s : Bytes) : Prop := IsDigits s ∧ (s.head? = some (ascii '0') → s.length = 1)

def IsFraction (s : Bytes) : Prop := s = [] ∨ ∃ digits, s = ascii '.' :: digits ∧ IsDigits digits

def IsExponent (s : Bytes) : Prop :=
  s = [] ∨ ∃ mark sign digits, s = mark :: (sign ++ digits) ∧ isExponentMark mark = true ∧
    (sign = [] ∨ sign = [ascii '+'] ∨ sign = [ascii '-']) ∧ IsDigits digits

/-- The text of a number. -/
def IsNumber (s : Bytes) : Prop :=
  ∃ sign whole fraction exponent, s = sign ++ (whole ++ (fraction ++ exponent)) ∧
    (sign = [] ∨ sign = [ascii '-']) ∧ IsWholePart whole ∧ IsFraction fraction ∧
    IsExponent exponent

/-- No digit stands at the front of a text. -/
def NoDigit (s : Bytes) : Prop := ∀ b ∈ s.head?, isDigit b = false

theorem Stops.noDigit {rest : Bytes} (h : Stops rest) : NoDigit rest := by
  cases rest with
  | nil => simp [NoDigit]
  | cons b rest => simpa [NoDigit] using h.head.1

theorem IsDigits.split {digits : Bytes} (h : IsDigits digits) {rest : Bytes}
    (hrest : NoDigit rest) :
    (digits ++ rest).takeWhile isDigit = digits ∧ (digits ++ rest).dropWhile isDigit = rest := by
  rw [List.takeWhile_append_of_pos h.2, List.dropWhile_append_of_pos h.2]
  cases rest with
  | nil => simp
  | cons b rest => simp [show isDigit b = false from hrest b rfl]

theorem IsDigits.exists_cons {digits : Bytes} (h : IsDigits digits) :
    ∃ b tail, digits = b :: tail ∧ isDigit b = true := by
  obtain ⟨b, tail, rfl⟩ := List.exists_cons_of_ne_nil h.1
  exact ⟨b, tail, rfl, h.2 b List.mem_cons_self⟩

theorem skipDigits_of_isDigits {digits : Bytes} (h : IsDigits digits) {rest : Bytes}
    (hrest : NoDigit rest) : skipDigits (digits ++ rest) = .ok rest := by
  have hdrop := (h.split hrest).2
  obtain ⟨b, tail, rfl, hb⟩ := h.exists_cons
  rw [List.cons_append] at hdrop ⊢
  rw [skipDigits, if_pos hb, hdrop]

theorem skipExponent_of_isExponent {exponent : Bytes} (h : IsExponent exponent) {rest : Bytes}
    (hrest : Stops rest) : skipExponent (exponent ++ rest) = .ok rest := by
  rcases h with rfl | ⟨mark, sign, digits, rfl, hmark, hsign, hdigits⟩
  · cases rest with
    | nil => rfl
    | cons b rest => simp [skipExponent, hrest.head.2.2]
  · have hskip := skipDigits_of_isDigits hdigits hrest.noDigit
    obtain ⟨b, tail, hcons, hb⟩ := hdigits.exists_cons
    simp only [List.cons_append, List.append_assoc, skipExponent, hmark, if_true]
    rcases hsign with rfl | rfl | rfl
    · have hplus : b ≠ ascii '+' := by rintro rfl; exact absurd hb (by decide)
      have hminus : b ≠ ascii '-' := by rintro rfl; exact absurd hb (by decide)
      rw [hcons] at hskip ⊢
      simpa [hplus, hminus] using hskip
    · simpa using hskip
    · simpa using hskip

theorem isDigit_of_isExponentMark {b : UInt8} (h : isExponentMark b = true) :
    isDigit b = false ∧ b ≠ ascii '.' := by
  have hmark : b = ascii 'e' ∨ b = ascii 'E' := by simpa [isExponentMark] using h
  rcases hmark with rfl | rfl <;> decide

/-- A whole part stops where a fraction or an exponent begins, or the number ends. -/
theorem noDigit_of_isExponent {exponent : Bytes} (h : IsExponent exponent) {rest : Bytes}
    (hrest : Stops rest) : NoDigit (exponent ++ rest) := by
  rcases h with rfl | ⟨mark, sign, digits, rfl, hmark, -⟩
  · exact hrest.noDigit
  · intro b hb
    obtain rfl := Option.some.inj hb
    exact (isDigit_of_isExponentMark hmark).1

theorem noDigit_of_isFraction {fraction exponent : Bytes} (h : IsFraction fraction)
    (hexponent : IsExponent exponent) {rest : Bytes} (hrest : Stops rest) :
    NoDigit (fraction ++ (exponent ++ rest)) := by
  rcases h with rfl | ⟨digits, rfl, -⟩
  · exact noDigit_of_isExponent hexponent hrest
  · intro b hb
    obtain rfl := Option.some.inj hb
    rfl

theorem skipUnsigned_of_isWholePart {whole fraction exponent : Bytes} (hwhole : IsWholePart whole)
    (hfraction : IsFraction fraction) (hexponent : IsExponent exponent) {rest : Bytes}
    (hrest : Stops rest) :
    skipUnsigned (whole ++ (fraction ++ (exponent ++ rest))) = .ok rest := by
  obtain ⟨htake, hdrop⟩ := hwhole.1.split (noDigit_of_isFraction hfraction hexponent hrest)
  have halone : ¬ (whole = [] ∨ whole.head? = some (ascii '0') ∧ whole.length ≠ 1) := by
    rintro (hnil | ⟨hzero, hlength⟩)
    · exact hwhole.1.1 hnil
    · exact hlength (hwhole.2 hzero)
  have hskip := skipExponent_of_isExponent hexponent hrest
  simp only [skipUnsigned, htake, hdrop, if_neg halone]
  rcases hfraction with rfl | ⟨digits, rfl, hdigits⟩
  · rw [List.nil_append]
    cases hbehind : exponent ++ rest with
    | nil =>
      rw [List.append_eq_nil_iff] at hbehind
      rw [hbehind.2]
      rfl
    | cons b behind =>
      rw [hbehind] at hskip
      have hpoint : b ≠ ascii '.' := by
        rcases hexponent with rfl | ⟨mark, sign, digits, rfl, hmark, -⟩
        · obtain rfl : rest = b :: behind := hbehind
          exact hrest.head.2.1
        · obtain rfl : mark = b := (List.cons.inj hbehind).1
          exact (isDigit_of_isExponentMark hmark).2
      simp only [if_neg hpoint, hskip]
  · have hdigits := skipDigits_of_isDigits hdigits (noDigit_of_isExponent hexponent hrest)
    simp only [List.cons_append, if_true, hdigits, bind, Except.bind, hskip]

theorem skip_of_isNumber {text : Bytes} (h : IsNumber text) {rest : Bytes} (hrest : Stops rest) :
    skip (text ++ rest) = .ok rest := by
  obtain ⟨sign, whole, fraction, exponent, rfl, hsign, hwhole, hfraction, hexponent⟩ := h
  have hskip := skipUnsigned_of_isWholePart hwhole hfraction hexponent hrest
  simp only [List.append_assoc]
  rcases hsign with rfl | rfl
  · obtain ⟨b, tail, rfl, hb⟩ := hwhole.1.exists_cons
    have hminus : b ≠ ascii '-' := by rintro rfl; exact absurd hb (by decide)
    rw [List.nil_append, List.cons_append, skip, if_neg hminus]
    exact hskip
  · exact hskip

theorem isNumber_writeInt (n : Int) : IsNumber (writeInt n) := by
  have hwhole : IsWholePart (Decimal.digits n.natAbs) := by
    refine ⟨⟨Decimal.digits_ne_nil _, fun b hb => Decimal.isDigit_of_mem_digits hb⟩,
      fun hzero => ?_⟩
    rw [eq_zero_of_head?_digits hzero, Decimal.digits]
    rfl
  by_cases hn : n < 0
  · exact ⟨[ascii '-'], _, [], [], by simp [writeInt, hn], .inr rfl, hwhole, .inl rfl, .inl rfl⟩
  · exact ⟨[], _, [], [], by simp [writeInt, hn], .inl rfl, hwhole, .inl rfl, .inl rfl⟩

end Number

/-! ### Values -/

/-- The text of a member: its key between quotes, a colon and its value. -/
def memberText (m : Bytes × Bytes) : Bytes := ascii '"' :: (m.1 ++ ascii '"' :: ascii ':' :: m.2)

/-- A JSON text without blanks. -/
inductive IsText : Bytes → Prop
  | null : IsText (Bytes.ofString "null")
  | bool (b : Bool) : IsText (writeBool b)
  | number {text : Bytes} (h : Number.IsNumber text) : IsText text
  | string {body : Bytes} (h : Text.Body body) : IsText (ascii '"' :: (body ++ [ascii '"']))
  | array {items : List Bytes} (h : ∀ text ∈ items, IsText text) : IsText (writeItems items)
  | object {members : List (Bytes × Bytes)} (hkeys : ∀ m ∈ members, Text.Body m.1)
    (h : ∀ m ∈ members, IsText m.2) :
    IsText (ascii '\x7b' :: (commaSeparated (members.map memberText) ++ [ascii '\x7d']))

theorem Number.IsNumber.exists_cons {text : Bytes} (h : Number.IsNumber text) :
    ∃ b tail, text = b :: tail ∧ (b = ascii '-' ∨ isDigit b = true) := by
  obtain ⟨sign, whole, fraction, exponent, rfl, hsign, hwhole, -, -⟩ := h
  rcases hsign with rfl | rfl
  · obtain ⟨b, tail, rfl, hb⟩ := hwhole.1.exists_cons
    exact ⟨b, _, rfl, .inr hb⟩
  · exact ⟨_, _, rfl, .inl rfl⟩

theorem begins_of_isText {text : Bytes} (h : IsText text) : Begins text := by
  cases h with
  | null => exact ⟨_, _, rfl, by decide, by decide⟩
  | bool b => exact (restores_bool b).begins
  | number h =>
    obtain ⟨b, tail, rfl, rfl | hb⟩ := h.exists_cons
    · exact ⟨_, _, rfl, by decide, by decide⟩
    · exact begins_of_isDigit hb tail
  | string h => exact ⟨_, _, rfl, by decide, by decide⟩
  | array h => exact ⟨_, _, rfl, by decide, by decide⟩
  | object hkeys h => exact ⟨_, _, rfl, by decide, by decide⟩

/-! ### Skipping -/

theorem skipOpen_mono {size size' : Nat} (hsize : size ≤ size') {brackets : List Bracket}
    {first : Bool} {s t : Bytes} (h : skipOpen size brackets first s = .ok t) :
    skipOpen size' brackets first s = .ok t := by
  have hlong := skipOpen_append hsize h Number.stops_nil
  rwa [List.append_nil, List.append_nil] at hlong

/-- A text is passed by where enough rounds are left: what stands behind it takes `size` of them. -/
def Skips (text : Bytes) : Prop :=
  ∀ {size size' outer rest last}, Number.Stops rest → skipOpen size outer false rest = .ok last →
    size + text.length ≤ size' + 1 → skipValue size' outer (text ++ rest) = .ok last

theorem skips_of_whole {text : Bytes} (hlength : 0 < text.length)
    (h : ∀ rest, Number.Stops rest → skipFront (text ++ rest) = .ok (.whole rest)) :
    Skips text := by
  intro size size' outer rest last hrest hopen hsize
  rw [skipValue, h rest hrest]
  exact skipOpen_mono (by omega) hopen

theorem skips_of_opened {text : Bytes} (bracket : Bracket) (behind : Bytes)
    (hfront : ∀ rest, skipFront (text ++ rest) = .ok (.opened bracket (behind ++ rest)))
    (hlength : behind.length < text.length)
    (h : ∀ {size size' outer rest last}, skipOpen size outer false rest = .ok last →
      size + behind.length ≤ size' →
      skipOpen size' (bracket :: outer) true (behind ++ rest) = .ok last) : Skips text := by
  intro size size' outer rest last hrest hopen hsize
  rw [skipValue, hfront]
  exact h hopen (by omega)

theorem skipOpen_items {items : List Bytes} (hbegins : ∀ text ∈ items, Begins text)
    (h : ∀ text ∈ items, Skips text) {size size' : Nat} {outer : List Bracket} {rest last : Bytes}
    (hopen : skipOpen size outer false rest = .ok last) (first : Bool)
    (hsize : size + ((separated first items).length + 1) ≤ size') :
    skipOpen size' (.array :: outer) first (separated first items ++ ascii ']' :: rest)
      = .ok last := by
  induction items generalizing size' first with
  | nil =>
    obtain ⟨size', rfl⟩ := Nat.exists_eq_add_one.2 (show 0 < size' by omega)
    have hclose : skipTurn .array first (ascii ']' :: rest) = .ok (.close rest) :=
      nextItem_close first rest
    rw [separated, List.nil_append, skipOpen_of_close hclose]
    exact skipOpen_mono (by simp only [separated, List.length_nil] at hsize; omega) hopen
  | cons text items ih =>
    obtain ⟨htext, hitems⟩ := List.forall_mem_cons.1 h
    obtain ⟨hfirst, hbegins⟩ := List.forall_mem_cons.1 hbegins
    obtain ⟨size', rfl⟩ := Nat.exists_eq_add_one.2 (show 0 < size' by omega)
    have hnext : ∀ behind, skipTurn .array first (separator first ++ (text ++ behind))
        = .ok (.more (text ++ behind)) := by
      exact fun behind => nextItem_separator first (hfirst.append behind)
    rw [separated, List.append_assoc, List.append_assoc, skipOpen_of_more (hnext _)]
    rw [separated, List.length_append, List.length_append] at hsize
    exact htext (stops_separated items (by decide) rest)
      (ih hbegins hitems false (Nat.le_refl _)) (by omega)

theorem skipOpen_members {members : List (Bytes × Bytes)} (hkeys : ∀ m ∈ members, Text.Body m.1)
    (h : ∀ m ∈ members, Skips m.2) {size size' : Nat} {outer : List Bracket} {rest last : Bytes}
    (hopen : skipOpen size outer false rest = .ok last) (first : Bool)
    (hsize : size + ((separated first (members.map memberText)).length + 1) ≤ size') :
    skipOpen size' (.object :: outer) first
      (separated first (members.map memberText) ++ ascii '\x7d' :: rest) = .ok last := by
  induction members generalizing size' first with
  | nil =>
    obtain ⟨size', rfl⟩ := Nat.exists_eq_add_one.2 (show 0 < size' by omega)
    have hclose : skipTurn .object first (ascii '\x7d' :: rest) = .ok (.close rest) := by
      rw [skipTurn, nextMember_close]
      rfl
    rw [List.map_nil, separated, List.nil_append, skipOpen_of_close hclose]
    exact skipOpen_mono (by simp only [List.map_nil, separated, List.length_nil] at hsize; omega)
      hopen
  | cons m members ih =>
    obtain ⟨hm, hmembers⟩ := List.forall_mem_cons.1 h
    obtain ⟨hkey, hkeys⟩ := List.forall_mem_cons.1 hkeys
    obtain ⟨size', rfl⟩ := Nat.exists_eq_add_one.2 (show 0 < size' by omega)
    have hnext : ∀ behind, skipTurn .object first
        (separator first ++ (ascii '"' :: (m.1 ++ ascii '"' :: ascii ':' :: behind)))
          = .ok (.more behind) := by
      intro behind
      rw [skipTurn, nextMember_separator]
      simp only [bind, Except.bind, Text.skip_body hkey,
        expect_cons (show isBlank (ascii ':') = false by decide)]
      rfl
    rw [List.map_cons, separated, List.length_append, List.length_append, memberText,
      List.length_cons, List.length_append, List.length_cons, List.length_cons] at hsize
    simp only [List.map_cons, separated, memberText, List.append_assoc, List.cons_append]
    rw [skipOpen_of_more (hnext _)]
    exact hm (stops_separated _ (by decide) rest)
      (ih hkeys hmembers false (Nat.le_refl _)) (by omega)

theorem skipFront_of_isNumber {text : Bytes} (h : Number.IsNumber text) {rest : Bytes}
    (hrest : Number.Stops rest) : skipFront (text ++ rest) = .ok (.whole rest) := by
  have hskip := Number.skip_of_isNumber h hrest
  have hblanks := skipBlanks_of_begins ((begins_of_isText (.number h)).append rest)
  obtain ⟨b, tail, rfl, hb⟩ := h.exists_cons
  have hfront : b ≠ ascii '[' ∧ b ≠ ascii '\x7b' ∧ b ≠ ascii '"' := by
    refine ⟨?_, ?_, ?_⟩ <;> rintro rfl <;> exact absurd hb (by decide)
  rw [List.cons_append] at hskip hblanks ⊢
  rw [skipFront, hblanks]
  simp only [if_neg hfront.1, if_neg hfront.2.1, if_neg hfront.2.2, if_pos hb, hskip, bind,
    Except.bind]
  rfl

theorem skips_of_isText {text : Bytes} (h : IsText text) : Skips text := by
  induction h with
  | null =>
    refine skips_of_whole (by decide) fun rest _ => ?_
    rw [skipFront]
    rfl
  | bool b =>
    cases b
    · refine skips_of_whole (by decide) fun rest _ => ?_
      rw [skipFront]
      rfl
    · refine skips_of_whole (by decide) fun rest _ => ?_
      rw [skipFront]
      rfl
  | @number text h =>
    refine skips_of_whole ?_ fun rest hrest => skipFront_of_isNumber h hrest
    exact List.length_pos_iff.2 (begins_of_isText (.number h)).ne_nil
  | string h =>
    refine skips_of_whole (by simp) fun rest _ => ?_
    rw [List.cons_append, List.append_assoc, skipFront, skipBlanks_cons (by decide)]
    change (Text.skip _ >>= _) = _
    rw [List.singleton_append, Text.skip_body h]
    rfl
  | @array items h ih =>
    refine skips_of_opened .array (separated true items ++ [ascii ']']) (fun rest => ?_) ?_
      fun hopen hsize => ?_
    · rw [writeItems_append, skipFront, skipBlanks_cons (by decide), List.append_assoc]
      rfl
    · rw [length_writeItems, List.length_append, List.length_singleton]
      exact Nat.lt_succ_self _
    · rw [List.length_append, List.length_singleton] at hsize
      rw [List.append_assoc]
      exact skipOpen_items (fun text hmem => begins_of_isText (h text hmem)) ih hopen true hsize
  | @object members hkeys h ih =>
    refine skips_of_opened .object (separated true (members.map memberText) ++ [ascii '\x7d'])
      (fun rest => ?_) ?_ fun hopen hsize => ?_
    · rw [List.cons_append, skipFront, skipBlanks_cons (by decide), commaSeparated_eq]
      rfl
    · rw [commaSeparated_eq]
      exact Nat.lt_succ_self _
    · rw [List.length_append, List.length_singleton] at hsize
      rw [List.append_assoc]
      exact skipOpen_members hkeys ih hopen true hsize

/-- A compact text of any depth is skipped, with blanks before it and any text behind. -/
theorem skip_of_isText {text : Bytes} (h : IsText text) {gap rest : Bytes} (hgap : Blank gap)
    (hrest : Number.Stops rest) {size : Nat} (hsize : text.length ≤ size + 1) :
    skip size (gap ++ (text ++ rest)) = .ok rest := by
  have hskip : skipValue size [] (text ++ rest) = .ok rest :=
    skips_of_isText h hrest (skipOpen_nil 0 false rest) (by omega)
  rw [skip_eq_skipValue, skipValue, skipFront, skipBlanks_blank_append hgap]
  exact hskip

/-! ### Written values -/

theorem Value.isText_write {v : Value} (h : v.Exact) : IsText v.write := by
  induction h with
  | null => exact .null
  | bool b => exact .bool b
  | number h => rw [write]; exact .number (Number.isNumber_writeInt _)
  | string s => rw [write]; exact .string (Text.body_flatMap_writeByte _)
  | @array items h ih =>
    rw [write, writeEach_eq_map]
    exact .array (List.forall_mem_map.2 ih)
  | @object members hsorted h ih =>
    have hmember : (memberText ∘ fun m : String × Value =>
        ((Bytes.ofString m.1).flatMap Text.writeByte, m.2.write))
          = fun m => writeMember m.1 m.2.write := by
      funext m
      simp [memberText, writeMember, Text.write]
    have htext : write (object members) = ascii '\x7b' :: (commaSeparated ((members.map
        fun m => ((Bytes.ofString m.1).flatMap Text.writeByte, m.2.write)).map memberText)
          ++ [ascii '\x7d']) := by
      rw [write, writeMemberEach_eq_map, List.map_map, hmember, writeMembers, List.map_map]
      rfl
    rw [htext]
    exact .object (List.forall_mem_map.2 fun m _ => Text.body_flatMap_writeByte _)
      (List.forall_mem_map.2 ih)

end Json

end KeyVault
