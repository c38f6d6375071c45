import KeyVault.Proofs.Json.Streams
import KeyVault.Proofs.Records

/-!
# Readers of values in longer texts

The readers of all types that are exchanged skip blanks before a value, and read it from every text
that goes on behind it, wherever enough arrays and objects may be opened.

## Main definitions

- `Json.Streams` — a reader that does so

## Main statements

- `Json.Streams.list`, `Json.Record.streams` — lists and records of such values
- `Json.Streams.exists_read` — what is decoded as a whole text is read inside of a longer one
-/

namespace KeyVault

namespace Json

open Bytes (ascii)

variable {α β : Type} {s t rest : Bytes}

/-- A reader of values skips blanks, begins with no closing bracket, and reads what it has read from
every longer text as well, wherever `depth` more arrays and objects may be opened. -/
structure Streams (depth : Nat) (read : Limits → Bytes → Except Failure (α × Bytes)) : Prop where
  skips : ∀ limits s, read limits (skipBlanks s) = read limits s
  ended : ∀ limits, read limits [] = .error .ended
  opens : ∀ {limits s a rest}, read limits (ascii ']' :: s) ≠ .ok (a, rest)
  goesOn : ∀ {limits limits'}, depth ≤ limits'.depth → limits.size ≤ limits'.size →
    GoesOn (read limits) (read limits')

namespace Streams

variable {depth : Nat} {read : Limits → Bytes → Except Failure (α × Bytes)} {limits : Limits}

theorem begins (h : Streams depth read) {a : α} (hread : read limits s = .ok (a, rest)) :
    Begins (skipBlanks s) := by
  rw [← h.skips] at hread
  cases hs : skipBlanks s with
  | nil =>
    rw [hs, h.ended] at hread
    cases hread
  | cons b t =>
    refine ⟨b, t, rfl, isBlank_of_skipBlanks hs, ?_⟩
    rintro rfl
    rw [hs] at hread
    exact h.opens hread

theorem mono {depth' : Nat} (h : Streams depth read) (hle : depth ≤ depth') :
    Streams depth' read :=
  ⟨h.skips, h.ended, h.opens, fun hdepth => h.goesOn (Nat.le_trans hle hdepth)⟩

theorem map (h : Streams depth read) (f : α → β) :
    Streams depth fun limits s => read limits s >>= fun (a, rest) => pure (f a, rest) := by
  refine ⟨fun limits s => ?_, fun limits => ?_, fun hread => ?_, fun hdepth hsize => ?_⟩
  · simp only [h.skips]
  · simp only [h.ended]
    rfl
  · obtain ⟨⟨a, behind⟩, ha, -⟩ := bind_eq_ok_iff.1 hread
    exact h.opens ha
  · intro s b t hread rest hrest
    obtain ⟨⟨a, behind⟩, ha, hread⟩ := bind_eq_ok_iff.1 hread
    obtain ⟨rfl, rfl⟩ := Prod.mk.inj (Except.ok.inj hread)
    simp only [h.goesOn hdepth hsize ha hrest]
    rfl

end Streams

/-! ### Scalars -/

theorem mismatch_skipBlanks (s : Bytes) : mismatch (skipBlanks s) = mismatch s := by
  simp only [mismatch, skipBlanks_skipBlanks]

theorem streams_bool : Streams 0 fun _ => readBool := by
  refine ⟨fun _ s => ?_, fun _ => rfl, nofun, fun _ _ => ?_⟩
  · simp only [readBool, skipBlanks_skipBlanks, mismatch_skipBlanks]
  · intro s b t h rest hrest
    rw [readBool] at h ⊢
    cases hs : skipBlanks s with
    | nil => rw [hs] at h; cases h
    | cons c tail =>
      rw [hs] at h
      rw [skipBlanks_append hs]
      simp only at h ⊢
      split at h
      · obtain ⟨behind, hword, h⟩ := bind_eq_ok_iff.1 h
        obtain ⟨rfl, rfl⟩ := Prod.mk.inj (Except.ok.inj h)
        rw [if_pos ‹_›, literal_append_of_ok hword]
        rfl
      rw [if_neg ‹_›]
      split at h
      · obtain ⟨behind, hword, h⟩ := bind_eq_ok_iff.1 h
        obtain ⟨rfl, rfl⟩ := Prod.mk.inj (Except.ok.inj h)
        rw [if_pos ‹_›, literal_append_of_ok hword]
        rfl
      · cases h

theorem streams_string : Streams 0 fun _ => readString := by
  refine ⟨fun _ s => ?_, fun _ => rfl, nofun, fun _ _ => ?_⟩
  · simp only [readString, skipBlanks_skipBlanks, mismatch_skipBlanks]
  · intro s text t h rest hrest
    rw [readString] at h ⊢
    cases hs : skipBlanks s with
    | nil => rw [hs] at h; cases h
    | cons c tail =>
      rw [hs] at h
      rw [skipBlanks_append hs]
      simp only at h ⊢
      split at h
      · rw [if_pos ‹_›, Text.read_append h]
      · cases h

theorem streams_nat (bound : Nat) : Streams 0 fun _ => readNat bound := by
  refine ⟨fun _ s => ?_, fun _ => rfl, nofun, fun _ _ => ?_⟩
  · simp only [readNat, skipBlanks_skipBlanks, mismatch_skipBlanks]
  · intro s n t h rest hrest
    rw [readNat] at h ⊢
    cases hs : skipBlanks s with
    | nil => rw [hs] at h; cases h
    | cons c tail =>
      rw [hs] at h
      rw [skipBlanks_append hs]
      simp only at h ⊢
      split at h
      · obtain ⟨⟨number, behind⟩, hnumber, h⟩ := bind_eq_ok_iff.1 h
        rw [if_pos ‹_›, ← List.cons_append, Number.goesOn_read hnumber hrest]
        cases number with
        | float x => cases h
        | whole k => cases k with
          | negSucc k => cases h
          | ofNat k =>
            simp only [bind, Except.bind] at h ⊢
            split at h
            · obtain ⟨rfl, rfl⟩ := Prod.mk.inj (Except.ok.inj h)
              rw [if_pos ‹_›]
              rfl
            · cases h
      · cases h

theorem streams_byte : Streams 0 (Codec.read : Limits → Bytes → Except Failure (UInt8 × Bytes)) :=
  (streams_nat _).map Nat.toUInt8

theorem streams_word : Streams 0 (Codec.read : Limits → Bytes → Except Failure (UInt32 × Bytes)) :=
  (streams_nat _).map Nat.toUInt32

theorem readNull_append (h : readNull s = .ok t) (rest : Bytes) :
    readNull (s ++ rest) = .ok (t ++ rest) := by
  rw [readNull] at h ⊢
  cases hs : skipBlanks s with
  | nil => rw [hs] at h; cases h
  | cons c tail =>
    rw [hs] at h
    rw [skipBlanks_append hs]
    simp only at h ⊢
    split at h
    · rw [if_pos ‹_›, literal_append_of_ok h]
    · cases h

/-! ### Lists -/

theorem Limits.size_of_enter {limits inner : Limits} (h : limits.enter = .ok inner) :
    inner.size = limits.size := by
  obtain ⟨size, depth⟩ := limits
  cases depth with
  | zero => cases h
  | succ depth => rw [← Except.ok.inj h]

theorem Streams.list {depth : Nat} {item : Limits → Bytes → Except Failure (α × Bytes)}
    (h : Streams depth item) : Streams (depth + 1) (readList item) := by
  refine ⟨fun _ s => ?_, fun _ => rfl, nofun, fun hdepth hsize => ?_⟩
  · simp only [readList, skipBlanks_skipBlanks, mismatch_skipBlanks]
  · intro s l t hread rest hrest
    rw [readList] at hread ⊢
    cases hs : skipBlanks s with
    | nil => rw [hs] at hread; cases hread
    | cons c tail =>
      rw [hs] at hread
      rw [skipBlanks_append hs]
      simp only at hread ⊢
      split at hread
      · obtain ⟨inner, henter, hread⟩ := bind_eq_ok_iff.1 hread
        obtain ⟨inner', henter', hinner, hsame⟩ := Limits.exists_enter hdepth
        have hsize' := hsize
        rw [← Limits.size_of_enter henter, ← hsame] at hsize'
        rw [if_pos ‹_›, henter']
        exact goesOn_readItems (h.goesOn hinner hsize') hsize true [] hread hrest
      · cases hread

/-! ### Records -/

namespace Record

variable {depth : Nat} {fields : List Field} {limits limits' : Limits} {name : String}

/-- The readers of all fields are such readers. -/
def FieldsStream (depth : Nat) (fields : List Field) : Prop :=
  ∀ f ∈ fields, Streams depth f.codec.read

theorem FieldsStream.nil : FieldsStream depth [] := List.forall_mem_nil _

theorem FieldsStream.cons {f : Field} (hf : Streams depth f.codec.read)
    (h : FieldsStream depth fields) : FieldsStream depth (f :: fields) :=
  List.forall_mem_cons.2 ⟨hf, h⟩

theorem readField_eq_none_iff {draft : Draft fields} :
    readField limits name fields draft s = none ↔ name ∉ fields.map Field.name := by
  induction fields with
  | nil => simp [readField]
  | cons f fields ih =>
    obtain ⟨slot, draft⟩ := draft
    by_cases hname : name = f.name
    · cases slot <;> simp [readField, hname]
    · simp [readField, hname, ih]

theorem goesOn_readField (h : FieldsStream depth fields) (hdepth : depth ≤ limits'.depth)
    (hsize : limits.size ≤ limits'.size) {draft last : Draft fields}
    (hread : readField limits name fields draft s = some (.ok (last, t)))
    (hrest : Number.Stops rest) :
    readField limits' name fields draft (s ++ rest) = some (.ok (last, t ++ rest)) := by
  induction fields with
  | nil => cases hread
  | cons f fields ih =>
    obtain ⟨hf, hfields⟩ := List.forall_mem_cons.1 h
    obtain ⟨slot, draft⟩ := draft
    by_cases hname : name = f.name
    · cases slot with
      | some _ =>
        simp only [readField, if_pos hname] at hread
        cases Option.some.inj hread
      | none =>
        simp only [readField, if_pos hname] at hread ⊢
        obtain ⟨behind, hcolon, hread⟩ := bind_eq_ok_iff.1 (Option.some.inj hread)
        obtain ⟨⟨value, tail⟩, hvalue, hread⟩ := bind_eq_ok_iff.1 hread
        obtain ⟨rfl, rfl⟩ := Prod.mk.inj (Except.ok.inj hread)
        simp only [expect_append hcolon, bind, Except.bind, hf.goesOn hdepth hsize hvalue hrest]
        rfl
    · simp only [readField, if_neg hname] at hread ⊢
      obtain ⟨reading, hreading, hread⟩ := Option.map_eq_some_iff.1 hread
      obtain ⟨⟨others, tail⟩, rfl, hread⟩ := bind_eq_ok_iff.1 hread
      obtain ⟨rfl, rfl⟩ := Prod.mk.inj (Except.ok.inj hread)
      rw [ih hfields hreading]
      rfl

theorem goesOn_readMember (h : FieldsStream depth fields) (hdepth : depth ≤ limits'.depth)
    (hsize : limits.size ≤ limits'.size) (draft : Draft fields) (name : String) :
    GoesOn (readMember fields limits draft name) (readMember fields limits' draft name) := by
  intro s last t hread rest hrest
  rw [readMember] at hread ⊢
  cases hfield : readField limits name fields draft s with
  | some reading =>
    rw [hfield] at hread
    subst hread
    rw [goesOn_readField h hdepth hsize hfield hrest]
  | none =>
    rw [hfield] at hread
    rw [readField_eq_none_iff.2 (readField_eq_none_iff.1 hfield)]
    obtain ⟨value, hcolon, hread⟩ := bind_eq_ok_iff.1 hread
    obtain ⟨behind, hskip, hread⟩ := bind_eq_ok_iff.1 hread
    obtain ⟨rfl, rfl⟩ := Prod.mk.inj (Except.ok.inj hread)
    simp only [expect_append hcolon, bind, Except.bind, skip_append hsize hskip hrest]
    rfl

theorem goesOn_readObject (h : FieldsStream depth fields) (hdepth : depth ≤ limits'.depth)
    (hsize : limits.size ≤ limits'.size) :
    GoesOn (readObject fields limits) (readObject fields limits') := by
  intro s row t hread rest hrest
  obtain ⟨⟨draft, behind⟩, hmembers, hread⟩ := bind_eq_ok_iff.1 hread
  have hlong := goesOn_readMembers (goesOn_readMember h hdepth hsize) hsize true _ hmembers hrest
  simp only [readObject, hlong, bind, Except.bind]
  simp only at hread
  cases hrow : draft.finish fields with
  | none => rw [hrow] at hread; cases hread
  | some last =>
    rw [hrow] at hread
    obtain ⟨rfl, rfl⟩ := Prod.mk.inj (Except.ok.inj hread)
    rfl

theorem goesOn_readArray (h : FieldsStream depth fields) (hdepth : depth ≤ limits'.depth)
    (hsize : limits.size ≤ limits'.size) (first : Bool) :
    GoesOn (readArray limits fields first) (readArray limits' fields first) := by
  intro s row t hread rest hrest
  induction fields generalizing first s with
  | nil =>
    obtain ⟨behind, hclose, hread⟩ := bind_eq_ok_iff.1 hread
    obtain ⟨rfl, rfl⟩ := Prod.mk.inj (Except.ok.inj hread)
    rw [readArray, expect_append hclose]
    rfl
  | cons f fields ih =>
    obtain ⟨hf, hfields⟩ := List.forall_mem_cons.1 h
    obtain ⟨turn, hturn, hread⟩ := bind_eq_ok_iff.1 hread
    rw [readArray, nextItem_append hturn]
    cases turn with
    | close behind =>
      simp only at hread
      simp only [Turn.append, bind, Except.bind]
      cases hrow : (Draft.empty (f :: fields)).finish (f :: fields) with
      | none => rw [hrow] at hread; cases hread
      | some last =>
        rw [hrow] at hread
        obtain ⟨rfl, rfl⟩ := Prod.mk.inj (Except.ok.inj hread)
        rfl
    | more item =>
      obtain ⟨⟨value, tail⟩, hvalue, hread⟩ := bind_eq_ok_iff.1 hread
      obtain ⟨⟨others, behind⟩, hothers, hread⟩ := bind_eq_ok_iff.1 hread
      obtain ⟨rfl, rfl⟩ := Prod.mk.inj (Except.ok.inj hread)
      simp only [Turn.append, bind, Except.bind, hf.goesOn hdepth hsize hvalue hrest,
        ih hfields false hothers]
      rfl

/-- Records are read in longer texts if their fields are. -/
theorem streams {α : Type} [Record α] (h : FieldsStream depth (Record.fields α)) :
    Streams (depth + 1) (Record.read : Limits → Bytes → Except Failure (α × Bytes)) := by
  refine ⟨fun _ s => ?_, fun _ => rfl, nofun, fun hdepth hsize => ?_⟩
  · simp only [Record.read, skipBlanks_skipBlanks, mismatch_skipBlanks]
  · intro s a t hread rest hrest
    obtain ⟨inner', henter', hinner, hsame⟩ := Limits.exists_enter hdepth
    rw [Record.read] at hread ⊢
    cases hs : skipBlanks s with
    | nil => rw [hs] at hread; cases hread
    | cons c tail =>
      rw [hs] at hread
      rw [skipBlanks_append hs]
      simp only at hread ⊢
      split at hread
      · obtain ⟨inner, henter, hread⟩ := bind_eq_ok_iff.1 hread
        obtain ⟨⟨row, behind⟩, hrow, hread⟩ := bind_eq_ok_iff.1 hread
        obtain ⟨rfl, rfl⟩ := Prod.mk.inj (Except.ok.inj hread)
        rw [← Limits.size_of_enter henter, ← hsame] at hsize
        rw [if_pos ‹_›, henter']
        simp only [bind, Except.bind, goesOn_readObject h hinner hsize hrow hrest]
        rfl
      rw [if_neg ‹_›]
      split at hread
      · obtain ⟨inner, henter, hread⟩ := bind_eq_ok_iff.1 hread
        obtain ⟨⟨row, behind⟩, hrow, hread⟩ := bind_eq_ok_iff.1 hread
        obtain ⟨rfl, rfl⟩ := Prod.mk.inj (Except.ok.inj hread)
        rw [← Limits.size_of_enter henter, ← hsame] at hsize
        rw [if_pos ‹_›, henter']
        simp only [bind, Except.bind, goesOn_readArray h hinner hsize true hrow hrest]
        rfl
      · cases hread

end Record

/-! ### Whole texts -/

theorem decode_eq_ok_iff [Codec α] {text : Bytes} {a : α} :
    decode text = .ok a ↔
      ∃ gap, Blank gap ∧ Codec.read ⟨text.length + 1, greatestDepth⟩ text = .ok (a, gap) := by
  rw [decode, decodeWithin]
  constructor
  · intro h
    obtain ⟨⟨a', gap⟩, hread, h⟩ := bind_eq_ok_iff.1 h
    simp only at h
    split at h
    · obtain rfl := Except.ok.inj h
      exact ⟨gap, skipBlanks_eq_nil_iff.1 ‹_›, hread⟩
    · cases h
  · rintro ⟨gap, hgap, hread⟩
    simp only [hread, bind, Except.bind, skipBlanks_eq_nil_iff.2 hgap]
    rfl

theorem Streams.blank_append {depth : Nat} {read : Limits → Bytes → Except Failure (α × Bytes)}
    (h : Streams depth read) (limits : Limits) {gap : Bytes} (hgap : Blank gap) (s : Bytes) :
    read limits (gap ++ s) = read limits s := by
  rw [← h.skips, skipBlanks_blank_append hgap, h.skips]

/-- What is decoded as a whole text is read inside of a longer one, up to the blanks behind it. -/
theorem Streams.exists_read [Codec α] {depth : Nat}
    (h : Streams depth (Codec.read : Limits → Bytes → Except Failure (α × Bytes))) {text : Bytes}
    {a : α} (hdecode : decode text = .ok a) {limits : Limits} (hdepth : depth ≤ limits.depth)
    (hsize : text.length < limits.size) (hrest : Number.Stops rest) :
    ∃ trail, Blank trail ∧ Codec.read limits (text ++ rest) = .ok (a, trail ++ rest) ∧
      Begins (skipBlanks (text ++ rest)) := by
  obtain ⟨trail, htrail, hread⟩ := decode_eq_ok_iff.1 hdecode
  have hlong := h.goesOn hdepth (Nat.succ_le_of_lt hsize) hread hrest
  exact ⟨trail, htrail, hlong, h.begins hlong⟩

end Json

/-! ### Exchanged types -/

open Json Json.Record

theorem streams_dataType : Streams 1 DataType.read := by
  refine ⟨fun _ s => ?_, fun _ => rfl, nofun, fun hdepth hsize => ?_⟩
  · simp only [DataType.read, skipBlanks_skipBlanks]
  · intro s a t hread rest hrest
    rw [DataType.read] at hread ⊢
    cases hs : skipBlanks s with
    | nil => rw [hs] at hread; cases hread
    | cons c tail =>
      rw [hs] at hread
      rw [skipBlanks_append hs]
      simp only at hread ⊢
      split at hread
      · obtain ⟨⟨name, behind⟩, hname, hread⟩ := bind_eq_ok_iff.1 hread
        obtain ⟨type, htype, hread⟩ := bind_eq_ok_iff.1 hread
        obtain ⟨rfl, rfl⟩ := Prod.mk.inj (Except.ok.inj hread)
        rw [if_pos ‹_›]
        simp only [Text.read_append hname, bind, Except.bind, htype]
        rfl
      rw [if_neg ‹_›]
      split at hread
      · obtain ⟨inner', henter', -⟩ := Limits.exists_enter hdepth
        obtain ⟨inner, -, hread⟩ := bind_eq_ok_iff.1 hread
        obtain ⟨key, hquote, hread⟩ := bind_eq_ok_iff.1 hread
        obtain ⟨⟨name, behind⟩, hname, hread⟩ := bind_eq_ok_iff.1 hread
        obtain ⟨type, htype, hread⟩ := bind_eq_ok_iff.1 hread
        obtain ⟨value, hcolon, hread⟩ := bind_eq_ok_iff.1 hread
        obtain ⟨last, hnull, hread⟩ := bind_eq_ok_iff.1 hread
        obtain ⟨end', hclose, hread⟩ := bind_eq_ok_iff.1 hread
        obtain ⟨rfl, rfl⟩ := Prod.mk.inj (Except.ok.inj hread)
        rw [if_pos ‹_›]
        simp only [henter', expect_append hquote, Text.read_append hname, bind, Except.bind, htype,
          expect_append hcolon, readNull_append hnull, expect_append hclose]
        rfl
      · cases hread

theorem streams_dataTypeSet :
    Streams 2 (Codec.read : Limits → Bytes → Except Failure (DataTypeSet × Bytes)) :=
  streams_dataType.list.map DataTypeSet.ofList

theorem streams_bytes : Streams 1 (Codec.read : Limits → Bytes → Except Failure (Bytes × Bytes)) :=
  streams_byte.list

theorem streams_text : Streams 1 (Codec.read : Limits → Bytes → Except Failure (String × Bytes)) :=
  streams_string.mono (by decide)

/-! ### Exchanged records -/

theorem fieldsStream_keyMaterial : FieldsStream 1 (Record.fields KeyMaterial) :=
  .cons streams_bytes <| .cons streams_bytes <| .cons streams_bytes .nil

theorem fieldsStream_keyEntry : FieldsStream 1 (Record.fields KeyEntry) :=
  .cons streams_text <| .cons streams_bytes <| .cons streams_bytes <| .cons streams_bytes .nil

theorem fieldsStream_keyBag : FieldsStream 3 (Record.fields KeyBag) :=
  .cons (Record.streams fieldsStream_keyEntry).list .nil

theorem fieldsStream_envelope : FieldsStream 1 (Record.fields Envelope) :=
  .cons streams_text <| .cons streams_bytes .nil

theorem fieldsStream_credentials : FieldsStream 0 (Record.fields Credentials) :=
  .cons streams_string <| .cons streams_string <| .cons streams_string .nil

theorem fieldsStream_stretchCost : FieldsStream 0 (Record.fields StretchCost) :=
  .cons streams_word <| .cons streams_word <| .cons streams_word .nil

theorem streams_stretchCost :
    Streams 1 (Codec.read : Limits → Bytes → Except Failure (StretchCost × Bytes)) :=
  Record.streams fieldsStream_stretchCost

theorem fieldsStream_settings : FieldsStream 1 (Record.fields Settings) :=
  .cons streams_stretchCost <| .cons streams_text <| .cons streams_text <|
    .cons streams_text .nil

theorem streams_envelope :
    Streams 2 (Codec.read : Limits → Bytes → Except Failure (Envelope × Bytes)) :=
  Record.streams fieldsStream_envelope

theorem fieldsStream_node : FieldsStream 2 (Record.fields Node) :=
  .cons streams_envelope <| .cons streams_dataTypeSet <|
    .cons (streams_bool.mono (by decide)) .nil

end KeyVault
