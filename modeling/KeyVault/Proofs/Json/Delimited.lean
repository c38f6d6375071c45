import KeyVault.Proofs.Json.Cut
import KeyVault.Proofs.Json.Record
import KeyVault.Proofs.Json.Streams

/-!
# Texts that show where they end

The text of a list or a record ends with the bracket that it begins with. So it is read whatever
stands behind it, and where its end is missing the reader asks for more; it never takes a part of it
for another value. The texts of single values need not be like that, since a number may be part of
another one, but where one of them is cut off nothing is left for what should follow.

## Main definitions

- `Json.Starves` — every cut of the text of a value runs out
- `Json.Delimited` — the text of a value shows where it ends
- `Json.SelfDelimiting` — so do the texts of all values of a type, when they are decoded

## Main statements

- `Json.delimited_list`, `Json.Record.delimited` — lists and records
- `Json.Delimited.decode_of_cut`, `Json.Delimited.decode_append` — whole texts that are too short or
  too long
-/

namespace KeyVault

namespace Json

open Bytes (ascii)

variable {α β : Type} {depth : Nat} {part : Bytes}

/-- Every cut of the text of a value runs out, wherever `depth` more arrays and objects may be
opened. -/
def Starves [Codec α] (depth : Nat) (a : α) : Prop :=
  ∀ limits : Limits, depth ≤ limits.depth → ∀ part, Cut part (Codec.write a) →
    part.length < limits.size → RunsOut (Codec.read limits part : Except Failure (α × Bytes))

/-- The text of a value shows where it ends: the value is read whatever stands behind it, and the
reader asks for more where the end is missing. -/
structure Delimited [Codec α] (depth : Nat) (a : α) : Prop where
  reads : ∀ limits : Limits, depth ≤ limits.depth → (Codec.write a).length < limits.size →
    ∀ rest, Codec.read limits (Codec.write a ++ rest) = .ok (a, rest)
  ended : ∀ limits : Limits, depth ≤ limits.depth → ∀ part, Cut part (Codec.write a) →
    part.length < limits.size →
      (Codec.read limits part : Except Failure (α × Bytes)) = .error .ended

section Values

variable [Codec α] {a : α}

theorem Starves.mono {depth' : Nat} (h : Starves depth a) (hle : depth ≤ depth') :
    Starves depth' a :=
  fun limits hdepth => h limits (Nat.le_trans hle hdepth)

theorem Delimited.starves (h : Delimited depth a) : Starves depth a :=
  fun limits hdepth part hcut hsize => .inl (h.ended limits hdepth part hcut hsize)

theorem Restores.follows (h : Restores depth a) (hstarves : Starves depth a) {limits : Limits}
    (hdepth : depth ≤ limits.depth) :
    Follows limits.size (Codec.read limits) (Codec.write a) a :=
  ⟨h.reads limits hdepth, hstarves limits hdepth⟩

/-! ### Whole texts -/

/-- A text whose end is missing is refused for that. -/
theorem Delimited.decode_of_cut (h : Delimited depth a) (hdepth : depth ≤ greatestDepth)
    (hcut : Cut part (encode a)) : (decode part : Except Failure α) = .error .ended := by
  rw [decode, decodeWithin, h.ended ⟨_, greatestDepth⟩ hdepth part hcut (Nat.lt_succ_self _)]
  rfl

/-- Behind the text of a whole value there may be blanks and nothing else. -/
theorem Delimited.decode_append (h : Delimited depth a) (hdepth : depth ≤ greatestDepth)
    (rest : Bytes) :
    decode (encode a ++ rest) = if skipBlanks rest = [] then .ok a else .error .malformed := by
  have hlength : (Codec.write a).length < (encode a ++ rest).length + 1 := by
    rw [encode, List.length_append]
    omega
  have hread : Codec.read ⟨(encode a ++ rest).length + 1, greatestDepth⟩ (encode a ++ rest)
      = .ok (a, rest) := h.reads ⟨_, greatestDepth⟩ hdepth hlength rest
  rw [decode, decodeWithin, hread]
  rfl

/-- The texts of a type are told from all that is shorter or longer: one that is cut off ends too
early, blanks may follow, and nothing else may. -/
def SelfDelimiting (α : Type) [Codec α] : Prop :=
  ∀ a : α,
    (∀ part, Cut part (encode a) →
      (decode part : Except Failure α).mapError Failure.category = .error "eof") ∧
    (∀ rest, Blank rest → decode (encode a ++ rest) = .ok a) ∧
    ∀ rest, ¬ Blank rest →
      (decode (encode a ++ rest) : Except Failure α).mapError Failure.category = .error "syntax"

theorem selfDelimiting (h : ∀ a : α, Delimited depth a) (hdepth : depth ≤ greatestDepth) :
    SelfDelimiting α := by
  refine fun a => ⟨fun part hcut => ?_, fun rest hrest => ?_, fun rest hrest => ?_⟩
  · rw [(h a).decode_of_cut hdepth hcut]
    rfl
  · rw [(h a).decode_append hdepth, if_pos (skipBlanks_eq_nil_iff.2 hrest)]
  · rw [(h a).decode_append hdepth, if_neg (mt skipBlanks_eq_nil_iff.1 hrest)]
    rfl

end Values

/-! ### Scalars -/

theorem starves_bool (b : Bool) : Starves 0 b := by
  intro limits _ part h _
  left
  cases b with
  | true =>
    have hword : Cut part (ascii 't' :: Bytes.ofString "rue") := h
    rcases hword.cons_cases with rfl | ⟨rest, rfl, hrest⟩
    · rfl
    · change readBool (ascii 't' :: rest) = _
      rw [readBool, skipBlanks_cons (by decide)]
      simp only [if_true, literal_of_cut hrest]
      rfl
  | false =>
    have hword : Cut part (ascii 'f' :: Bytes.ofString "alse") := h
    rcases hword.cons_cases with rfl | ⟨rest, rfl, hrest⟩
    · rfl
    · change readBool (ascii 'f' :: rest) = _
      rw [readBool, skipBlanks_cons (by decide)]
      simp only [if_neg (show ascii 'f' ≠ ascii 't' by decide), if_true, literal_of_cut hrest]
      rfl

theorem starves_string (string : String) : Starves 0 string := by
  intro limits _ part h _
  left
  rcases Text.cut_write_cases h with rfl | ⟨rest, rfl, hrest⟩
  · rfl
  · change readString (ascii '"' :: rest) = _
    rw [readString, skipBlanks_cons (by decide)]
    exact Text.read_of_cut hrest

theorem starves_byte (n : UInt8) : Starves 0 n := by
  intro limits _ part h _
  have hn : n.toNat ≤ UInt8.size - 1 := Nat.le_sub_one_of_lt n.toNat_lt
  exact (runsOut_readNat hn (by decide) h).map Nat.toUInt8

theorem starves_word (n : UInt32) : Starves 0 n := by
  intro limits _ part h _
  have hn : n.toNat ≤ UInt32.size - 1 := Nat.le_sub_one_of_lt n.toNat_lt
  exact (runsOut_readNat hn (by decide) h).map Nat.toUInt32

/-! ### Lists -/

/-- The text of a list shows where it ends. -/
theorem delimited_list [Codec α] {l : List α} (hrestores : ∀ a ∈ l, Restores depth a)
    (hstarves : ∀ a ∈ l, Starves depth a) : Delimited (depth + 1) l := by
  refine ⟨fun limits hdepth hsize => read_list_append hrestores hdepth hsize,
    fun limits hdepth part hcut hsize => ?_⟩
  obtain ⟨inner, henter, hinner, hsame⟩ := Limits.exists_enter hdepth
  rcases cut_writeItems_cases hcut with rfl | ⟨rest, rfl, hrest⟩
  · rfl
  · have hitem : ∀ a ∈ l, Follows inner.size (Codec.read inner) (Codec.write a) a :=
      fun a ha => (hrestores a ha).follows (hstarves a ha) hinner
    rw [List.length_cons] at hsize
    change readList Codec.read limits (ascii '[' :: rest) = _
    rw [readList, skipBlanks_cons (by decide)]
    simp only [if_true, henter, bind, Except.bind]
    exact readItems_of_cut (fun a ha => (hrestores a ha).begins) hitem hrest (by omega)

/-! ### Records -/

namespace Record

variable {fields : List Field}

/-- Every cut of the values of all fields runs out. -/
def FieldsStarve (depth : Nat) (fields : List Field) : Prop :=
  ∀ f ∈ fields, ∀ value : f.type, @Starves f.type f.codec depth value

theorem FieldsStarve.nil : FieldsStarve depth [] := List.forall_mem_nil _

theorem FieldsStarve.cons {f : Field}
    (hf : ∀ value : f.type, @Starves f.type f.codec depth value)
    (h : FieldsStarve depth fields) : FieldsStarve depth (f :: fields) :=
  List.forall_mem_cons.2 ⟨hf, h⟩

/-- A member that is cut off in its value, or in front of it. -/
theorem runsOut_readField (hnodup : (fields.map Field.name).Nodup)
    (hfields : FieldsStarve depth fields) {limits : Limits} (hdepth : depth ≤ limits.depth)
    {row : Row fields} {m : String × Bytes} (hm : m ∈ members fields row)
    {draft next : Draft fields} (hfill : Draft.fill m.1 fields row draft = .ok next)
    (hcut : Cut part (ascii ':' :: m.2)) (hsize : part.length < limits.size) :
    ∃ reading, readField limits m.1 fields draft part = some reading ∧ RunsOut reading := by
  induction fields with
  | nil => cases hm
  | cons f fields ih =>
    obtain ⟨value, row⟩ := row
    obtain ⟨slot, draft⟩ := draft
    obtain ⟨hf, hnodup⟩ := List.nodup_cons.1 hnodup
    obtain ⟨hvalue, hfields⟩ := List.forall_mem_cons.1 hfields
    rcases List.mem_cons.1 hm with rfl | hm
    · cases slot with
      | some _ =>
        simp only [Draft.fill, if_true] at hfill
        cases hfill
      | none =>
        simp only [readField, if_true]
        refine ⟨_, rfl, ?_⟩
        rcases hcut.cons_cases with rfl | ⟨rest, rfl, hrest⟩
        · exact .inl rfl
        · rw [List.length_cons] at hsize
          have hruns : RunsOut (f.codec.read limits rest) :=
            hvalue value limits hdepth rest hrest (by omega)
          simp only [expect_cons (show isBlank (ascii ':') = false by decide)]
          exact hruns.map fun v => (some v, draft)
    · have hname : m.1 ≠ f.name := ne_of_mem_members hm hf
      simp only [Draft.fill, if_neg hname] at hfill
      cases hothers : Draft.fill m.1 fields row draft with
      | error failure =>
        rw [hothers] at hfill
        cases hfill
      | ok others =>
        obtain ⟨reading, hreading, hruns⟩ := ih hnodup hfields hm hothers
        simp only [readField, if_neg hname, hreading, Option.map_some]
        exact ⟨_, rfl, hruns.map fun draft => (slot, draft)⟩

/-- Reading a written member follows its text, if its place has not been filled. -/
theorem follows_readMember (hnodup : (fields.map Field.name).Nodup)
    (hrestored : FieldsRestored depth fields) (hstarve : FieldsStarve depth fields)
    {limits : Limits} (hdepth : depth ≤ limits.depth) {row : Row fields} {m : String × Bytes}
    (hm : m ∈ members fields row) {draft next : Draft fields}
    (hfill : Draft.fill m.1 fields row draft = .ok next) :
    Follows limits.size (readMember fields limits draft m.1) (ascii ':' :: m.2) next := by
  refine ⟨fun hsize => ?_, fun part hcut hsize => ?_⟩
  · rw [List.length_cons] at hsize
    rw [← hfill]
    exact readMember_members hnodup hrestored hdepth hm (by omega) draft
  · obtain ⟨reading, hreading, hruns⟩ :=
      runsOut_readField hnodup hstarve hdepth hm hfill hcut hsize
    rw [readMember, hreading]
    exact hruns

/-- The text of a record shows where it ends. -/
theorem delimited {α : Type} [Record α] (hnodup : ((Record.fields α).map Field.name).Nodup)
    (hrestored : FieldsRestored depth (Record.fields α))
    (hstarve : FieldsStarve depth (Record.fields α)) (a : α) : Delimited (depth + 1) a := by
  refine ⟨fun limits hdepth hsize => read_append hnodup hrestored a hdepth hsize,
    fun limits hdepth part hcut hsize => ?_⟩
  obtain ⟨inner, henter, hinner, hsame⟩ := Limits.exists_enter hdepth
  obtain ⟨draft, hlast, -⟩ := foldlM_fill_members hnodup (toRow a)
  rcases cut_writeMembers_cases hcut with rfl | ⟨rest, rfl, hrest⟩
  · rfl
  · rw [List.length_cons] at hsize
    have hmember : ∀ draft, ∀ m ∈ members (Record.fields α) (toRow a), ∀ next,
        Draft.fill m.1 (Record.fields α) (toRow a) draft = .ok next →
          Follows inner.size (readMember (Record.fields α) inner draft m.1) (ascii ':' :: m.2)
            next :=
      fun draft m hm next hfill => follows_readMember hnodup hrestored hstarve hinner hm hfill
    have hmembers : readMembers (readMember (Record.fields α) inner) inner.size true
        (Draft.empty (Record.fields α)) rest = .error .ended :=
      readMembers_of_cut hmember hlast hrest (by omega)
    change Record.read limits (ascii '\x7b' :: rest) = _
    rw [Record.read, skipBlanks_cons (by decide)]
    simp only [if_true, henter, bind, Except.bind, readObject, hmembers]

end Record

end Json

end KeyVault
