import KeyVault.Json.Record
import KeyVault.Proofs.Json.Restores

/-!
# Written records are read back

Reading a member fills one place of the draft, whatever has been read before. A record is read back
because its members fill every place once.

## Main definitions

- `Json.Draft.fill` — what a member of a row does to a draft
- `Json.Draft.ofRow` — the draft in which the fields of some names have been read
- `Json.Record.FieldsRestored` — the values of all fields are read back

## Main statements

- `Json.Record.readMember_members` — reading a written member fills its place
- `Json.Record.restores` — a record is read back if its fields are, and their names differ
-/

namespace KeyVault

namespace Json

open Bytes (ascii)

/-! ### Drafts -/

namespace Draft

/-- What the member of a row with the given name does to a draft. -/
def fill (name : String) : (fields : List Field) → Row fields → Draft fields →
    Except Failure (Draft fields)
  | [], _, draft => .ok draft
  | f :: fields, (value, row), (slot, draft) =>
    if name = f.name then
      match slot with
      | some _ => .error .mismatch
      | none => .ok (some value, draft)
    else (fill name fields row draft).map fun draft => (slot, draft)

/-- The draft of a row in which the fields of the given names have been read. -/
def ofRow (seen : List String) : (fields : List Field) → Row fields → Draft fields
  | [], _ => ()
  | f :: fields, (value, row) => (if f.name ∈ seen then some value else none, ofRow seen fields row)

theorem ofRow_nil (fields : List Field) (row : Row fields) :
    ofRow [] fields row = empty fields := by
  induction fields with
  | nil => rfl
  | cons f fields ih =>
    obtain ⟨value, row⟩ := row
    rw [ofRow, ih, if_neg List.not_mem_nil]
    rfl

/-- Neither order nor repetitions of the names make a difference. -/
theorem ofRow_congr {seen seen' : List String} (h : ∀ name, name ∈ seen ↔ name ∈ seen')
    (fields : List Field) (row : Row fields) : ofRow seen fields row = ofRow seen' fields row := by
  induction fields with
  | nil => rfl
  | cons f fields ih =>
    obtain ⟨value, row⟩ := row
    rw [ofRow, ofRow, ih]
    exact Prod.ext (ite_congr (propext (h f.name)) (fun _ => rfl) fun _ => rfl) rfl

/-- A name that is no field makes no difference. -/
theorem ofRow_cons_of_notMem {name : String} {fields : List Field}
    (h : name ∉ fields.map Field.name) (seen : List String) (row : Row fields) :
    ofRow (name :: seen) fields row = ofRow seen fields row := by
  induction fields with
  | nil => rfl
  | cons f fields ih =>
    obtain ⟨value, row⟩ := row
    rw [List.map_cons, List.mem_cons, not_or] at h
    have hname : f.name ∈ name :: seen ↔ f.name ∈ seen := by
      simp [Ne.symm h.1]
    rw [ofRow, ofRow, ih h.2]
    exact Prod.ext (ite_congr (propext hname) (fun _ => rfl) fun _ => rfl) rfl

/-- A member that has not been read fills its place. -/
theorem fill_ofRow {name : String} {seen : List String} (hseen : name ∉ seen) {fields : List Field}
    (hnodup : (fields.map Field.name).Nodup) (row : Row fields) :
    fill name fields row (ofRow seen fields row) = .ok (ofRow (name :: seen) fields row) := by
  induction fields with
  | nil => rfl
  | cons f fields ih =>
    obtain ⟨value, row⟩ := row
    obtain ⟨hf, hnodup⟩ := List.nodup_cons.1 hnodup
    by_cases hname : name = f.name
    · subst hname
      simp only [fill, ofRow, if_true, if_neg hseen, List.mem_cons_self,
        ofRow_cons_of_notMem hf]
    · have hmem : f.name ∈ name :: seen ↔ f.name ∈ seen := by
        simp [Ne.symm hname]
      simp only [fill, ofRow, if_neg hname, ih hnodup]
      exact congrArg Except.ok
        (Prod.ext (ite_congr (propext hmem.symm) (fun _ => rfl) fun _ => rfl) rfl)

theorem fill_of_notMem {name : String} {fields : List Field} (h : name ∉ fields.map Field.name)
    (row : Row fields) (draft : Draft fields) : fill name fields row draft = .ok draft := by
  induction fields with
  | nil => rfl
  | cons f fields ih =>
    obtain ⟨value, row⟩ := row
    obtain ⟨slot, draft⟩ := draft
    rw [List.map_cons, List.mem_cons, not_or] at h
    simp only [fill, if_neg h.1, ih h.2]
    rfl

/-- A member that has been read is refused. -/
theorem fill_ofRow_of_mem {name : String} {seen : List String} (hseen : name ∈ seen)
    {fields : List Field} (h : name ∈ fields.map Field.name) (row : Row fields) :
    fill name fields row (ofRow seen fields row) = .error .mismatch := by
  induction fields with
  | nil => cases h
  | cons f fields ih =>
    obtain ⟨value, row⟩ := row
    by_cases hname : name = f.name
    · subst hname
      simp only [fill, ofRow, if_true, if_pos hseen]
    · rw [List.map_cons, List.mem_cons, or_iff_right hname] at h
      simp only [fill, ofRow, if_neg hname, ih h]
      rfl

/-- The names of a list that are names of fields. -/
def known (fields : List Field) (names : List String) : List String :=
  names.filter fun name => decide (name ∈ fields.map Field.name)

/-- Members fill their places one after the other, until one comes a second time. -/
theorem foldlM_fill {fields : List Field} (hnodup : (fields.map Field.name).Nodup)
    (row : Row fields) (names : List String) {seen : List String}
    (hseen : (known fields seen).Nodup) :
    names.foldlM (fun draft name => fill name fields row draft) (ofRow seen fields row)
      = if (known fields (names.reverse ++ seen)).Nodup
        then .ok (ofRow (names.reverse ++ seen) fields row) else .error .mismatch := by
  induction names generalizing seen with
  | nil => exact (if_pos hseen).symm
  | cons name names ih =>
    rw [List.foldlM_cons, List.reverse_cons, List.append_assoc, List.singleton_append]
    by_cases hfield : name ∈ fields.map Field.name
    · have hknown : known fields (name :: seen) = name :: known fields seen :=
        List.filter_cons_of_pos (decide_eq_true hfield)
      by_cases hmem : name ∈ seen
      · have htwice : ¬ (known fields (names.reverse ++ name :: seen)).Nodup := by
          rw [known, List.filter_append]
          intro h
          have hlast : (known fields (name :: seen)).Nodup := (List.nodup_append.1 h).2.1
          rw [hknown] at hlast
          exact (List.nodup_cons.1 hlast).1 (List.mem_filter.2 ⟨hmem, decide_eq_true hfield⟩)
        rw [fill_ofRow_of_mem hmem hfield, if_neg htwice]
        rfl
      · rw [fill_ofRow hmem hnodup]
        refine ih (hknown ▸ List.nodup_cons.2 ⟨fun h => hmem (List.mem_filter.1 h).1, hseen⟩)
    · have hknown : known fields (name :: seen) = known fields seen :=
        List.filter_cons_of_neg (by simpa using hfield)
      rw [fill_of_notMem hfield, ← ofRow_cons_of_notMem hfield]
      exact ih (hknown ▸ hseen)

/-- A draft with all fields is a row. -/
theorem finish_ofRow {seen : List String} {fields : List Field}
    (h : ∀ f ∈ fields, f.name ∈ seen) (row : Row fields) :
    finish fields (ofRow seen fields row) = some row := by
  induction fields with
  | nil => rfl
  | cons f fields ih =>
    obtain ⟨value, row⟩ := row
    obtain ⟨hf, hfields⟩ := List.forall_mem_cons.1 h
    rw [ofRow, finish, ih hfields, if_pos hf]
    rfl

end Draft

/-! ### Members -/

namespace Record

variable {depth : Nat} {fields : List Field}

/-- The values of all fields are read back. -/
def FieldsRestored (depth : Nat) (fields : List Field) : Prop :=
  ∀ f ∈ fields, ∀ value : f.type, @Restores f.type f.codec depth value

theorem FieldsRestored.nil : FieldsRestored depth [] := List.forall_mem_nil _

theorem FieldsRestored.cons {f : Field}
    (hf : ∀ value : f.type, @Restores f.type f.codec depth value)
    (h : FieldsRestored depth fields) : FieldsRestored depth (f :: fields) :=
  List.forall_mem_cons.2 ⟨hf, h⟩

theorem map_fst_members (fields : List Field) (row : Row fields) :
    (members fields row).map Prod.fst = fields.map Field.name := by
  induction fields with
  | nil => rfl
  | cons f fields ih =>
    obtain ⟨value, row⟩ := row
    rw [members, List.map_cons, List.map_cons, ih]

/-- A member has the name of a field. -/
theorem ne_of_mem_members {row : Row fields} {m : String × Bytes} (h : m ∈ members fields row)
    {name : String} (hname : name ∉ fields.map Field.name) : m.1 ≠ name := by
  rintro rfl
  rw [← map_fst_members fields row] at hname
  exact hname (List.mem_map_of_mem h)

/-- Reading a written member fills its place. -/
theorem readField_members (hnodup : (fields.map Field.name).Nodup)
    (hfields : FieldsRestored depth fields)
    {limits : Limits} (hdepth : depth ≤ limits.depth) {row : Row fields} {m : String × Bytes}
    (hm : m ∈ members fields row) (hsize : m.2.length < limits.size) (draft : Draft fields)
    {rest : Bytes} (hrest : Number.Stops rest) :
    readField limits m.1 fields draft (ascii ':' :: (m.2 ++ rest))
      = some ((Draft.fill m.1 fields row draft).map (·, rest)) := by
  induction fields with
  | nil => cases hm
  | cons f fields ih =>
    obtain ⟨value, row⟩ := row
    obtain ⟨slot, draft⟩ := draft
    obtain ⟨hf, hnodup⟩ := List.nodup_cons.1 hnodup
    obtain ⟨hvalue, hfields⟩ := List.forall_mem_cons.1 hfields
    rcases List.mem_cons.1 hm with rfl | hm
    · cases slot with
      | some _ => simp only [readField, Draft.fill, if_true]; rfl
      | none =>
        have hread : f.codec.read limits (f.codec.write value ++ rest) = .ok (value, rest) :=
          @Restores.reads f.type f.codec depth value (hvalue value) limits hdepth hsize rest hrest
        simp only [readField, Draft.fill, if_true, bind, Except.bind,
          expect_cons (show isBlank (ascii ':') = false by decide), hread]
        rfl
    · simp only [readField, Draft.fill, if_neg (ne_of_mem_members hm hf),
        ih hnodup hfields hm draft]
      cases Draft.fill m.1 fields row draft <;> rfl

/-- Reading a written member does what the member does to the draft. -/
theorem readMember_members (hnodup : (fields.map Field.name).Nodup)
    (hfields : FieldsRestored depth fields)
    {limits : Limits} (hdepth : depth ≤ limits.depth) {row : Row fields} {m : String × Bytes}
    (hm : m ∈ members fields row) (hsize : m.2.length < limits.size) (draft : Draft fields) :
    Reads (readMember fields limits draft m.1) (ascii ':' :: m.2)
      (Draft.fill m.1 fields row draft) := by
  intro rest hrest
  rw [readMember, List.cons_append, readField_members hnodup hfields hdepth hm hsize draft hrest]

/-! ### Records -/

/-- The members of a row fill an empty draft to that row. -/
theorem foldlM_fill_members (hnodup : (fields.map Field.name).Nodup) (row : Row fields) :
    ∃ draft, (members fields row).foldlM (fun draft m => Draft.fill m.1 fields row draft)
      (Draft.empty fields) = .ok draft ∧ draft.finish fields = some row := by
  refine ⟨Draft.ofRow ((fields.map Field.name).reverse ++ []) fields row, ?_,
    Draft.finish_ofRow (fun f hf => ?_) row⟩
  · have hall : Draft.known fields ((fields.map Field.name).reverse ++ []) =
        (fields.map Field.name).reverse := by
      rw [List.append_nil]
      exact List.filter_eq_self.2 fun name h => decide_eq_true (List.mem_reverse.1 h)
    have hfill := @Draft.foldlM_fill fields hnodup row (fields.map Field.name) [] List.nodup_nil
    rw [hall, if_pos ((List.reverse_perm _).nodup_iff.2 hnodup),
      ← map_fst_members fields row] at hfill
    rw [← map_fst_members fields row]
    rwa [Draft.ofRow_nil, List.foldlM_map] at hfill
  · rw [List.append_nil, List.mem_reverse]
    exact List.mem_map_of_mem hf

/-- Written members of all fields are read as their row. -/
theorem readObject_members (hnodup : (fields.map Field.name).Nodup)
    (hfields : FieldsRestored depth fields)
    {limits : Limits} (hdepth : depth ≤ limits.depth) (row : Row fields)
    (hsize : (writeMembers (members fields row)).length < limits.size) (rest : Bytes) :
    readObject fields limits (separated true
        ((members fields row).map fun m => writeMember m.1 m.2) ++ ascii '\x7d' :: rest)
      = .ok (row, rest) := by
  have hcount := count_lt_writeMembers (members fields row)
  have hmember : ∀ draft, ∀ m ∈ members fields row,
      Reads (readMember fields limits draft m.1) (ascii ':' :: m.2)
        (Draft.fill m.1 fields row draft) := by
    intro draft m hm
    have hlt := length_lt_writeMembers hm
    exact readMember_members hnodup hfields hdepth hm (by omega) draft
  obtain ⟨draft, hfill, hfinish⟩ := foldlM_fill_members hnodup row
  simp only [readObject, readMembers_separated hmember (by omega : _ < limits.size), hfill, bind,
    Except.bind, Except.map, hfinish]
  rfl

/-- A record whose fields are read back is read from every text in front of which it stands. -/
theorem read_append {α : Type} [Record α] (hnodup : ((Record.fields α).map Field.name).Nodup)
    (hfields : FieldsRestored depth (Record.fields α)) (a : α) {limits : Limits}
    (hdepth : depth + 1 ≤ limits.depth) (hsize : (Record.write a).length < limits.size)
    (rest : Bytes) : Record.read limits (Record.write a ++ rest) = .ok (a, rest) := by
  obtain ⟨inner, henter, hinner, hsame⟩ := Limits.exists_enter hdepth
  change Record.read limits (writeMembers (members (Record.fields α) (toRow a)) ++ rest) = _
  change (writeMembers (members (Record.fields α) (toRow a))).length < _ at hsize
  rw [writeMembers_append, Record.read, skipBlanks_cons (by decide)]
  simp only [if_true, henter, bind, Except.bind,
    readObject_members hnodup hfields hinner (toRow a) (hsame ▸ hsize) rest, ofRow_toRow]
  rfl

/-- A record is read back if its fields are, and their names differ. -/
theorem restores {α : Type} [Record α] (hnodup : ((Record.fields α).map Field.name).Nodup)
    (hfields : FieldsRestored depth (Record.fields α)) (a : α) : Restores (depth + 1) a :=
  ⟨⟨_, _, rfl, by decide, by decide⟩, fun _ hdepth hsize rest _ =>
    read_append hnodup hfields a hdepth hsize rest⟩

end Record

end Json

end KeyVault
