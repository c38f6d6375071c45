import KeyVault.DataType
import KeyVault.Proofs.Json.Restores

/-!
# Sets of data types and their lists

A set is determined by the list of its types, in which it is written and from which it is read.

## Main statements

- `DataTypeSet.ofList_toList` — a set is the set of its types
- `restores_dataTypeSet` — a written set is read back
-/

namespace KeyVault

open Json

namespace DataTypeSet

theorem mem_toList {s : DataTypeSet} {t : DataType} : t ∈ s.toList ↔ s.has t = true := by
  simp [toList, DataType.mem_all]

theorem has_foldl_put (l : List DataType) (s : DataTypeSet) (t : DataType) :
    (l.foldl put s).has t = true ↔ s.has t = true ∨ t ∈ l := by
  induction l generalizing s with
  | nil => simp
  | cons u l ih =>
    rw [List.foldl_cons, ih, has_put, Bool.or_eq_true, beq_iff_eq, List.mem_cons, or_assoc,
      @eq_comm _ u t]

/-- The set of the types of a list holds these types. -/
theorem has_ofList (l : List DataType) (t : DataType) : (ofList l).has t = true ↔ t ∈ l := by
  rw [ofList, has_foldl_put, has_empty]
  simp

/-- A set is the set of its types. -/
theorem ofList_toList (s : DataTypeSet) : ofList s.toList = s := by
  refine ext_has fun t => ?_
  rw [Bool.eq_iff_iff, has_ofList, mem_toList]

end DataTypeSet

/-! ### Texts -/

theorem restores_dataType (t : DataType) : Restores 0 t := by
  refine ⟨⟨_, _, rfl, by decide, by decide⟩, fun limits _ _ rest _ => ?_⟩
  change DataType.read limits (Text.write t.name ++ rest) = _
  rw [Text.write_append, DataType.read, skipBlanks_cons (by decide)]
  simp only [if_true, Text.read_flatMap_writeByte, bind, Except.bind, DataType.ofString,
    DataType.ofName?_name]
  rfl

/-- A set is read as the list of its types. -/
theorem DataTypeSet.read_eq (limits : Limits) (text : Bytes) :
    (Codec.read limits text : Except Failure (DataTypeSet × Bytes))
      = (Codec.read limits text : Except Failure (List DataType × Bytes)) >>= fun (types, rest) =>
          pure (ofList types, rest) := rfl

/-- A set is written as the list of its types. -/
theorem DataTypeSet.write_eq (s : DataTypeSet) : Codec.write s = Codec.write s.toList := rfl

theorem restores_dataTypeSet (s : DataTypeSet) : Restores 1 s := by
  have hlist : Restores 1 s.toList := Restores.list fun t _ => restores_dataType t
  refine ⟨hlist.begins, fun limits hdepth hsize rest hrest => ?_⟩
  rw [DataTypeSet.read_eq, DataTypeSet.write_eq, hlist.reads limits hdepth hsize rest hrest]
  simp only [Except.map, bind, Except.bind, DataTypeSet.ofList_toList]
  rfl

end KeyVault
