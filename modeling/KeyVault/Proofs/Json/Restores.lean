import KeyVault.Proofs.Json.Brackets

/-!
# Written values are read back

The law that ties the two halves of a codec together: the text of a value is read as that value,
and what stands behind it is left, wherever enough arrays and objects may still be opened.

## Main definitions

- `Json.Restores` — a value is read back from its text

## Main statements

- `Json.Restores.list` — a list is read back if its items are
- `Json.Restores.decode_encode` — a whole text gives back its value
-/

namespace KeyVault

namespace Json

open Bytes (ascii)

/-- A value is read back from its text wherever `depth` more arrays and objects may be opened. -/
structure Restores {α : Type} [Codec α] (depth : Nat) (a : α) : Prop where
  /-- The text stands where a value is looked for. -/
  begins : Begins (Codec.write a)
  /-- The text is read as the value. -/
  reads : ∀ limits : Limits, depth ≤ limits.depth → (Codec.write a).length < limits.size →
    Reads (Codec.read limits) (Codec.write a) (.ok a)

variable {α : Type} [Codec α]

theorem Restores.mono {depth depth' : Nat} {a : α} (h : Restores depth a) (hle : depth ≤ depth') :
    Restores depth' a :=
  ⟨h.begins, fun _ hdepth hsize => h.reads _ (Nat.le_trans hle hdepth) hsize⟩

/-- A whole text gives back its value. -/
theorem Restores.decode_encode {depth : Nat} {a : α} (h : Restores depth a)
    (hdepth : depth ≤ greatestDepth) : decode (encode a) = .ok a := by
  have hread := h.reads ⟨(encode a).length + 1, greatestDepth⟩ hdepth
    (Nat.lt_succ_self _) [] Number.stops_nil
  rw [List.append_nil] at hread
  rw [decode, decodeWithin, encode] at *
  rw [hread]
  rfl

/-! ### Scalars -/

theorem restores_bool (b : Bool) : Restores 0 b := by
  cases b with
  | true =>
    refine ⟨⟨_, _, rfl, by decide, by decide⟩, fun _ _ _ rest _ => ?_⟩
    change readBool (ascii 't' :: (Bytes.ofString "rue" ++ rest)) = _
    rw [readBool, skipBlanks_cons (by decide)]
    simp only [if_true, literal_append]
    rfl
  | false =>
    refine ⟨⟨_, _, rfl, by decide, by decide⟩, fun _ _ _ rest _ => ?_⟩
    change readBool (ascii 'f' :: (Bytes.ofString "alse" ++ rest)) = _
    rw [readBool, skipBlanks_cons (by decide)]
    simp only [if_neg (show ascii 'f' ≠ ascii 't' by decide), if_true, literal_append]
    rfl

theorem restores_string (s : String) : Restores 0 s := by
  refine ⟨⟨_, _, rfl, by decide, by decide⟩, fun _ _ _ rest _ => ?_⟩
  change readString (Text.write s ++ rest) = _
  rw [Text.write_append, readString, skipBlanks_cons (by decide)]
  exact Text.read_flatMap_writeByte s rest

/-- A bounded whole number is read back, whatever type it stands for. -/
theorem reads_bounded {β : Type} {bound n : Nat} (ofNat : Nat → β) (hn : n ≤ bound)
    (hbound : bound ≤ Number.greatestSignificand) :
    Reads (fun s => readNat bound s >>= fun (n, rest) => pure (ofNat n, rest)) (Decimal.digits n)
      (.ok (ofNat n)) := by
  intro rest hrest
  simp only [readNat_digits hn hbound hrest]
  rfl

theorem restores_byte (n : UInt8) : Restores 0 n := by
  have hn : n.toNat ≤ UInt8.size - 1 := Nat.le_sub_one_of_lt n.toNat_lt
  have hreads := reads_bounded Nat.toUInt8 hn (by decide)
  rw [show n.toNat.toUInt8 = n from UInt8.ofNat_toNat] at hreads
  exact ⟨begins_digits n.toNat, fun _ _ _ => hreads⟩

theorem restores_word (n : UInt32) : Restores 0 n := by
  have hn : n.toNat ≤ UInt32.size - 1 := Nat.le_sub_one_of_lt n.toNat_lt
  have hreads := reads_bounded Nat.toUInt32 hn (by decide)
  rw [show n.toNat.toUInt32 = n from UInt32.ofNat_toNat] at hreads
  exact ⟨begins_digits n.toNat, fun _ _ _ => hreads⟩

theorem restores_doubleWord (n : UInt64) : Restores 0 n := by
  have hn : n.toNat ≤ UInt64.size - 1 := Nat.le_sub_one_of_lt n.toNat_lt
  have hreads := reads_bounded Nat.toUInt64 hn (by decide)
  rw [show n.toNat.toUInt64 = n from UInt64.ofNat_toNat] at hreads
  exact ⟨begins_digits n.toNat, fun _ _ _ => hreads⟩

/-! ### Lists -/

/-- Inside one more bracket there is the same text and one bracket less to open. -/
theorem Limits.exists_enter {limits : Limits} {depth : Nat} (h : depth + 1 ≤ limits.depth) :
    ∃ inner, limits.enter = .ok inner ∧ depth ≤ inner.depth ∧ inner.size = limits.size := by
  obtain ⟨size, bound⟩ := limits
  cases bound with
  | zero => simp at h
  | succ bound => exact ⟨⟨size, bound⟩, rfl, Nat.le_of_succ_le_succ h, rfl⟩

/-- A list whose items are read back is read from every text in front of which it stands. -/
theorem read_list_append {depth : Nat} {l : List α} (h : ∀ a ∈ l, Restores depth a)
    {limits : Limits} (hdepth : depth + 1 ≤ limits.depth)
    (hsize : (Codec.write l).length < limits.size) (rest : Bytes) :
    Codec.read limits (Codec.write l ++ rest) = .ok (l, rest) := by
  obtain ⟨inner, henter, hinner, hsame⟩ := Limits.exists_enter hdepth
  change (writeItems (l.map Codec.write)).length < _ at hsize
  have hcount : l.length < limits.size := by
    have hne : ∀ text ∈ l.map Codec.write, text ≠ [] := by
      simpa using fun a ha => (h a ha).begins.ne_nil
    have hlt := count_lt_writeItems hne
    rw [List.length_map] at hlt
    omega
  have hitem : ∀ a ∈ l, Reads (Codec.read inner) (Codec.write a) (.ok a) := by
    intro a ha
    have hlt := length_lt_writeItems (List.mem_map_of_mem (f := Codec.write) ha)
    exact (h a ha).reads inner hinner (by omega)
  change readList Codec.read limits (writeItems (l.map Codec.write) ++ rest) = _
  rw [writeItems_append, readList, skipBlanks_cons (by decide)]
  simp only [if_true, henter, bind, Except.bind,
    readItems_separated (fun a ha => (h a ha).begins) hitem hcount, mapM_ok]
  rfl

/-- A list is read back if its items are. -/
theorem Restores.list {depth : Nat} {l : List α} (h : ∀ a ∈ l, Restores depth a) :
    Restores (depth + 1) l :=
  ⟨⟨_, _, rfl, by decide, by decide⟩, fun _ hdepth hsize rest _ =>
    read_list_append h hdepth hsize rest⟩

end Json

end KeyVault
