import KeyVault.Proofs.Json.Restores

/-!
# Written values of any shape are read back

A value whose numbers are whole and whose objects hold their members in order is read back from its
text, if the reader may open as many brackets as it nests. A value that nests deeper is refused at
the first bracket too many, and for nothing else.

## Main definitions

- `Json.Value.depth` — how deep the brackets of a value nest
- `Json.Value.Exact` — the values that a text keeps exactly
- `Json.Value.within` — a value, if it nests to at most some depth

## Main statements

- `Json.Value.reads_write` — what the reader makes of a written value
- `Json.Value.decode_encode`, `Json.Value.decode_encode_of_deep` — and of a whole text
-/

namespace KeyVault

namespace Json

open Bytes (ascii)

namespace Value

/-! ### Nesting and exact values -/

mutual

/-- How deep the brackets of a value nest. -/
def depth : Value → Nat
  | array items => depthEach items + 1
  | object members => depthMemberEach members + 1
  | _ => 0

/-- The deepest nesting among items. -/
def depthEach : List Value → Nat
  | [] => 0
  | v :: items => max v.depth (depthEach items)

/-- The deepest nesting among members. -/
def depthMemberEach : List (String × Value) → Nat
  | [] => 0
  | (_, v) :: members => max v.depth (depthMemberEach members)

end

/-- The values that a text keeps exactly: numbers are whole and have 64 bits, and objects hold their
members in the order of their keys, each key once. -/
inductive Exact : Value → Prop
  | null : Exact null
  | bool (b : Bool) : Exact (bool b)
  | number {n : Int} (h : Number.IsWhole n) : Exact (number (.whole n))
  | string (s : String) : Exact (string s)
  | array {items : List Value} (h : ∀ v ∈ items, Exact v) : Exact (array items)
  | object {members : List (String × Value)} (hsorted : Members.Sorted members)
    (h : ∀ m ∈ members, Exact m.2) : Exact (object members)

/-! ### Texts -/

theorem writeEach_eq_map (items : List Value) : writeEach items = items.map write := by
  induction items with
  | nil => rfl
  | cons v items ih => rw [writeEach, ih, List.map_cons]

theorem writeMemberEach_eq_map (members : List (String × Value)) :
    writeMemberEach members = members.map fun m => (m.1, m.2.write) := by
  induction members with
  | nil => rfl
  | cons m members ih =>
    obtain ⟨name, v⟩ := m
    rw [writeMemberEach, ih, List.map_cons]

/-- A digit begins a number and no string. -/
theorem beginsNumber_of_isDigit {b : UInt8} (h : Decimal.isDigit b = true) :
    b ≠ ascii '"' ∧ beginsNumber b = true := by
  refine ⟨?_, by simp [beginsNumber, h]⟩
  rintro rfl
  exact absurd h (by decide)

theorem writeInt_eq_cons (n : Int) : ∃ b tail, Number.writeInt n = b :: tail ∧
    b ≠ ascii '"' ∧ beginsNumber b = true := by
  by_cases hn : n < 0
  · exact ⟨_, _, if_pos hn, by decide, by decide⟩
  · obtain ⟨b, tail, htext, hdigit⟩ := Number.exists_digits_eq_cons n.natAbs
    exact ⟨b, tail, (if_neg hn).trans htext, beginsNumber_of_isDigit hdigit⟩

theorem begins_writeInt (n : Int) : Begins (Number.writeInt n) := by
  by_cases hn : n < 0
  · exact ⟨_, _, if_pos hn, by decide, by decide⟩
  · rw [Number.writeInt, if_neg hn]
    exact begins_digits n.natAbs

theorem begins_write {v : Value} (h : v.Exact) : Begins v.write := by
  cases h with
  | null => exact ⟨_, _, rfl, by decide, by decide⟩
  | bool b => exact (restores_bool b).begins
  | number h => rw [write]; exact begins_writeInt _
  | string s => exact (restores_string s).begins
  | array h => rw [write]; exact ⟨_, _, rfl, by decide, by decide⟩
  | object hsorted h => rw [write]; exact ⟨_, _, rfl, by decide, by decide⟩

/-! ### Folding members -/

theorem insert_of_before {name : String} {v : Value} {l : List (String × Value)}
    (h : ∀ e ∈ l, Before e.1 name) : Members.insert name v l = l ++ [(name, v)] := by
  induction l with
  | nil => rfl
  | cons x l ih =>
    obtain ⟨n, w⟩ := x
    obtain ⟨hx, hl⟩ := List.forall_mem_cons.1 h
    rw [Members.insert, if_neg hx.asymm, if_neg (Ne.symm hx.ne), ih hl]
    rfl

/-- Members that come in order are put behind one another. -/
theorem foldl_insert {l members : List (String × Value)} (h : Members.Sorted (l ++ members)) :
    members.foldl (fun l m => Members.insert m.1 m.2 l) l = l ++ members := by
  induction members generalizing l with
  | nil => simp
  | cons m members ih =>
    have hl : ∀ e ∈ l, Before e.1 m.1 := by
      intro e he
      exact (List.pairwise_append.1 h).2.2 e he m List.mem_cons_self
    rw [List.foldl_cons, insert_of_before hl, ih (by simpa using h)]
    simp

/-! ### Reading -/

theorem read_null (size depth : Nat) (rest : Bytes) :
    read size depth (write null ++ rest) = .ok (null, rest) := by
  rw [read]
  rfl

theorem read_bool (size depth : Nat) (b : Bool) (rest : Bytes) :
    read size depth (write (bool b) ++ rest) = .ok (bool b, rest) := by
  rw [read]
  cases b <;> rfl

theorem read_string (size depth : Nat) (s : String) (rest : Bytes) :
    read size depth (write (string s) ++ rest) = .ok (string s, rest) := by
  rw [write, Text.write_append, read, skipBlanks_cons (by decide)]
  simp only [if_true, Text.read_flatMap_writeByte, bind, Except.bind]
  rfl

theorem read_number (size depth : Nat) {n : Int} (hn : Number.IsWhole n) {rest : Bytes}
    (hrest : Number.Stops rest) :
    read size depth (write (number (.whole n)) ++ rest) = .ok (number (.whole n), rest) := by
  have hread := Number.read_writeInt hn hrest
  have hskip := skipBlanks_of_begins ((begins_writeInt n).append rest)
  obtain ⟨b, tail, htext, hquote, hnumber⟩ := writeInt_eq_cons n
  change read size depth (Number.writeInt n ++ rest) = _
  rw [htext, List.cons_append] at hread hskip ⊢
  rw [read, hskip]
  simp only [if_neg hquote, if_pos hnumber, hread, bind, Except.bind]
  rfl

/-! ### Values that nest too deep -/

/-- A value, if its brackets nest to at most `depth`. -/
def within (depth : Nat) (v : Value) : Except Failure Value :=
  if v.depth ≤ depth then .ok v else .error .malformed

/-- What a member does to the members before it. -/
def memberEffect (depth : Nat) (l : List (String × Value)) (m : String × Value) :
    Except Failure (List (String × Value)) :=
  if m.2.depth ≤ depth then .ok (Members.insert m.1 m.2 l) else .error .malformed

theorem within_of_le {depth : Nat} {v : Value} (h : v.depth ≤ depth) : v.within depth = .ok v :=
  if_pos h

theorem within_of_lt {depth : Nat} {v : Value} (h : depth < v.depth) :
    v.within depth = .error .malformed :=
  if_neg (Nat.not_le.2 h)

theorem mapM_within (depth : Nat) (items : List Value) :
    items.mapM (within depth)
      = if depthEach items ≤ depth then .ok items else .error .malformed := by
  induction items with
  | nil => rfl
  | cons v items ih =>
    rw [List.mapM_cons, ih, depthEach]
    by_cases hv : v.depth ≤ depth
    · rw [within_of_le hv]
      by_cases hitems : depthEach items ≤ depth
      · rw [if_pos hitems, if_pos (Nat.max_le.2 ⟨hv, hitems⟩)]
        rfl
      · rw [if_neg hitems, if_neg fun h => hitems (Nat.max_le.1 h).2]
        rfl
    · rw [within_of_lt (Nat.not_le.1 hv), if_neg fun h => hv (Nat.max_le.1 h).1]
      rfl

theorem foldlM_memberEffect (depth : Nat) (l members : List (String × Value)) :
    members.foldlM (memberEffect depth) l
      = if depthMemberEach members ≤ depth then
          .ok (members.foldl (fun l m => Members.insert m.1 m.2 l) l)
        else .error .malformed := by
  induction members generalizing l with
  | nil => rfl
  | cons m members ih =>
    obtain ⟨name, v⟩ := m
    rw [List.foldlM_cons, depthMemberEach, memberEffect]
    by_cases hv : v.depth ≤ depth
    · rw [if_pos hv]
      change members.foldlM (memberEffect depth) _ = _
      rw [ih]
      by_cases hmembers : depthMemberEach members ≤ depth
      · rw [if_pos hmembers, if_pos (Nat.max_le.2 ⟨hv, hmembers⟩)]
        rfl
      · rw [if_neg hmembers, if_neg fun h => hmembers (Nat.max_le.1 h).2]
    · rw [if_neg hv, if_neg fun h => hv (Nat.max_le.1 h).1]
      rfl

theorem within_array (depth : Nat) (items : List Value) :
    (items.mapM (within depth)).map array = (array items).within (depth + 1) := by
  rw [mapM_within]
  by_cases h : depthEach items ≤ depth
  · rw [if_pos h, within_of_le (Nat.succ_le_succ h)]
    rfl
  · rw [if_neg h, within_of_lt (Nat.succ_lt_succ (Nat.not_le.1 h))]
    rfl

theorem within_object (depth : Nat) {members : List (String × Value)}
    (hsorted : Members.Sorted members) :
    (members.foldlM (memberEffect depth) []).map object
      = (object members).within (depth + 1) := by
  have hfold : members.foldl (fun l m => Members.insert m.1 m.2 l) [] = members :=
    foldl_insert (l := []) hsorted
  rw [foldlM_memberEffect, hfold]
  by_cases h : depthMemberEach members ≤ depth
  · rw [if_pos h, within_of_le (Nat.succ_le_succ h)]
    rfl
  · rw [if_neg h, within_of_lt (Nat.succ_lt_succ (Nat.not_le.1 h))]
    rfl

/-! ### Brackets -/

theorem read_array_zero (size : Nat) (texts : List Bytes) (rest : Bytes) :
    read size 0 (writeItems texts ++ rest) = .error .malformed := by
  rw [writeItems_append, read]
  rfl

theorem read_array_succ (size depth : Nat) (texts : List Bytes) (rest : Bytes) :
    read size (depth + 1) (writeItems texts ++ rest)
      = (readItems (read size depth) size true []
          (separated true texts ++ ascii ']' :: rest)).map fun (items, rest) =>
            (array items, rest) := by
  rw [writeItems_append, read, skipBlanks_cons (by decide)]
  change (readItems (read size depth) size true [] _ >>= _) = _
  cases readItems (read size depth) size true [] _ <;> rfl

theorem read_object_zero (size : Nat) (ms : List (String × Bytes)) (rest : Bytes) :
    read size 0 (writeMembers ms ++ rest) = .error .malformed := by
  rw [writeMembers_append, read]
  rfl

/-- The reader of one member, from behind its key on. -/
def readMember (size depth : Nat) (members : List (String × Value)) (name : String) (s : Bytes) :
    Except Failure (List (String × Value) × Bytes) := do
  let (v, rest) ← read size depth (← expect (ascii ':') s)
  return (Members.insert name v members, rest)

theorem read_object_succ (size depth : Nat) (ms : List (String × Bytes)) (rest : Bytes) :
    read size (depth + 1) (writeMembers ms ++ rest)
      = (readMembers (readMember size depth) size true []
          (separated true (ms.map fun m => writeMember m.1 m.2) ++ ascii '\x7d' :: rest)).map
            fun (members, rest) => (object members, rest) := by
  rw [writeMembers_append, read, skipBlanks_cons (by decide)]
  change (readMembers (readMember size depth) size true [] _ >>= _) = _
  cases readMembers (readMember size depth) size true [] _ <;> rfl

/-- A member does what its value allows. -/
theorem reads_readMember {size depth : Nat} {m : String × Value}
    (h : Reads (read size depth) m.2.write (m.2.within depth)) (l : List (String × Value)) :
    Reads (readMember size depth l m.1) (ascii ':' :: m.2.write) (memberEffect depth l m) := by
  intro rest hrest
  have hread := h rest hrest
  rw [List.cons_append, readMember, expect_cons (by decide)]
  simp only [bind, Except.bind, hread, memberEffect]
  by_cases hv : m.2.depth ≤ depth
  · rw [within_of_le hv, if_pos hv]
    rfl
  · rw [within_of_lt (Nat.not_le.1 hv), if_neg hv]
    rfl

/-! ### Any value -/

theorem reads_array {size depth : Nat} {items : List Value} (hexact : ∀ v ∈ items, v.Exact)
    (hsize : (write (array items)).length < size)
    (h : ∀ v ∈ items, v.write.length < size → Reads (read size depth) v.write (v.within depth)) :
    Reads (read size (depth + 1)) (write (array items)) ((array items).within (depth + 1)) := by
  intro rest _
  rw [write, writeEach_eq_map] at hsize ⊢
  have hbegins : ∀ v ∈ items, Begins v.write := fun v hv => begins_write (hexact v hv)
  have hitem : ∀ v ∈ items, Reads (read size depth) v.write (v.within depth) := by
    intro v hv
    have hlt := length_lt_writeItems (List.mem_map_of_mem (f := write) hv)
    exact h v hv (by omega)
  have hcount : items.length < size := by
    have hne : ∀ text ∈ items.map write, text ≠ [] := by
      simpa using fun v hv => (hbegins v hv).ne_nil
    have hlt := count_lt_writeItems hne
    rw [List.length_map] at hlt
    omega
  rw [read_array_succ, readItems_separated hbegins hitem hcount true [] rest, ← within_array]
  cases items.mapM (within depth) <;> rfl

theorem reads_object {size depth : Nat} {members : List (String × Value)}
    (hsorted : Members.Sorted members) (hsize : (write (object members)).length < size)
    (h : ∀ m ∈ members, m.2.write.length < size →
      Reads (read size depth) m.2.write (m.2.within depth)) :
    Reads (read size (depth + 1)) (write (object members))
      ((object members).within (depth + 1)) := by
  intro rest _
  rw [write, writeMemberEach_eq_map] at hsize ⊢
  have hmember : ∀ l, ∀ m ∈ members,
      Reads (readMember size depth l m.1) (ascii ':' :: m.2.write) (memberEffect depth l m) := by
    intro l m hm
    have hlt : m.2.write.length < _ := length_lt_writeMembers
      (List.mem_map_of_mem (f := fun m : String × Value => (m.1, m.2.write)) hm)
    exact reads_readMember (h m hm (by omega)) l
  have hcount := count_lt_writeMembers (members.map fun m => (m.1, m.2.write))
  rw [List.length_map] at hcount
  rw [read_object_succ, List.map_map, ← within_object depth hsorted]
  change (readMembers (readMember size depth) size true []
    (separated true (members.map fun m => writeMember m.1 m.2.write) ++ _)).map _ = _
  rw [readMembers_separated hmember (by omega) true [] rest]
  cases members.foldlM (memberEffect depth) [] <;> rfl

/-- A written value is read back, unless it nests deeper than may be opened. -/
theorem reads_write {size depth : Nat} {v : Value} (h : v.Exact) (hsize : v.write.length < size) :
    Reads (read size depth) v.write (v.within depth) := by
  induction depth generalizing v with
  | zero =>
    intro rest hrest
    cases h with
    | null => exact read_null size 0 rest
    | bool b => exact read_bool size 0 b rest
    | number hn => exact read_number size 0 hn hrest
    | string s => exact read_string size 0 s rest
    | array h =>
      rw [write, read_array_zero]
      rfl
    | object hsorted h =>
      rw [write, read_object_zero]
      rfl
  | succ depth ih =>
    cases h with
    | null => exact fun rest _ => read_null size (depth + 1) rest
    | bool b => exact fun rest _ => read_bool size (depth + 1) b rest
    | number hn => exact fun rest hrest => read_number size (depth + 1) hn hrest
    | string s => exact fun rest _ => read_string size (depth + 1) s rest
    | array h => exact reads_array h hsize fun v hv hsize => ih (h v hv) hsize
    | object hsorted h => exact reads_object hsorted hsize fun m hm hsize => ih (h m hm) hsize

/-- The whole text of a value gives back the value, unless it nests too deep. -/
theorem decode_encode_eq {v : Value} (h : v.Exact) :
    (decode (encode v) : Except Failure Value) = v.within greatestDepth := by
  have hread : read (v.write.length + 1) greatestDepth (v.write ++ [])
      = (v.within greatestDepth).map (·, []) :=
    reads_write h (Nat.lt_succ_self _) [] Number.stops_nil
  rw [List.append_nil] at hread
  change (read (v.write.length + 1) greatestDepth v.write >>= _) = _
  rw [hread]
  by_cases hdepth : v.depth ≤ greatestDepth
  · rw [within_of_le hdepth]
    rfl
  · rw [within_of_lt (Nat.not_le.1 hdepth)]
    rfl

/-- A value within the greatest depth comes back from its text. -/
theorem decode_encode {v : Value} (h : v.Exact) (hdepth : v.depth ≤ greatestDepth) :
    (decode (encode v) : Except Failure Value) = .ok v := by
  rw [decode_encode_eq h, within_of_le hdepth]

/-- A value that nests deeper is refused. -/
theorem decode_encode_of_deep {v : Value} (h : v.Exact) (hdepth : greatestDepth < v.depth) :
    (decode (encode v) : Except Failure Value) = .error .malformed := by
  rw [decode_encode_eq h, within_of_lt hdepth]

end Value

end Json

end KeyVault
