import KeyVault.Proofs.Json.Number
import KeyVault.Proofs.Json.Text

/-!
# Written arrays and objects are read back

The loops over items and members run in step with the writer. An array of written items gives what
the items give, and an object of written members gives what its members do to the state one after
the other; the first of them that fails decides.

## Main definitions

- `Json.Reads` — what a reader makes of a text, whatever stands behind it

## Main statements

- `Json.readItems_separated` — the items of a written array
- `Json.readMembers_separated` — the members of a written object
-/

namespace KeyVault

namespace Json

open Bytes (ascii)

variable {α γ σ : Type}

/-- A reader makes `result` of a text and leaves what stands behind it. A text that could go on with
a number may not stand there. -/
def Reads (reader : Bytes → Except Failure (α × Bytes)) (text : Bytes) (result : Except Failure α) :
    Prop :=
  ∀ rest, Number.Stops rest → reader (text ++ rest) = result.map (·, rest)

/-- Commas and closing brackets end a number. -/
theorem stops_separated (texts : List Bytes) {b : UInt8} (h : Number.continues b = false)
    (rest : Bytes) : Number.Stops (separated false texts ++ b :: rest) := by
  cases texts with
  | nil => exact Number.stops_cons h rest
  | cons text texts => exact Number.stops_cons (by decide) _

/-! ### Items -/

section Items

variable {item : Bytes → Except Failure (α × Bytes)} {text : γ → Bytes}
  {value : γ → Except Failure α}

theorem mapM_ok (l : List α) : l.mapM (fun a => (.ok a : Except Failure α)) = .ok l := by
  induction l with
  | nil => rfl
  | cons a l ih => rw [List.mapM_cons, ih]; rfl

/-- A round that finds an item reads it and goes on behind it. -/
theorem readItems_of_more {size : Nat} {first : Bool} {s next : Bytes}
    (h : nextItem first s = .ok (.more next)) (read : List α) :
    readItems item (size + 1) first read s
      = item next >>= fun (v, rest) => readItems item size false (v :: read) rest := by
  rw [readItems, h]
  rfl

/-- A round that finds the closing bracket ends the array. -/
theorem readItems_of_close {size : Nat} {first : Bool} {s next : Bytes}
    (h : nextItem first s = .ok (.close next)) (read : List α) :
    readItems item (size + 1) first read s = .ok (read.reverse, next) := by
  rw [readItems, h]
  rfl

/-- An array of written items gives what the items give. -/
theorem readItems_separated {items : List γ} (hbegins : ∀ x ∈ items, Begins (text x))
    (hitem : ∀ x ∈ items, Reads item (text x) (value x)) {size : Nat} (hsize : items.length < size)
    (first : Bool) (read : List α) (rest : Bytes) :
    readItems item size first read (separated first (items.map text) ++ ascii ']' :: rest)
      = (items.mapM value).map fun l => (read.reverse ++ l, rest) := by
  induction items generalizing size first read with
  | nil =>
    cases size with
    | zero => simp at hsize
    | succ size =>
      rw [List.map_nil, separated, List.nil_append, readItems_of_close (nextItem_close first rest)]
      simp [pure, Except.pure, Except.map]
  | cons x items ih =>
    obtain ⟨hx, hitems⟩ := List.forall_mem_cons.1 hitem
    obtain ⟨hxbegins, hbegins⟩ := List.forall_mem_cons.1 hbegins
    cases size with
    | zero => simp at hsize
    | succ size =>
      rw [List.map_cons, separated, List.append_assoc, List.append_assoc,
        readItems_of_more (nextItem_separator first (hxbegins.append _)),
        hx _ (stops_separated _ (by decide) rest), List.mapM_cons]
      cases value x with
      | error e => rfl
      | ok v =>
        have hrest := ih hbegins hitems (Nat.lt_of_succ_lt_succ hsize) false (v :: read)
        simp only [Except.map, bind, Except.bind, hrest]
        cases items.mapM value <;> simp [pure, Except.pure]

end Items

/-! ### Members -/

section Members

variable {member : σ → String → Bytes → Except Failure (σ × Bytes)} {key : γ → String}
  {text : γ → Bytes} {effect : σ → γ → Except Failure σ}

/-- A written member: its key, a colon and its value. -/
def writeMember (key : String) (text : Bytes) : Bytes := Text.write key ++ ascii ':' :: text

/-- A round that finds a member reads it and goes on behind it. -/
theorem readMembers_of_more {size : Nat} {first : Bool} {s next behind : Bytes} {name : String}
    (h : nextMember first s = .ok (.more next)) (hkey : Text.read next = .ok (name, behind))
    (state : σ) :
    readMembers member (size + 1) first state s
      = member state name behind >>= fun (state, rest) =>
          readMembers member size false state rest := by
  rw [readMembers, h]
  simp only [bind, Except.bind, hkey]

/-- A round that finds the closing bracket ends the object. -/
theorem readMembers_of_close {size : Nat} {first : Bool} {s next : Bytes}
    (h : nextMember first s = .ok (.close next)) (state : σ) :
    readMembers member (size + 1) first state s = .ok (state, next) := by
  rw [readMembers, h]
  rfl

/-- An object of written members does to the state what the members do. -/
theorem readMembers_separated {members : List γ}
    (hmember : ∀ state, ∀ m ∈ members,
      Reads (member state (key m)) (ascii ':' :: text m) (effect state m))
    {size : Nat} (hsize : members.length < size) (first : Bool) (state : σ) (rest : Bytes) :
    readMembers member size first state
        (separated first (members.map fun m => writeMember (key m) (text m))
          ++ ascii '\x7d' :: rest)
      = (members.foldlM effect state).map (·, rest) := by
  induction members generalizing size first state with
  | nil =>
    cases size with
    | zero => simp at hsize
    | succ size =>
      rw [List.map_nil, separated, List.nil_append,
        readMembers_of_close (nextMember_close first rest)]
      rfl
  | cons m members ih =>
    cases size with
    | zero => simp at hsize
    | succ size =>
      have hm := hmember state m List.mem_cons_self
      rw [List.map_cons, separated, List.append_assoc, List.append_assoc, writeMember,
        List.append_assoc, Text.write_append,
        readMembers_of_more (nextMember_separator first _) (Text.read_flatMap_writeByte _ _),
        hm _ (stops_separated _ (by decide) rest), List.foldlM_cons]
      cases effect state m with
      | error e => rfl
      | ok next =>
        exact ih (fun s x hx => hmember s x (List.mem_cons_of_mem _ hx))
          (Nat.lt_of_succ_lt_succ hsize) false next

end Members

/-! ### Lengths -/

theorem length_le_separated {texts : List Bytes} {text : Bytes} (h : text ∈ texts) (first : Bool) :
    text.length ≤ (separated first texts).length := by
  induction texts generalizing first with
  | nil => cases h
  | cons t texts ih =>
    rw [separated, List.length_append, List.length_append]
    rcases List.mem_cons.1 h with rfl | h
    · omega
    · have hle := ih h false
      omega

theorem count_le_separated {texts : List Bytes} (h : ∀ text ∈ texts, text ≠ []) (first : Bool) :
    texts.length ≤ (separated first texts).length := by
  induction texts generalizing first with
  | nil => exact Nat.zero_le _
  | cons t texts ih =>
    obtain ⟨ht, htexts⟩ := List.forall_mem_cons.1 h
    have hlength := List.length_pos_iff.2 ht
    have hle := ih htexts false
    rw [separated, List.length_append, List.length_append, List.length_cons]
    omega

theorem writeItems_append (texts : List Bytes) (rest : Bytes) :
    writeItems texts ++ rest = ascii '[' :: (separated true texts ++ ascii ']' :: rest) := by
  simp [writeItems, commaSeparated_eq]

theorem writeMembers_append (ms : List (String × Bytes)) (rest : Bytes) :
    writeMembers ms ++ rest = ascii '\x7b'
      :: (separated true (ms.map fun m => writeMember m.1 m.2) ++ ascii '\x7d' :: rest) := by
  simp [writeMembers, commaSeparated_eq, writeMember]

theorem length_writeItems (texts : List Bytes) :
    (writeItems texts).length = (separated true texts).length + 2 := by
  simp [writeItems, commaSeparated_eq]

theorem length_writeMembers (ms : List (String × Bytes)) : (writeMembers ms).length
    = (separated true (ms.map fun m => writeMember m.1 m.2)).length + 2 := by
  simp [writeMembers, commaSeparated_eq, writeMember]

/-- An item is shorter than its array. -/
theorem length_lt_writeItems {texts : List Bytes} {text : Bytes} (h : text ∈ texts) :
    text.length < (writeItems texts).length := by
  have hle := length_le_separated h true
  rw [length_writeItems]
  omega

/-- An array has fewer items than bytes. -/
theorem count_lt_writeItems {texts : List Bytes} (h : ∀ text ∈ texts, text ≠ []) :
    texts.length < (writeItems texts).length := by
  have hle := count_le_separated h true
  rw [length_writeItems]
  omega

/-- The value of a member is shorter than its object. -/
theorem length_lt_writeMembers {ms : List (String × Bytes)} {m : String × Bytes} (h : m ∈ ms) :
    m.2.length < (writeMembers ms).length := by
  have hle := length_le_separated (List.mem_map_of_mem (f := fun m => writeMember m.1 m.2) h) true
  have hm : m.2.length ≤ (writeMember m.1 m.2).length := by
    simp only [writeMember, List.length_append, List.length_cons]
    omega
  rw [length_writeMembers]
  omega

/-- An object has fewer members than bytes. -/
theorem count_lt_writeMembers (ms : List (String × Bytes)) :
    ms.length < (writeMembers ms).length := by
  have hne : ∀ text ∈ ms.map fun m => writeMember m.1 m.2, text ≠ [] := by
    intro text htext
    obtain ⟨m, -, rfl⟩ := List.mem_map.1 htext
    exact List.cons_ne_nil _ _
  have hle := count_le_separated hne true
  rw [List.length_map] at hle
  rw [length_writeMembers]
  omega

end Json

end KeyVault
