import KeyVault.Proofs.Except
import KeyVault.Proofs.Json.Brackets

/-!
# Written texts that are cut off

A reader goes along with a written text as far as it reaches. Where bytes are missing at the end it
asks for more, or it has taken the front of a number for the whole of it and finds nothing behind;
what stands around the number asks for more then.

## Main definitions

- `Json.Cut` — a text that lacks bytes at its end
- `Json.RunsOut` — what a reader makes of a text that ends too early
- `Json.Follows` — a reader reads a text, and runs out on every cut of it

## Main statements

- `Json.Text.read_of_cut`, `Json.runsOut_readNat` — strings and numbers that are cut off
- `Json.readItems_of_cut`, `Json.readMembers_of_cut` — arrays and objects that are cut off
-/

namespace KeyVault

namespace Json

open Bytes (ascii)

variable {α β γ σ : Type} {part text front rest : Bytes}

/-- A text without some of the bytes at its end. -/
def Cut (part text : Bytes) : Prop := ∃ lost, lost ≠ [] ∧ part ++ lost = text

/-- A reader misses something, or has nothing left. -/
def RunsOut (result : Except Failure (α × Bytes)) : Prop :=
  result = .error .ended ∨ ∃ a, result = .ok (a, [])

/-- A reader reads a text as a value and runs out on every cut of it, as far as they are shorter
than the bound. -/
structure Follows (bound : Nat) (reader : Bytes → Except Failure (α × Bytes)) (text : Bytes)
    (a : α) : Prop where
  whole : text.length < bound → Reads reader text (.ok a)
  cut : ∀ part, Cut part text → part.length < bound → RunsOut (reader part)

/-! ### Cuts -/

theorem not_cut_nil : ¬ Cut part [] := by
  rintro ⟨lost, hlost, happend⟩
  exact hlost (List.append_eq_nil_iff.1 happend).2

/-- A text that is cut off ends in front of its first byte, or somewhere behind it. -/
theorem Cut.cons_cases {b : UInt8} (h : Cut part (b :: text)) :
    part = [] ∨ ∃ rest, part = b :: rest ∧ Cut rest text := by
  obtain ⟨lost, hlost, happend⟩ := h
  cases part with
  | nil => exact .inl rfl
  | cons c rest =>
    obtain ⟨rfl, htail⟩ := List.cons.inj happend
    exact .inr ⟨rest, rfl, lost, hlost, htail⟩

theorem Cut.eq_nil {b : UInt8} (h : Cut part [b]) : part = [] := by
  rcases h.cons_cases with hnil | ⟨rest, -, hrest⟩
  · exact hnil
  · exact absurd hrest not_cut_nil

/-- Of two texts behind one another the first one is cut off, or it is there and the second one is
cut off. -/
theorem Cut.append_cases (h : Cut part (front ++ text)) :
    Cut part front ∨ ∃ rest, part = front ++ rest ∧ Cut rest text := by
  induction front generalizing part with
  | nil => exact .inr ⟨part, rfl, h⟩
  | cons b front ih =>
    rcases h.cons_cases with rfl | ⟨rest, rfl, hrest⟩
    · exact .inl ⟨b :: front, List.cons_ne_nil b front, rfl⟩
    · rcases ih hrest with ⟨lost, hlost, rfl⟩ | ⟨behind, rfl, hbehind⟩
      · exact .inl ⟨lost, hlost, rfl⟩
      · exact .inr ⟨behind, rfl, hbehind⟩

theorem Cut.stops (h : Cut part text) (hstops : Number.Stops text) : Number.Stops part := by
  obtain ⟨lost, -, rfl⟩ := h
  cases part with
  | nil => exact Number.stops_nil
  | cons b part => exact hstops

theorem Cut.nil_or_begins (h : Cut part text) (hbegins : Begins text) :
    part = [] ∨ Begins part := by
  obtain ⟨b, tail, rfl, hblank, hclose⟩ := hbegins
  rcases h.cons_cases with rfl | ⟨rest, rfl, -⟩
  · exact .inl rfl
  · exact .inr ⟨b, rest, rfl, hblank, hclose⟩

theorem Cut.separator_cases {first : Bool} (h : Cut part (separator first ++ text)) :
    part = [] ∨ ∃ rest, part = separator first ++ rest ∧ Cut rest text := by
  rcases h.append_cases with hcomma | hbehind
  · cases first with
    | true => exact absurd hcomma not_cut_nil
    | false => exact .inl hcomma.eq_nil
  · exact .inr hbehind

/-! ### Readers that run out -/

theorem RunsOut.bind {result : Except Failure (α × Bytes)} (h : RunsOut result)
    {next : α × Bytes → Except Failure (β × Bytes)} (hnext : ∀ a, RunsOut (next (a, []))) :
    RunsOut (result >>= next) := by
  rcases h with rfl | ⟨a, rfl⟩
  · exact .inl rfl
  · exact hnext a

/-- A reader that asks for more where another one runs out. -/
theorem RunsOut.bind_eq_ended {result : Except Failure (α × Bytes)} (h : RunsOut result)
    {next : α × Bytes → Except Failure (β × Bytes)} (hnext : ∀ a, next (a, []) = .error .ended) :
    result >>= next = .error .ended := by
  rcases h with rfl | ⟨a, rfl⟩
  · rfl
  · exact hnext a

theorem RunsOut.map {result : Except Failure (α × Bytes)} (h : RunsOut result) (f : α → β) :
    RunsOut (result >>= fun (a, rest) => pure (f a, rest)) :=
  h.bind fun a => .inr ⟨f a, rfl⟩

/-! ### Scalars -/

theorem literal_of_cut (h : Cut part text) : literal text part = .error .ended := by
  induction text generalizing part with
  | nil => exact absurd h not_cut_nil
  | cons b text ih =>
    rcases h.cons_cases with rfl | ⟨rest, rfl, hrest⟩
    · rfl
    · rw [literal, if_pos rfl, ih hrest]

namespace Text

/-- A string whose closing quote is among the missing bytes does not end. -/
theorem scan_of_append {paired : Bool} {state : State} {read lost bytes : Bytes}
    (h : scan paired state read (part ++ lost) = .ok (bytes, rest))
    (hlost : rest.length < lost.length) : scan paired state read part = .error .ended := by
  induction part generalizing state read with
  | nil => rfl
  | cons b part ih =>
    rw [List.cons_append, scan] at h
    rw [scan]
    cases hstep : step paired state b with
    | close =>
      rw [hstep] at h
      obtain ⟨-, rfl⟩ := Prod.mk.inj (Except.ok.inj h)
      rw [List.length_append] at hlost
      omega
    | more next out =>
      rw [hstep] at h
      exact ih h
    | refuse =>
      rw [hstep] at h
      cases h

theorem cut_write_cases {string : String} (h : Cut part (write string)) :
    part = [] ∨ ∃ rest, part = ascii '"' :: rest ∧
      Cut rest ((Bytes.ofString string).flatMap writeByte ++ [ascii '"']) :=
  h.cons_cases

/-- A written string that is cut off, from behind its opening quote on. -/
theorem read_of_cut {string : String}
    (h : Cut part ((Bytes.ofString string).flatMap writeByte ++ [ascii '"'])) :
    read part = .error .ended := by
  obtain ⟨lost, hlost, happend⟩ := h
  have hscan : scan true .plain [] (part ++ lost)
      = .ok (((Bytes.ofString string).reverse ++ []).reverse, []) := by
    rw [happend, scan_flatMap_writeByte, scan_of_close rfl]
  rw [read, scan_of_append hscan (List.length_pos_iff.2 hlost)]
  rfl

end Text

/-- The front of a number is nothing, or a number that is not greater. -/
theorem Cut.nil_or_digits {n : Nat} (h : Cut part (Decimal.digits n)) :
    part = [] ∨ ∃ m ≤ n, part = Decimal.digits m := by
  induction n using Nat.strongRecOn generalizing part with
  | _ n ih =>
    rw [Decimal.digits] at h
    split at h
    · exact .inl h.eq_nil
    · have hlt : n / 10 < n := by omega
      rcases h.append_cases with hfront | ⟨rest, rfl, hrest⟩
      · rcases ih (n / 10) hlt hfront with hnil | ⟨m, hm, hpart⟩
        · exact .inl hnil
        · exact .inr ⟨m, by omega, hpart⟩
      · rw [hrest.eq_nil, List.append_nil]
        exact .inr ⟨n / 10, Nat.le_of_lt hlt, rfl⟩

/-- A written number that is cut off. -/
theorem runsOut_readNat {n bound : Nat} (hn : n ≤ bound)
    (hbound : bound ≤ Number.greatestSignificand) (h : Cut part (Decimal.digits n)) :
    RunsOut (readNat bound part) := by
  rcases h.nil_or_digits with rfl | ⟨m, hm, rfl⟩
  · exact .inl rfl
  · have hread := readNat_digits (Nat.le_trans hm hn) hbound Number.stops_nil
    rw [List.append_nil] at hread
    exact .inr ⟨m, hread⟩

/-! ### Items -/

section Items

variable {item : Bytes → Except Failure (α × Bytes)}

theorem readItems_nil (size : Nat) (first : Bool) (read : List α) :
    readItems item size first read [] = .error .ended := by
  cases size <;> rfl

/-- An array that ends behind a comma. -/
theorem readItems_separator (size : Nat) (first : Bool) (read : List α) :
    readItems item size first read (separator first) = .error .ended := by
  cases size <;> cases first <;> rfl

/-- Written items that are cut off, from behind their opening bracket on. -/
theorem readItems_of_cut {bound : Nat} {written : γ → Bytes} {value : γ → α} {items : List γ}
    (hbegins : ∀ x ∈ items, Begins (written x))
    (hitem : ∀ x ∈ items, Follows bound item (written x) (value x)) {size : Nat} {first : Bool}
    {read : List α} (h : Cut part (separated first (items.map written) ++ [ascii ']']))
    (hbound : part.length < bound) : readItems item size first read part = .error .ended := by
  induction items generalizing size first read part with
  | nil =>
    rw [h.eq_nil]
    exact readItems_nil size first read
  | cons x items ih =>
    obtain ⟨hx, hitem⟩ := List.forall_mem_cons.1 hitem
    obtain ⟨hxbegins, hbegins⟩ := List.forall_mem_cons.1 hbegins
    rw [List.map_cons, separated, List.append_assoc, List.append_assoc] at h
    rcases h.separator_cases with rfl | ⟨rest, rfl, hrest⟩
    · exact readItems_nil size first read
    rcases hrest.nil_or_begins (hxbegins.append _) with rfl | hnext
    · rw [List.append_nil]
      exact readItems_separator size first read
    cases size with
    | zero => rfl
    | succ size =>
      rw [List.length_append] at hbound
      rw [readItems_of_more (nextItem_separator first hnext)]
      -- The item is cut off itself, or it is there and something behind it is missing.
      rcases hrest.append_cases with hcut | ⟨behind, rfl, hbehind⟩
      · exact (hx.cut rest hcut (by omega)).bind_eq_ended fun a =>
          readItems_nil size false (a :: read)
      · rw [List.length_append] at hbound
        rw [hx.whole (by omega) behind (hbehind.stops (stops_separated _ (by decide) []))]
        exact ih hbegins hitem hbehind (by omega)

/-- A written array that is cut off. -/
theorem cut_writeItems_cases {texts : List Bytes} (h : Cut part (writeItems texts)) :
    part = [] ∨
      ∃ rest, part = ascii '[' :: rest ∧ Cut rest (separated true texts ++ [ascii ']']) := by
  rw [← List.append_nil (writeItems texts), writeItems_append] at h
  exact h.cons_cases

end Items

/-! ### Members -/

section Members

variable {member : σ → String → Bytes → Except Failure (σ × Bytes)}

theorem readMembers_nil (size : Nat) (first : Bool) (state : σ) :
    readMembers member size first state [] = .error .ended := by
  cases size <;> rfl

/-- An object that ends behind a comma. -/
theorem readMembers_separator (size : Nat) (first : Bool) (state : σ) :
    readMembers member size first state (separator first) = .error .ended := by
  cases size <;> cases first <;> rfl

/-- An object that ends in the key of a member. -/
theorem readMembers_of_key {size : Nat} {first : Bool} {s next : Bytes}
    (h : nextMember first s = .ok (.more next)) (hkey : Text.read next = .error .ended)
    (state : σ) :
    readMembers member size first state s = .error .ended := by
  cases size with
  | zero => rfl
  | succ size =>
    rw [readMembers, h]
    simp only [bind, Except.bind, hkey]

/-- Written members that are cut off, from behind their opening bracket on, if none of them is
refused. -/
theorem readMembers_of_cut {bound : Nat} {key : γ → String} {written : γ → Bytes}
    {effect : σ → γ → Except Failure σ} {members : List γ}
    (hmember : ∀ state, ∀ m ∈ members, ∀ next, effect state m = .ok next →
      Follows bound (member state (key m)) (ascii ':' :: written m) next)
    {size : Nat} {first : Bool} {state last : σ} (hlast : members.foldlM effect state = .ok last)
    (h : Cut part (separated first (members.map fun m => writeMember (key m) (written m))
      ++ [ascii '\x7d'])) (hbound : part.length < bound) :
    readMembers member size first state part = .error .ended := by
  induction members generalizing size first state part with
  | nil =>
    rw [h.eq_nil]
    exact readMembers_nil size first state
  | cons m members ih =>
    rw [List.map_cons, separated, List.append_assoc, List.append_assoc, writeMember,
      List.append_assoc] at h
    rw [List.foldlM_cons] at hlast
    obtain ⟨after, hafter, hlast⟩ := bind_eq_ok_iff.1 hlast
    rcases h.separator_cases with rfl | ⟨rest, rfl, hrest⟩
    · exact readMembers_nil size first state
    rcases hrest.append_cases with hkey | ⟨value, rfl, hvalue⟩
    · rcases Text.cut_write_cases hkey with rfl | ⟨next, rfl, hnext⟩
      · rw [List.append_nil]
        exact readMembers_separator size first state
      · exact readMembers_of_key (nextMember_separator first next) (Text.read_of_cut hnext) state
    cases size with
    | zero => rfl
    | succ size =>
      have hm := hmember state m List.mem_cons_self after hafter
      rw [List.length_append, List.length_append] at hbound
      rw [Text.write_append, readMembers_of_more (nextMember_separator first _)
        (Text.read_flatMap_writeByte _ _)]
      -- The value is cut off itself, or it is there and something behind it is missing.
      rcases hvalue.append_cases with hcut | ⟨behind, rfl, hbehind⟩
      · exact (hm.cut value hcut (by omega)).bind_eq_ended fun next =>
          readMembers_nil size false next
      · rw [List.length_append] at hbound
        rw [hm.whole (by omega) behind (hbehind.stops (stops_separated _ (by decide) []))]
        exact ih (fun s x hx => hmember s x (List.mem_cons_of_mem m hx)) hlast hbehind (by omega)

/-- A written object that is cut off. -/
theorem cut_writeMembers_cases {members : List (String × Bytes)}
    (h : Cut part (writeMembers members)) :
    part = [] ∨ ∃ rest, part = ascii '\x7b' :: rest ∧
      Cut rest (separated true (members.map fun m => writeMember m.1 m.2) ++ [ascii '\x7d']) := by
  rw [← List.append_nil (writeMembers members), writeMembers_append] at h
  exact h.cons_cases

end Members

end Json

end KeyVault
