import KeyVault.Proofs.Json.Compact
import KeyVault.Proofs.Json.Readers
import Mathlib.Data.List.Forall2

/-!
# Objects and arrays in any spelling

An object can be spelled in many ways: its members come in any order, keys are written with or
without escapes, and blanks stand wherever a token ends. All spellings are read alike: the members
do to the state what they do in the order in which they come, and the items of an array are read one
after the other.

## Main definitions

- `Json.SpelledMembers`, `Json.SpelledItems` — what stands behind an opening bracket
- `Json.Spells`, `Json.SpellsArray` — the texts of an object and of an array

## Main statements

- `Json.readMembers_spelled` — members in any spelling
- `Json.decode_list_of_spellsArray` — an array in any spelling, as the list of its items
-/

namespace KeyVault

namespace Json

open Bytes (ascii)

variable {σ : Type} {gap rest : Bytes}

/-! ### Spellings -/

/-- A text between two quotes that is read as a name. -/
def Text.Spells (key : Bytes) (name : String) : Prop := read (key ++ [ascii '"']) = .ok (name, [])

/-- What stands before an item or a member: a comma, unless it is the first one, among blanks. -/
def Lead (first : Bool) (lead : Bytes) : Prop :=
  ∃ gap gap', Blank gap ∧ Blank gap' ∧ lead = gap ++ (separator first ++ gap')

/-- Members, each a name with the text of its value, up to the closing bracket of their object. -/
inductive SpelledMembers : (first : Bool) → List (String × Bytes) → Bytes → Prop
  | close {first : Bool} {gap : Bytes} (hgap : Blank gap) :
    SpelledMembers first [] (gap ++ [ascii '\x7d'])
  | member {first : Bool} {lead key gap gap' value text : Bytes} {name : String}
    {members : List (String × Bytes)} (hlead : Lead first lead) (hkey : Text.Spells key name)
    (hgap : Blank gap) (hgap' : Blank gap') (h : SpelledMembers false members text) :
    SpelledMembers first ((name, value) :: members)
      (lead ++ ascii '"' :: (key ++ ascii '"' :: (gap ++ ascii ':' :: (gap' ++ (value ++ text)))))

/-- Items up to the closing bracket of their array. -/
inductive SpelledItems : (first : Bool) → List Bytes → Bytes → Prop
  | close {first : Bool} {gap : Bytes} (hgap : Blank gap) :
    SpelledItems first [] (gap ++ [ascii ']'])
  | item {first : Bool} {lead item text : Bytes} {items : List Bytes} (hlead : Lead first lead)
    (h : SpelledItems false items text) :
    SpelledItems first (item :: items) (lead ++ (item ++ text))

/-- A text is an object with the given members. -/
def Spells (members : List (String × Bytes)) (text : Bytes) : Prop :=
  ∃ gap body gap', Blank gap ∧ SpelledMembers true members body ∧ Blank gap' ∧
    text = gap ++ ascii '\x7b' :: (body ++ gap')

/-- A text is an array with the given items. -/
def SpellsArray (items : List Bytes) (text : Bytes) : Prop :=
  ∃ gap body gap', Blank gap ∧ SpelledItems true items body ∧ Blank gap' ∧
    text = gap ++ ascii '[' :: (body ++ gap')

/-! ### Blanks -/

theorem Blank.append {gap' : Bytes} (h : Blank gap) (h' : Blank gap') : Blank (gap ++ gap') :=
  List.forall_mem_append.2 ⟨h, h'⟩

theorem Lead.blank_append {first : Bool} {lead : Bytes} (hgap : Blank gap) (h : Lead first lead) :
    Lead first (gap ++ lead) := by
  obtain ⟨before, behind, hbefore, hbehind, rfl⟩ := h
  exact ⟨gap ++ before, behind, hgap.append hbefore, hbehind, (List.append_assoc ..).symm⟩

theorem stops_blank_append (hgap : Blank gap) (hrest : Number.Stops rest) :
    Number.Stops (gap ++ rest) := by
  cases gap with
  | nil => exact hrest
  | cons b gap =>
    refine Number.stops_cons ?_ _
    have hb : isBlank b = true := hgap b List.mem_cons_self
    have hcases : ((b = 0x20 ∨ b = 0x0a) ∨ b = 0x09) ∨ b = 0x0d := by simpa [isBlank] using hb
    rcases hcases with ((rfl | rfl) | rfl) | rfl <;> rfl

theorem Lead.stops {lead : Bytes} (h : Lead false lead) (rest : Bytes) :
    Number.Stops (lead ++ rest) := by
  obtain ⟨before, behind, hbefore, -, rfl⟩ := h
  rw [List.append_assoc]
  exact stops_blank_append hbefore (Number.stops_cons rfl _)

theorem SpelledMembers.stops {members : List (String × Bytes)} {text : Bytes}
    (h : SpelledMembers false members text) (rest : Bytes) : Number.Stops (text ++ rest) := by
  cases h with
  | close hgap =>
    rw [List.append_assoc]
    exact stops_blank_append hgap (Number.stops_cons rfl _)
  | member hlead =>
    rw [List.append_assoc]
    exact hlead.stops _

theorem SpelledItems.stops {items : List Bytes} {text : Bytes} (h : SpelledItems false items text)
    (rest : Bytes) : Number.Stops (text ++ rest) := by
  cases h with
  | close hgap =>
    rw [List.append_assoc]
    exact stops_blank_append hgap (Number.stops_cons rfl _)
  | item hlead =>
    rw [List.append_assoc]
    exact hlead.stops _

/-! ### Turns -/

theorem nextMember_blank_append (hgap : Blank gap) (first : Bool) (s : Bytes) :
    nextMember first (gap ++ s) = nextMember first s := by
  rw [nextMember, nextMember, skipBlanks_blank_append hgap]

theorem nextItem_blank_append (hgap : Blank gap) (first : Bool) (s : Bytes) :
    nextItem first (gap ++ s) = nextItem first s := by
  rw [nextItem, nextItem, skipBlanks_blank_append hgap]

theorem expect_blank_append (hgap : Blank gap) (b : UInt8) (s : Bytes) :
    expect b (gap ++ s) = expect b s := by
  rw [expect, expect, skipBlanks_blank_append hgap]

theorem nextMember_lead {first : Bool} {lead : Bytes} (h : Lead first lead) (key : Bytes) :
    nextMember first (lead ++ ascii '"' :: key) = .ok (.more key) := by
  obtain ⟨before, behind, hbefore, hbehind, rfl⟩ := h
  rw [List.append_assoc, nextMember_blank_append hbefore, List.append_assoc]
  cases first with
  | true =>
    rw [separator, if_pos rfl, List.nil_append, nextMember_blank_append hbehind]
    exact nextMember_separator true key
  | false =>
    rw [separator, if_neg Bool.false_ne_true, List.singleton_append, nextMember,
      skipBlanks_cons (by decide)]
    simp only [if_neg (show ascii ',' ≠ ascii '\x7d' by decide), Bool.false_eq_true, if_false,
      if_true, expect_blank_append hbehind,
      expect_cons (show isBlank (ascii '"') = false by decide)]
    rfl

theorem nextItem_lead {first : Bool} {lead s : Bytes} (h : Lead first lead)
    (hs : Begins (skipBlanks s)) : nextItem first (lead ++ s) = .ok (.more (skipBlanks s)) := by
  obtain ⟨before, behind, hbefore, hbehind, rfl⟩ := h
  obtain ⟨b, tail, hskip, hblank, hclose⟩ := hs
  rw [List.append_assoc, nextItem_blank_append hbefore, List.append_assoc]
  cases first with
  | true =>
    rw [separator, if_pos rfl, List.nil_append, nextItem_blank_append hbehind, nextItem, hskip]
    simp only [if_neg hclose, if_true]
  | false =>
    rw [separator, if_neg Bool.false_ne_true, List.singleton_append, nextItem,
      skipBlanks_cons (by decide)]
    simp only [if_neg (show ascii ',' ≠ ascii ']' by decide), Bool.false_eq_true, if_false, if_true,
      skipBlanks_blank_append hbehind, hskip, if_neg hclose]

theorem Text.read_of_spells {key : Bytes} {name : String} (h : Spells key name) (rest : Bytes) :
    read (key ++ ascii '"' :: rest) = .ok (name, rest) := by
  have hread := read_append h rest
  rwa [List.append_assoc, List.singleton_append, List.nil_append] at hread

/-! ### Members -/

theorem SpelledMembers.length_lt {first : Bool} {members : List (String × Bytes)} {text : Bytes}
    (h : SpelledMembers first members text) : members.length < text.length := by
  induction h with
  | close => simp
  | member _ _ _ _ _ ih =>
    simp only [List.length_append, List.length_cons]
    omega

/-- The value of a member is shorter than its object. -/
theorem SpelledMembers.length_value_lt {first : Bool} {members : List (String × Bytes)}
    {text : Bytes} (h : SpelledMembers first members text) {m : String × Bytes} (hm : m ∈ members) :
    m.2.length < text.length := by
  induction h with
  | close => cases hm
  | member _ _ _ _ _ ih =>
    simp only [List.length_append, List.length_cons]
    rcases List.mem_cons.1 hm with rfl | hm
    · dsimp only
      omega
    · have hlt := ih hm
      omega

/-- Members in any spelling do to the state what they do one after the other. -/
theorem readMembers_spelled {member : σ → String → Bytes → Except Failure (σ × Bytes)}
    {effect : σ → String × Bytes → Except Failure σ} {first : Bool}
    {members : List (String × Bytes)}
    {text : Bytes} (h : SpelledMembers first members text)
    (hmember : ∀ state, ∀ m ∈ members, ∀ {gap gap' behind}, Blank gap → Blank gap' →
      Number.Stops behind → ∃ trail, Blank trail ∧
        member state m.1 (gap ++ ascii ':' :: (gap' ++ (m.2 ++ behind)))
          = (effect state m).map (·, trail ++ behind))
    {size : Nat} (hsize : members.length < size) {trail : Bytes} (htrail : Blank trail) (state : σ)
    (rest : Bytes) :
    readMembers member size first state (trail ++ (text ++ rest))
      = (members.foldlM effect state).map (·, rest) := by
  induction h generalizing size trail state with
  | @close first gap hgap =>
    obtain ⟨size, rfl⟩ := Nat.exists_eq_add_one.2 (Nat.zero_lt_of_lt hsize)
    have hclose : nextMember first (trail ++ (gap ++ [ascii '\x7d'] ++ rest))
        = .ok (.close rest) := by
      rw [nextMember_blank_append htrail, List.append_assoc, nextMember_blank_append hgap]
      exact nextMember_close first rest
    rw [readMembers_of_close hclose]
    rfl
  | @member first lead key gap gap' value text name members hlead hkey hgap hgap' h ih =>
    obtain ⟨size, rfl⟩ := Nat.exists_eq_add_one.2 (Nat.zero_lt_of_lt hsize)
    obtain ⟨trail', htrail', hm⟩ := hmember state (name, value) List.mem_cons_self hgap hgap'
      (h.stops rest)
    have hnext := fun s => nextMember_lead (hlead.blank_append htrail) s
    simp only [List.append_assoc, List.cons_append] at hnext ⊢
    rw [readMembers_of_more (hnext _) (Text.read_of_spells hkey _), hm, List.foldlM_cons]
    cases effect state (name, value) with
    | error e => rfl
    | ok next =>
      exact ih (fun s x hx => hmember s x (List.mem_cons_of_mem _ hx))
        (Nat.lt_of_succ_lt_succ hsize) htrail' next

/-! ### Items -/

theorem skipBlanks_opened {b : UInt8} {gap : Bytes} (hgap : Blank gap) (hb : isBlank b = false)
    (body gap' : Bytes) :
    skipBlanks (gap ++ b :: (body ++ gap')) = b :: (body ++ gap') ∧
      body.length < (gap ++ b :: (body ++ gap')).length + 1 := by
  refine ⟨by rw [skipBlanks_blank_append hgap, skipBlanks_cons hb], ?_⟩
  simp only [List.length_append, List.length_cons]
  omega

section Lists

variable {α : Type} [Codec α] {depth : Nat} {texts : List Bytes} {values : List α}

/-- Items in any spelling are read one after the other. -/
theorem readItems_spelled
    (hstreams : Streams depth (Codec.read : Limits → Bytes → Except Failure (α × Bytes)))
    {limits : Limits} (hdepth : depth ≤ limits.depth) {first : Bool} {body : Bytes}
    (hbody : SpelledItems first texts body)
    (hdecode : List.Forall₂ (fun text a => decode text = .ok a) texts values)
    (hlength : body.length < limits.size) {size : Nat} (hsize : body.length < size)
    {trail : Bytes} (htrail : Blank trail) (read : List α) (rest : Bytes) :
    readItems (Codec.read limits) size first read (trail ++ (body ++ rest))
      = .ok (read.reverse ++ values, rest) := by
  induction hbody generalizing values size trail read with
  | @close first gap hgap =>
    obtain ⟨size, rfl⟩ := Nat.exists_eq_add_one.2 (Nat.zero_lt_of_lt hsize)
    obtain rfl := List.forall₂_nil_left_iff.1 hdecode
    have hclose : nextItem first (trail ++ (gap ++ [ascii ']'] ++ rest)) = .ok (.close rest) := by
      rw [nextItem_blank_append htrail, List.append_assoc, nextItem_blank_append hgap]
      exact nextItem_close first rest
    rw [readItems_of_close hclose, List.append_nil]
  | @item first lead item text items hlead hbody ih =>
    obtain ⟨size, rfl⟩ := Nat.exists_eq_add_one.2 (Nat.zero_lt_of_lt hsize)
    obtain ⟨a, others, ha, hothers, rfl⟩ := List.forall₂_cons_left_iff.1 hdecode
    -- An item has at least one byte, so that each round leaves a shorter text.
    have hitem : item.length ≠ 0 := by
      intro hzero
      rw [List.length_eq_zero_iff.1 hzero, decode, decodeWithin, hstreams.ended] at ha
      cases ha
    simp only [List.length_append] at hlength hsize
    obtain ⟨trail', htrail', hread, hbegins⟩ :=
      hstreams.exists_read ha hdepth (by omega) (hbody.stops rest)
    have hnext := nextItem_lead (hlead.blank_append htrail) hbegins
    simp only [List.append_assoc] at hnext ⊢
    rw [readItems_of_more hnext, hstreams.skips, hread]
    change readItems _ size false (a :: read) (trail' ++ (text ++ rest)) = _
    rw [ih hothers (by omega) (by omega) htrail', List.reverse_cons, List.append_assoc,
      List.singleton_append]

/-- An array in any spelling is read as the list of its items. -/
theorem decode_list_of_spellsArray
    (hstreams : Streams depth (Codec.read : Limits → Bytes → Except Failure (α × Bytes)))
    (hdepth : depth < greatestDepth) {text : Bytes} (h : SpellsArray texts text)
    (hdecode : List.Forall₂ (fun text a => decode text = .ok a) texts values) :
    decode text = .ok values := by
  obtain ⟨gap, body, gap', hgap, hbody, hgap', htext⟩ := h
  obtain ⟨hskip, hlength⟩ := skipBlanks_opened hgap (show isBlank (ascii '[') = false by decide)
    body gap'
  rw [← htext] at hskip hlength
  have hread : readItems (Codec.read ⟨text.length + 1, 126⟩) (text.length + 1) true []
      ([] ++ (body ++ gap')) = .ok (values, gap') :=
    readItems_spelled hstreams (show depth ≤ 126 from Nat.le_of_lt_succ hdepth) hbody hdecode
      hlength hlength (List.forall_mem_nil _) [] gap'
  refine decode_eq_ok_iff.2 ⟨gap', hgap', ?_⟩
  change readList _ _ text = _
  rw [readList, hskip]
  exact hread

end Lists

end Json

end KeyVault
