import KeyVault.Proofs.Json.Spelling

/-!
# Records in any form

The members of a record may come in any order, with others of unknown names among them, and blanks
around all tokens. The record is read as long as each of its fields comes once. A field that comes
twice is refused, and so is one that does not come, unless it has a fallback.

## Main definitions

- `Json.Record.Fits`, `Json.Record.FitItems` — members and items that a record can have
- `Json.Record.Renders` — an object whose members fit a record
- `Json.Record.settle` — what is read of a record, by the names of the members

## Main statements

- `Json.Record.decode_of_renders`, `Json.Record.decode_of_spellsArray` — any object, and the array
- `records_are_read_in_any_form` — the exchanged records
-/

namespace KeyVault

namespace Json

open Bytes (ascii)

namespace Record

variable {depth : Nat} {fields : List Field} {limits : Limits}

/-! ### Members and items -/

/-- A member that a record can have: its value is decoded to the value of the field of its name, or
is any compact text if no field has its name. -/
def Fits : (fields : List Field) → Row fields → String × Bytes → Prop
  | [], _, m => IsText m.2
  | f :: fields, (value, row), m =>
    if m.1 = f.name then @decode f.type f.codec m.2 = .ok value else Fits fields row m

/-- Items that are decoded to the values of the fields, one after the other. -/
def FitItems : (fields : List Field) → Row fields → List Bytes → Prop
  | [], _, items => items = []
  | f :: fields, (value, row), items =>
    ∃ text others, items = text :: others ∧ @decode f.type f.codec text = .ok value ∧
      FitItems fields row others

/-- A text is an object with some members, which a record can have. -/
def Renders {α : Type} [Record α] (a : α) (members : List (String × Bytes)) (text : Bytes) : Prop :=
  Spells members text ∧ ∀ m ∈ members, Fits (Record.fields α) (toRow a) m

/-- What is read of a row if members of some names come. -/
def settle (fields : List Field) (row : Row fields) (names : List String) :
    Except Failure (Row fields) :=
  if (Draft.known fields names).Nodup then
    match (Draft.ofRow names fields row).finish fields with
    | some last => .ok last
    | none => .error .mismatch
  else .error .mismatch

theorem settle_congr {names names' : List String} (h : names.Perm names') (row : Row fields) :
    settle fields row names = settle fields row names' := by
  have hknown : (Draft.known fields names).Perm (Draft.known fields names') := h.filter _
  have hdraft : Draft.ofRow names fields row = Draft.ofRow names' fields row :=
    Draft.ofRow_congr (fun _ => h.mem_iff) fields row
  rw [settle, settle, hdraft]
  exact ite_congr (propext hknown.nodup_iff) (fun _ => rfl) fun _ => rfl

theorem settle_of_perm {row : Row fields} {names : List String}
    (hnodup : (fields.map Field.name).Nodup)
    (h : (Draft.known fields names).Perm (fields.map Field.name)) :
    settle fields row names = .ok row := by
  have hall : ∀ f ∈ fields, f.name ∈ names := by
    intro f hf
    have hmem := h.mem_iff.2 (List.mem_map_of_mem (f := Field.name) hf)
    exact (List.mem_filter.1 hmem).1
  rw [settle, if_pos (h.nodup_iff.2 hnodup), Draft.finish_ofRow hall]

theorem settle_of_repeated {row : Row fields} {names : List String}
    (h : ¬ (Draft.known fields names).Nodup) : settle fields row names = .error .mismatch :=
  if_neg h

theorem finish_ofRow_of_notMem {f : Field} (hf : f ∈ fields) (hfallback : f.fallback = none)
    {names : List String} (h : f.name ∉ names) (row : Row fields) :
    (Draft.ofRow names fields row).finish fields = none := by
  induction fields with
  | nil => cases hf
  | cons g fields ih =>
    obtain ⟨value, row⟩ := row
    rcases List.mem_cons.1 hf with rfl | hf
    · rw [Draft.ofRow, if_neg h, Draft.finish, hfallback]
      rfl
    · rw [Draft.ofRow, Draft.finish, ih hf row]
      cases (if g.name ∈ names then some value else none).or g.fallback <;> rfl

theorem finish_ofRow_of_fallback {f : Field} {value fallback : f.type}
    (h : f.fallback = some fallback) {names : List String} {row last : Row fields}
    (hlast : (Draft.ofRow names fields row).finish fields = some last) :
    (Draft.ofRow names (f :: fields) (value, row)).finish (f :: fields)
      = some (if f.name ∈ names then value else fallback, last) := by
  rw [Draft.ofRow, Draft.finish, h, hlast]
  by_cases hname : f.name ∈ names
  · rw [if_pos hname, if_pos hname]
    rfl
  · rw [if_neg hname, if_neg hname]
    rfl

theorem settle_of_missing {f : Field} (hf : f ∈ fields) (hfallback : f.fallback = none)
    {names : List String} (h : f.name ∉ names) (row : Row fields) :
    settle fields row names = .error .mismatch := by
  rw [settle, finish_ofRow_of_notMem hf hfallback h]
  exact ite_self _

/-! ### The object form -/

theorem readField_of_fits (hfields : FieldsStream depth fields) (hdepth : depth ≤ limits.depth)
    {row : Row fields} {m : String × Bytes} (hfits : Fits fields row m)
    (hsize : m.2.length < limits.size) (hname : m.1 ∈ fields.map Field.name) {gap gap' rest : Bytes}
    (hgap : Blank gap) (hgap' : Blank gap') (hrest : Number.Stops rest) (draft : Draft fields) :
    ∃ trail, Blank trail ∧
      readField limits m.1 fields draft (gap ++ ascii ':' :: (gap' ++ (m.2 ++ rest)))
        = some ((Draft.fill m.1 fields row draft).map (·, trail ++ rest)) := by
  induction fields with
  | nil => cases hname
  | cons f fields ih =>
    obtain ⟨hf, hfields⟩ := List.forall_mem_cons.1 hfields
    obtain ⟨value, row⟩ := row
    obtain ⟨slot, draft⟩ := draft
    rw [Fits] at hfits
    by_cases hsame : m.1 = f.name
    · rw [if_pos hsame] at hfits
      cases slot with
      | some _ =>
        refine ⟨[], List.forall_mem_nil _, ?_⟩
        simp only [readField, Draft.fill, if_pos hsame]
        rfl
      | none =>
        obtain ⟨trail, htrail, hread, -⟩ :=
          @Streams.exists_read f.type rest f.codec depth hf _ _ hfits _ hdepth hsize hrest
        refine ⟨trail, htrail, ?_⟩
        simp only [readField, Draft.fill, if_pos hsame, expect_blank_append hgap, bind, Except.bind,
          expect_cons (show isBlank (ascii ':') = false by decide), hf.blank_append _ hgap', hread]
        rfl
    · rw [if_neg hsame] at hfits
      rw [List.map_cons, List.mem_cons, or_iff_right hsame] at hname
      obtain ⟨trail, htrail, hread⟩ := ih hfields hfits hname draft
      refine ⟨trail, htrail, ?_⟩
      simp only [readField, Draft.fill, if_neg hsame, hread]
      cases Draft.fill m.1 fields row draft <;> rfl

/-- A member of an unknown name fits exactly if its value is a compact text. -/
theorem fits_iff_isText {row : Row fields} {m : String × Bytes}
    (hname : m.1 ∉ fields.map Field.name) : Fits fields row m ↔ IsText m.2 := by
  induction fields with
  | nil => rfl
  | cons f fields ih =>
    obtain ⟨value, row⟩ := row
    rw [List.map_cons, List.mem_cons, not_or] at hname
    rw [Fits, if_neg hname.1]
    exact ih hname.2

/-- A member that fits does to a draft what a member of its name does; one of an unknown name does
nothing. -/
theorem readMember_of_fits (hfields : FieldsStream depth fields) (hdepth : depth ≤ limits.depth)
    {row : Row fields} {m : String × Bytes} (hfits : Fits fields row m)
    (hsize : m.2.length < limits.size) {gap gap' rest : Bytes} (hgap : Blank gap)
    (hgap' : Blank gap') (hrest : Number.Stops rest) (draft : Draft fields) :
    ∃ trail, Blank trail ∧
      readMember fields limits draft m.1 (gap ++ ascii ':' :: (gap' ++ (m.2 ++ rest)))
        = (Draft.fill m.1 fields row draft).map (·, trail ++ rest) := by
  by_cases hname : m.1 ∈ fields.map Field.name
  · obtain ⟨trail, htrail, hread⟩ :=
      readField_of_fits hfields hdepth hfits hsize hname hgap hgap' hrest draft
    exact ⟨trail, htrail, by rw [readMember, hread]⟩
  · have hskip : skip limits.size (gap' ++ (m.2 ++ rest)) = .ok rest :=
      skip_of_isText ((fits_iff_isText hname).1 hfits) hgap' hrest (by omega)
    refine ⟨[], List.forall_mem_nil _, ?_⟩
    rw [readMember, readField_eq_none_iff.2 hname, Draft.fill_of_notMem hname]
    simp only [expect_blank_append hgap, bind, Except.bind,
      expect_cons (show isBlank (ascii ':') = false by decide), hskip]
    rfl

theorem readObject_of_fits (hnodup : (fields.map Field.name).Nodup)
    (hfields : FieldsStream depth fields) (hdepth : depth ≤ limits.depth) {row : Row fields}
    {members : List (String × Bytes)} {body : Bytes} (hbody : SpelledMembers true members body)
    (hfits : ∀ m ∈ members, Fits fields row m) (hsize : body.length < limits.size) (rest : Bytes) :
    readObject fields limits (body ++ rest)
      = (settle fields row (members.map Prod.fst)).map (·, rest) := by
  have hmembers : readMembers (readMember fields limits) limits.size true (.empty fields)
      ([] ++ (body ++ rest)) = (members.foldlM (fun draft m => Draft.fill m.1 fields row draft)
        (Draft.empty fields)).map (·, rest) := by
    refine readMembers_spelled hbody (fun draft m hm _ _ _ hgap hgap' hbehind => ?_)
      (Nat.lt_trans hbody.length_lt hsize) (List.forall_mem_nil _) _ rest
    exact readMember_of_fits hfields hdepth (hfits m hm)
      (Nat.lt_trans (hbody.length_value_lt hm) hsize) hgap hgap' hbehind draft
  have hfill := @Draft.foldlM_fill fields hnodup row (members.map Prod.fst) [] List.nodup_nil
  rw [Draft.ofRow_nil, List.foldlM_map, List.append_nil] at hfill
  rw [List.nil_append] at hmembers
  rw [readObject, hmembers, hfill, ← settle_congr (List.reverse_perm _), settle]
  by_cases honce : (Draft.known fields (members.map Prod.fst).reverse).Nodup
  · simp only [if_pos honce, Except.map, bind, Except.bind]
    cases (Draft.ofRow (members.map Prod.fst).reverse fields row).finish fields <;> rfl
  · simp only [if_neg honce, Except.map, bind, Except.bind]

/-- An object whose members fit a record is read as far as the names of the members allow. -/
theorem decode_of_renders {α : Type} [Record α] (hnodup : ((Record.fields α).map Field.name).Nodup)
    (hfields : FieldsStream depth (Record.fields α)) (hdepth : depth < greatestDepth) {a : α}
    {members : List (String × Bytes)} {text : Bytes} (h : Renders a members text) :
    decode text = (settle (Record.fields α) (toRow a) (members.map Prod.fst)).map ofRow := by
  obtain ⟨⟨gap, body, gap', hgap, hbody, hgap', htext⟩, hfits⟩ := h
  obtain ⟨hskip, hlength⟩ := skipBlanks_opened hgap (show isBlank (ascii '\x7b') = false by decide)
    body gap'
  rw [← htext] at hskip hlength
  have hread : readObject (Record.fields α) ⟨text.length + 1, 126⟩ (body ++ gap')
      = (settle (Record.fields α) (toRow a) (members.map Prod.fst)).map (·, gap') :=
    readObject_of_fits hnodup hfields (show depth ≤ 126 from Nat.le_of_lt_succ hdepth) hbody hfits
      hlength gap'
  have henter : Limits.enter ⟨text.length + 1, greatestDepth⟩ = .ok ⟨text.length + 1, 126⟩ := rfl
  rw [decode, decodeWithin]
  change (Record.read _ text >>= _) = _
  simp only [Record.read, hskip, if_true, henter, bind, Except.bind, hread]
  cases settle (Record.fields α) (toRow a) (members.map Prod.fst) with
  | error e => rfl
  | ok row => exact if_pos (skipBlanks_eq_nil_iff.2 hgap')

/-! ### The array form -/

theorem readArray_of_fits (hfields : FieldsStream depth fields) (hdepth : depth ≤ limits.depth)
    {row : Row fields} {items : List Bytes} (hfits : FitItems fields row items) {first : Bool}
    {body : Bytes} (hbody : SpelledItems first items body) (hsize : body.length < limits.size)
    {trail : Bytes} (htrail : Blank trail) (rest : Bytes) :
    readArray limits fields first (trail ++ (body ++ rest)) = .ok (row, rest) := by
  induction fields generalizing first items body trail with
  | nil =>
    obtain rfl : items = [] := hfits
    cases hbody with
    | close hgap =>
      rw [readArray, expect_blank_append htrail, List.append_assoc, expect_blank_append hgap]
      rfl
  | cons f fields ih =>
    obtain ⟨hf, hfields⟩ := List.forall_mem_cons.1 hfields
    obtain ⟨value, row⟩ := row
    obtain ⟨text, others, rfl, hdecode, hfits⟩ := hfits
    cases hbody with
    | @item _ lead _ behind _ hlead hbehind =>
      simp only [List.length_append] at hsize
      obtain ⟨trail', htrail', hread, hbegins⟩ := @Streams.exists_read f.type _ f.codec depth hf
        text value hdecode limits hdepth (by omega) (hbehind.stops rest)
      have hnext := nextItem_lead (hlead.blank_append htrail) hbegins
      simp only [List.append_assoc] at hnext ⊢
      rw [readArray, hnext]
      simp only [bind, Except.bind, hf.skips, hread, ih hfields hfits hbehind (by omega) htrail']
      rfl

/-- The texts of the fields in the order of their declaration, as an array. -/
theorem decode_of_spellsArray {α : Type} [Record α] (hfields : FieldsStream depth (Record.fields α))
    (hdepth : depth < greatestDepth) {a : α} {items : List Bytes} {text : Bytes}
    (h : SpellsArray items text) (hfits : FitItems (Record.fields α) (toRow a) items) :
    decode text = .ok a := by
  obtain ⟨gap, body, gap', hgap, hbody, hgap', htext⟩ := h
  obtain ⟨hskip, hlength⟩ := skipBlanks_opened hgap (show isBlank (ascii '[') = false by decide)
    body gap'
  rw [← htext] at hskip hlength
  have hread : readArray ⟨text.length + 1, 126⟩ (Record.fields α) true ([] ++ (body ++ gap'))
      = .ok (toRow a, gap') :=
    readArray_of_fits hfields (show depth ≤ 126 from Nat.le_of_lt_succ hdepth) hfits hbody hlength
      (List.forall_mem_nil _) gap'
  have henter : Limits.enter ⟨text.length + 1, greatestDepth⟩ = .ok ⟨text.length + 1, 126⟩ := rfl
  rw [List.nil_append] at hread
  refine decode_eq_ok_iff.2 ⟨gap', hgap', ?_⟩
  change Record.read _ text = _
  simp only [Record.read, hskip, if_neg (show ascii '[' ≠ ascii '\x7b' by decide), if_true, henter,
    bind, Except.bind, hread, ofRow_toRow]
  rfl

/-! ### All forms -/

/-- A record is read from every object that has one member for each of its fields, in any order and
among any others, and from the array of its fields; a member that comes twice is refused. -/
def ReadInAnyForm (α : Type) [Record α] : Prop :=
  ∀ a : α,
    (∀ members text, Renders a members text →
      (Draft.known (Record.fields α) (members.map Prod.fst)).Perm
        ((Record.fields α).map Field.name) → decode text = .ok a) ∧
    (∀ items text, SpellsArray items text → FitItems (Record.fields α) (toRow a) items →
      decode text = .ok a) ∧
    (∀ members text, Renders a members text →
      ¬ (Draft.known (Record.fields α) (members.map Prod.fst)).Nodup →
      (decode text : Except Failure α).mapError Failure.category = .error "data")

/-- An object that lacks a member for a field is refused. -/
def NeedsAllFields (α : Type) [Record α] : Prop :=
  ∀ (a : α) members text, Renders a members text →
    (∃ f ∈ Record.fields α, f.name ∉ members.map Prod.fst) →
    (decode text : Except Failure α).mapError Failure.category = .error "data"

theorem readInAnyForm {α : Type} [Record α] (hnodup : ((Record.fields α).map Field.name).Nodup)
    (hfields : FieldsStream depth (Record.fields α)) (hdepth : depth < greatestDepth) :
    ReadInAnyForm α := by
  refine fun a => ⟨fun members text hrenders hperm => ?_, fun items text hspells hfits => ?_,
    fun members text hrenders htwice => ?_⟩
  · rw [decode_of_renders hnodup hfields hdepth hrenders, settle_of_perm hnodup hperm]
    exact congrArg Except.ok (ofRow_toRow a)
  · exact decode_of_spellsArray hfields hdepth hspells hfits
  · rw [decode_of_renders hnodup hfields hdepth hrenders, settle_of_repeated htwice]
    rfl

theorem needsAllFields {α : Type} [Record α] (hnodup : ((Record.fields α).map Field.name).Nodup)
    (hfields : FieldsStream depth (Record.fields α)) (hdepth : depth < greatestDepth)
    (hrequired : ∀ f ∈ Record.fields α, f.fallback = none) : NeedsAllFields α := by
  rintro a members text hrenders ⟨f, hf, hmissing⟩
  rw [decode_of_renders hnodup hfields hdepth hrenders,
    settle_of_missing hf (hrequired f hf) hmissing]
  rfl

end Record

end Json

open Json Json.Record

/-- Settings of which the fields of some names are given, and the others have their defaults. -/
def Settings.given (names : List String) (s : Settings) : Settings where
  cost := if "kdf" ∈ names then s.cost else Settings.standard.cost
  keyNameTag := if "key_name_tag" ∈ names then s.keyNameTag else Settings.standard.keyNameTag
  keystoreHostname :=
    if "keystore_hostname" ∈ names then s.keystoreHostname else Settings.standard.keystoreHostname
  keystoreUsername :=
    if "keystore_username" ∈ names then s.keystoreUsername else Settings.standard.keystoreUsername

theorem decode_settings_of_renders {s : Settings} {members : List (String × Bytes)} {text : Bytes}
    (h : Renders s members text)
    (honce : (Draft.known (Record.fields Settings) (members.map Prod.fst)).Nodup) :
    decode text = .ok (s.given (members.map Prod.fst)) := by
  have hrow : (Draft.ofRow (members.map Prod.fst) (Record.fields Settings) (toRow s)).finish
      (Record.fields Settings) = some (toRow (s.given (members.map Prod.fst))) :=
    finish_ofRow_of_fallback rfl <| finish_ofRow_of_fallback rfl <| finish_ofRow_of_fallback rfl <|
      finish_ofRow_of_fallback rfl rfl
  rw [decode_of_renders (by decide) fieldsStream_settings (by decide) h, settle, if_pos honce, hrow]
  rfl

/-- Every exchanged record is read independently of the order of its members, of unknown members and
of blanks, and from the array of its fields. A repeated member is refused, and so is an object that
lacks a member, but for settings, which take their defaults. An unknown member may have any value as
it is written. -/
theorem records_are_read_in_any_form :
    (ReadInAnyForm Envelope ∧ ReadInAnyForm Credentials ∧ ReadInAnyForm KeyEntry ∧
      ReadInAnyForm KeyBag ∧ ReadInAnyForm KeyMaterial ∧ ReadInAnyForm Node ∧
      ReadInAnyForm StretchCost ∧ ReadInAnyForm Settings) ∧
    (NeedsAllFields Envelope ∧ NeedsAllFields Credentials ∧ NeedsAllFields KeyEntry ∧
      NeedsAllFields KeyBag ∧ NeedsAllFields KeyMaterial ∧ NeedsAllFields Node ∧
      NeedsAllFields StretchCost) ∧
    (∀ (s : Settings) members text, Renders s members text →
      (Draft.known (Record.fields Settings) (members.map Prod.fst)).Nodup →
      decode text = .ok (s.given (members.map Prod.fst))) ∧
    ∀ {α : Type} [Record α] (a : α) (name : String) (v : Value), v.Exact →
      name ∉ (Record.fields α).map Field.name →
      Fits (Record.fields α) (toRow a) (name, v.write) := by
  refine ⟨⟨?_, ?_, ?_, ?_, ?_, ?_, ?_, ?_⟩, ⟨?_, ?_, ?_, ?_, ?_, ?_, ?_⟩, ?_, ?_⟩
  · exact readInAnyForm (by decide) fieldsStream_envelope (by decide)
  · exact readInAnyForm (by decide) fieldsStream_credentials (by decide)
  · exact readInAnyForm (by decide) fieldsStream_keyEntry (by decide)
  · exact readInAnyForm (by decide) fieldsStream_keyBag (by decide)
  · exact readInAnyForm (by decide) fieldsStream_keyMaterial (by decide)
  · exact readInAnyForm (by decide) fieldsStream_node (by decide)
  · exact readInAnyForm (by decide) fieldsStream_stretchCost (by decide)
  · exact readInAnyForm (by decide) fieldsStream_settings (by decide)
  · exact needsAllFields (by decide) fieldsStream_envelope (by decide)
      (by simp [Record.fields, Field.required])
  · exact needsAllFields (by decide) fieldsStream_credentials (by decide)
      (by simp [Record.fields, Field.required])
  · exact needsAllFields (by decide) fieldsStream_keyEntry (by decide)
      (by simp [Record.fields, Field.required])
  · exact needsAllFields (by decide) fieldsStream_keyBag (by decide)
      (by simp [Record.fields, Field.required])
  · exact needsAllFields (by decide) fieldsStream_keyMaterial (by decide)
      (by simp [Record.fields, Field.required])
  · exact needsAllFields (by decide) fieldsStream_node (by decide)
      (by simp [Record.fields, Field.required])
  · exact needsAllFields (by decide) fieldsStream_stretchCost (by decide)
      (by simp [Record.fields, Field.required])
  · exact fun s members text h honce => decode_settings_of_renders h honce
  · exact fun a name v hexact hname => (fits_iff_isText hname).2 (Value.isText_write hexact)

/-- An envelope with its members the other way round, an unknown one before them, blanks, and a key
with an escape. -/
theorem envelope_is_read_among_unknown_members :
    let members := [("new", Bytes.ofString "[[],\x7b\"a\":null\x7d]"),
      ("blob", Bytes.ofString "[7 ]"), ("key_name", Bytes.ofString "\"n\"")]
    let text := Bytes.ofString
      "\x7b \"new\":[[],\x7b\"a\":null\x7d],\"blob\" : [7 ] ,\"key\\u005fname\":\"n\"\x7d"
    Renders (⟨"n", [7]⟩ : Envelope) members text ∧
      decode text = .ok (⟨"n", [7]⟩ : Envelope) := by
  intro members text
  have hnone : Blank [] := List.forall_mem_nil _
  have hone : Blank [0x20] := List.forall_mem_singleton.2 rfl
  have hbody : SpelledMembers true members (text.drop 1) :=
    .member ⟨[0x20], [], hone, hnone, rfl⟩ (show Text.Spells (Bytes.ofString "new") "new" from rfl)
      hnone hnone <|
    .member ⟨[], [], hnone, hnone, rfl⟩ (show Text.Spells (Bytes.ofString "blob") "blob" from rfl)
      hone hone <|
    .member ⟨[0x20], [], hone, hnone, rfl⟩
      (show Text.Spells (Bytes.ofString "key\\u005fname") "key_name" from rfl) hnone hnone <|
    .close hnone
  have hspells : Spells members text := ⟨[], text.drop 1, [], hnone, hbody, hnone, rfl⟩
  obtain ⟨⟨henvelope, -⟩, -, -, hwritten⟩ := records_are_read_in_any_form
  have hexact : (Value.array [.array [], .object [("a", .null)]]).Exact :=
    .array <| List.forall_mem_cons.2 ⟨.array (List.forall_mem_nil _), List.forall_mem_singleton.2 <|
      .object (List.pairwise_singleton _ _) (List.forall_mem_singleton.2 .null)⟩
  have hunknown : Fits (Record.fields Envelope) (toRow (⟨"n", [7]⟩ : Envelope))
      ("new", Bytes.ofString "[[],\x7b\"a\":null\x7d]") :=
    hwritten (⟨"n", [7]⟩ : Envelope) "new" _ hexact (by decide)
  have hfits : ∀ m ∈ members, Fits (Record.fields Envelope) (toRow (⟨"n", [7]⟩ : Envelope)) m :=
    List.forall_mem_cons.2 ⟨hunknown, List.forall_mem_cons.2 ⟨rfl, List.forall_mem_singleton.2 rfl⟩⟩
  have hrenders : Renders (⟨"n", [7]⟩ : Envelope) members text := ⟨hspells, hfits⟩
  exact ⟨hrenders, (henvelope ⟨"n", [7]⟩).1 members text hrenders (by decide)⟩

end KeyVault
