import KeyVault.Proofs.DataTypeSet
import KeyVault.Proofs.Json.Spelling

/-!
# Sets of data types are canonical

However a set of data types comes about, its types are listed in the order of their declaration,
each once. What was put in first, or more than once, leaves no trace: sets with the same types are
equal, and so are their lists and their texts.

## Main definitions

- `DataType.Spelled` — the texts of a type, a string or an object
- `DataTypeSet.Built` — the sets that can be built, with the types that went into them

## Main statements

- `DataType.decode_of_spelled` — all texts of a type are read alike
- `DataTypeSet.Built.has_iff` — a set holds what went into it
- `DataTypeSet.hasAll_iff` — a set holds another one if putting in all of its types changes nothing
- `DataTypeSet.sets_are_canonical` — all sets that can be built
-/

namespace KeyVault

open Json
open Bytes (ascii)

namespace DataType

variable {t : DataType} {limits : Limits} {gap gap' key rest : Bytes}

/-! ### Texts of a type -/

/-- The texts of a type: its name as a string, or an object with the name as its only key and null
as the value, with blanks wherever they may stand. -/
inductive Spelled (t : DataType) : Bytes → Prop
  | string {gap key gap' : Bytes} (hgap : Blank gap) (hkey : Text.Spells key t.name)
    (hgap' : Blank gap') : Spelled t (gap ++ ascii '"' :: (key ++ ascii '"' :: gap'))
  | object {text : Bytes} (h : Spells [(t.name, Bytes.ofString "null")] text) : Spelled t text

theorem ofString_name (t : DataType) : ofString t.name = .ok t := by
  rw [ofString, ofName?_name]

theorem read_of_string (hgap : Blank gap) (hkey : Text.Spells key t.name) :
    DataType.read limits (gap ++ ascii '"' :: (key ++ ascii '"' :: rest)) = .ok (t, rest) := by
  rw [DataType.read, skipBlanks_blank_append hgap, skipBlanks_cons (by decide)]
  simp only [if_true, Text.read_of_spells hkey, bind, Except.bind, ofString_name]
  rfl

theorem readNull_blank_append (hgap : Blank gap) (rest : Bytes) :
    readNull (gap ++ (Bytes.ofString "null" ++ rest)) = .ok rest := by
  change readNull (gap ++ ascii 'n' :: (Bytes.ofString "ull" ++ rest)) = _
  rw [readNull, skipBlanks_blank_append hgap, skipBlanks_cons (by decide)]
  exact literal_append _ rest

theorem read_of_object (hgap : Blank gap) {body : Bytes}
    (hbody : SpelledMembers true [(t.name, Bytes.ofString "null")] body)
    (hdepth : 1 ≤ limits.depth) :
    DataType.read limits (gap ++ ascii '\x7b' :: (body ++ rest)) = .ok (t, rest) := by
  obtain ⟨inner, henter, -⟩ := Limits.exists_enter hdepth
  cases hbody with
  | @member _ lead key colon value _ close _ _ hlead hkey hcolon hvalue hbody =>
    obtain ⟨before, behind, hbefore, hbehind, rfl⟩ := hlead
    cases hbody with
    | close hclose =>
      rw [DataType.read, skipBlanks_blank_append hgap, skipBlanks_cons (by decide)]
      simp only [if_neg (show ascii '\x7b' ≠ ascii '"' by decide), if_true, henter, separator,
        List.nil_append, List.append_assoc, List.cons_append, expect_blank_append hbefore,
        expect_blank_append hbehind, expect_cons (show isBlank (ascii '"') = false by decide),
        Text.read_of_spells hkey, bind, Except.bind, ofString_name, expect_blank_append hcolon,
        expect_cons (show isBlank (ascii ':') = false by decide), readNull_blank_append hvalue,
        expect_blank_append hclose, expect_cons (show isBlank (ascii '\x7d') = false by decide)]
      rfl

/-- All texts of a type are read alike. -/
theorem decode_of_spelled {text : Bytes} (h : t.Spelled text) : decode text = .ok t := by
  cases h with
  | @string gap key gap' hgap hkey hgap' =>
    exact decode_eq_ok_iff.2 ⟨gap', hgap', read_of_string hgap hkey⟩
  | object h =>
    obtain ⟨gap, body, gap', hgap, hbody, hgap', rfl⟩ := h
    have hdepth : 1 ≤ greatestDepth := by decide
    exact decode_eq_ok_iff.2 ⟨gap', hgap', read_of_object hgap hbody hdepth⟩

end DataType

namespace DataTypeSet

variable {s other : DataTypeSet} {l m : List DataType}

/-! ### Lists of types -/

/-- A set is decoded as the list of its types. -/
theorem decode_eq (text : Bytes) : (decode text : Except Failure DataTypeSet)
    = (decode text : Except Failure (List DataType)).map ofList := by
  simp only [decode, decodeWithin, read_eq]
  cases (Codec.read _ text : Except Failure (List DataType × Bytes)) with
  | error e => rfl
  | ok result =>
    obtain ⟨types, rest⟩ := result
    by_cases hrest : skipBlanks rest = []
    · simp only [bind, Except.bind, pure, Except.pure, if_pos hrest, Except.map]
    · simp only [bind, Except.bind, pure, Except.pure, if_neg hrest, Except.map]

/-- An array of texts of types is read as the set of these types. -/
theorem decode_of_spelled {texts : List Bytes} {text : Bytes} (h : SpellsArray texts text)
    (hspelled : List.Forall₂ DataType.Spelled l texts) : decode text = .ok (ofList l) := by
  have hdecode : List.Forall₂ (fun text t => decode text = .ok t) texts l :=
    hspelled.flip.imp fun _ _ => DataType.decode_of_spelled
  rw [decode_eq, decode_list_of_spellsArray streams_dataType (by decide) h hdecode]
  rfl

/-- The types of a set are listed in the order of their declaration. -/
theorem pairwise_toList (s : DataTypeSet) :
    s.toList.Pairwise fun t u => t.ctorIdx < u.ctorIdx := by
  have hall : DataType.all.Pairwise fun t u => t.ctorIdx < u.ctorIdx := by decide
  exact hall.filter _

/-! ### Building sets -/

/-- The sets that can be built, with all types that went into them. -/
inductive Built : List DataType → DataTypeSet → Prop
  | empty : Built [] empty
  | put {l : List DataType} {s : DataTypeSet} (h : Built l s) (t : DataType) :
    Built (l ++ [t]) (s.put t)
  | putAll {l m : List DataType} {s other : DataTypeSet} (h : Built l s) (h' : Built m other) :
    Built (l ++ m) (s.putAll other)
  | collected (l : List DataType) : Built l (ofList l)
  | decoded {l : List DataType} {texts : List Bytes} {text : Bytes} {s : DataTypeSet}
    (hspelled : List.Forall₂ DataType.Spelled l texts) (harray : SpellsArray texts text)
    (h : decode text = .ok s) : Built l s

/-- A set holds what went into it, and nothing else. -/
theorem Built.has_iff (h : Built l s) (t : DataType) : s.has t = true ↔ t ∈ l := by
  induction h with
  | empty => simp
  | put _ u ih =>
    rw [has_put, Bool.or_eq_true, beq_iff_eq, ih, List.mem_append, List.mem_singleton,
      @eq_comm _ u t]
  | putAll _ _ ih ih' => rw [has_putAll, Bool.or_eq_true, ih, ih', List.mem_append]
  | collected l => exact has_ofList l t
  | decoded hspelled harray h =>
    rw [decode_of_spelled harray hspelled] at h
    obtain rfl := Except.ok.inj h
    exact has_ofList _ t

/-- Neither the order in which types went into a set nor repetitions make a difference. -/
theorem Built.eq_of_same_members (h : Built l s) (h' : Built m other)
    (hsame : ∀ t, t ∈ l ↔ t ∈ m) : s = other := by
  apply ext_has
  intro t
  rw [Bool.eq_iff_iff, h.has_iff, h'.has_iff]
  exact hsame t

/-! ### Putting in all types of a set -/

/-- All types of a set are put in one by one. -/
theorem putAll_eq_foldl_put (s other : DataTypeSet) :
    s.putAll other = other.toList.foldl put s := by
  apply ext_has
  intro t
  rw [Bool.eq_iff_iff, has_foldl_put, has_putAll, Bool.or_eq_true, mem_toList]

theorem putAll_comm (s other : DataTypeSet) : s.putAll other = other.putAll s := by
  apply ext_has
  intro t
  rw [has_putAll, has_putAll, Bool.or_comm]

theorem putAll_assoc (s other third : DataTypeSet) :
    (s.putAll other).putAll third = s.putAll (other.putAll third) := by
  apply ext_has
  intro t
  simp only [has_putAll, Bool.or_assoc]

theorem putAll_self (s : DataTypeSet) : s.putAll s = s := by
  apply ext_has
  intro t
  rw [has_putAll, Bool.or_self]

theorem hasAll_eq_true : s.hasAll other = true ↔ ∀ t, other.has t = true → s.has t = true := by
  rw [hasAll, List.all_eq_true]
  constructor
  · intro hall t ht
    have hor := hall t t.mem_all
    rwa [ht, Bool.not_true, Bool.false_or] at hor
  · intro hall t _
    cases ht : other.has t with
    | true => exact hall t ht
    | false => rfl

/-- A set holds another one if putting in all types of the other one changes nothing. -/
theorem hasAll_iff : s.hasAll other = true ↔ s.putAll other = s := by
  rw [hasAll_eq_true]
  constructor
  · intro hall
    apply ext_has
    intro t
    rw [has_putAll, Bool.eq_iff_iff, Bool.or_eq_true, or_iff_left_of_imp (hall t)]
  · intro hsame t ht
    rw [← hsame, has_putAll, ht, Bool.or_true]

/-! ### All sets -/

/-- Every set that can be built lists the types that went into it, each once, in the order of their
declaration. So sets into which the same types went are equal, and so are their lists, their debug
texts and their JSON texts, whatever the order in which they were built. An array of texts of types
is read as the set of these types, and the text of a set as the set. Putting in all types of a set
one by one is commutative, associative and idempotent, and changes nothing exactly if all of them
are held. -/
theorem sets_are_canonical :
    (∀ l s, Built l s →
      (s.toList.Pairwise fun t u => t.ctorIdx < u.ctorIdx) ∧ ∀ t, t ∈ s.toList ↔ t ∈ l) ∧
    (∀ l s m other, Built l s → Built m other → (∀ t, t ∈ l ↔ t ∈ m) →
      s = other ∧ s.toList = other.toList ∧ Debug.debug s = Debug.debug other ∧
        encode s = encode other) ∧
    (∀ l texts text, List.Forall₂ DataType.Spelled l texts → SpellsArray texts text →
      ∃ s, decode text = .ok s ∧ Built l s) ∧
    (∀ s : DataTypeSet, decode (encode s) = .ok s) ∧
    (∀ s other third : DataTypeSet, s.putAll other = other.toList.foldl put s ∧
      s.putAll other = other.putAll s ∧
      (s.putAll other).putAll third = s.putAll (other.putAll third) ∧ s.putAll s = s) ∧
    ∀ s other : DataTypeSet, s.hasAll other = true ↔ s.putAll other = s := by
  refine ⟨?_, ?_, ?_, ?_, ?_, ?_⟩
  · intro l s hbuilt
    exact ⟨s.pairwise_toList, fun t => mem_toList.trans (hbuilt.has_iff t)⟩
  · intro l s m other hbuilt hbuilt' hsame
    obtain rfl := hbuilt.eq_of_same_members hbuilt' hsame
    exact ⟨rfl, rfl, rfl, rfl⟩
  · intro l texts text hspelled harray
    have hdecode := decode_of_spelled harray hspelled
    exact ⟨ofList l, hdecode, .decoded hspelled harray hdecode⟩
  · exact fun s => (restores_dataTypeSet s).decode_encode (by decide)
  · exact fun s other third => ⟨putAll_eq_foldl_put s other, putAll_comm s other,
      putAll_assoc s other third, putAll_self s⟩
  · exact fun s other => hasAll_iff

/-- Both forms of a name, a name with an escape and a name that is repeated are read, and one more
type is put in. The same types come together in another way. -/
theorem types_are_listed_in_order :
    let texts := [Bytes.ofString "\x7b\"nigori\" :null\x7d", Bytes.ofString "\"apps\"",
      Bytes.ofString "\"auto\\u0066ill\" ", Bytes.ofString "\"apps\""]
    let text := Bytes.ofString
      "[ \x7b\"nigori\" :null\x7d,\"apps\",\"auto\\u0066ill\" ,\"apps\"]"
    let other := (ofList [.autofill, .bookmarks]).putAll (ofList [.nigori, .apps])
    List.Forall₂ DataType.Spelled [.nigori, .apps, .autofill, .apps] texts ∧
      SpellsArray texts text ∧
      ∃ s : DataTypeSet, decode text = .ok s ∧
        Built [.nigori, .apps, .autofill, .apps, .bookmarks] (s.put .bookmarks) ∧
        Built [.autofill, .bookmarks, .nigori, .apps] other ∧
        s.put .bookmarks = other ∧ encode (s.put .bookmarks) = encode other ∧
        (s.put .bookmarks).toList = [.bookmarks, .autofill, .apps, .nigori] := by
  intro texts text other
  have hnone : Blank [] := List.forall_mem_nil _
  have hone : Blank [0x20] := List.forall_mem_singleton.2 rfl
  have happs : DataType.apps.Spelled (Bytes.ofString "\"apps\"") :=
    @DataType.Spelled.string .apps [] (Bytes.ofString "apps") [] hnone rfl hnone
  have hautofill : DataType.autofill.Spelled (Bytes.ofString "\"auto\\u0066ill\" ") :=
    @DataType.Spelled.string .autofill [] (Bytes.ofString "auto\\u0066ill") [0x20] hnone rfl hone
  have hnigori : DataType.nigori.Spelled (Bytes.ofString "\x7b\"nigori\" :null\x7d") := by
    have hkey : Text.Spells (Bytes.ofString "nigori") "nigori" := rfl
    exact .object ⟨[], _, [], hnone,
      .member ⟨[], [], hnone, hnone, rfl⟩ hkey hone hnone (.close hnone), hnone, rfl⟩
  have hspelled : List.Forall₂ DataType.Spelled [.nigori, .apps, .autofill, .apps] texts :=
    .cons hnigori <| .cons happs <| .cons hautofill <| .cons happs .nil
  have hitems : SpelledItems true texts (text.drop 1) :=
    .item ⟨[0x20], [], hone, hnone, rfl⟩ <| .item ⟨[], [], hnone, hnone, rfl⟩ <|
      .item ⟨[], [], hnone, hnone, rfl⟩ <| .item ⟨[], [], hnone, hnone, rfl⟩ <| .close hnone
  have harray : SpellsArray texts text := ⟨[], text.drop 1, [], hnone, hitems, hnone, rfl⟩
  obtain ⟨-, hsame, hread, -, -, -⟩ := sets_are_canonical
  obtain ⟨s, hdecode, hbuilt⟩ := hread _ _ _ hspelled harray
  have hother : Built [.autofill, .bookmarks, .nigori, .apps] other :=
    .putAll (.collected [.autofill, .bookmarks]) (.collected [.nigori, .apps])
  have hmembers : ∀ t, t ∈ [.nigori, .apps, .autofill, .apps] ++ [.bookmarks] ↔
      t ∈ [.autofill, .bookmarks, .nigori, DataType.apps] := by
    intro t
    cases t <;> decide
  obtain ⟨heq, -, -, htext⟩ := hsame _ _ _ _ (hbuilt.put .bookmarks) hother hmembers
  refine ⟨hspelled, harray, s, hdecode, hbuilt.put .bookmarks, hother, heq, htext, ?_⟩
  rw [heq]
  decide

end DataTypeSet

end KeyVault
