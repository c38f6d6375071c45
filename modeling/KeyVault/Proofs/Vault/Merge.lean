import KeyVault.Vault.Merge

/-!
# What a merge leaves in a vault

A merge never replaces a key that is held. A name that is new gets the first well-formed entry that
the bag has under it, and no other name is added.

## Main definitions

- `KeyEntry.key?` — the key of an entry, if it is one
- `KeyMaterial.Whole` — components of the right lengths
- `KeyBag.find?` — the key that a bag offers under a name
- `KeyBag.First` — the entry that counts under its name

## Main statements

- `KeyBag.find?_eq_some_iff` — a bag offers under a name the components of the entry that counts
- `Vault.find?_merge` — what is held under each name after a merge
- `Vault.hasKey_merge_iff` — which names are held after a merge
- `Vault.state_merge_merge` — a bag that is merged once more changes nothing
- `Vault.exists_result_merge` — a merge gives the number of new keys
- `Merge.installed_foldl_add` — how many keys are new, if no name occurs twice
-/

namespace KeyVault

/-- The key of an entry, if its components are those of a key. -/
def KeyEntry.key? (e : KeyEntry) : Option Key := (Key.ofComponents e.material).toOption

/-- The key that an entry offers under a name. -/
def KeyEntry.offers? (name : String) (e : KeyEntry) : Option Key :=
  if e.name = name then e.key? else none

/-- The key that a bag offers under a name: that of the first well-formed entry of this name. -/
def KeyBag.find? (bag : KeyBag) (name : String) : Option Key :=
  bag.keys.findSome? (KeyEntry.offers? name)

theorem KeyEntry.offers?_eq_some {e : KeyEntry} {name : String} {k : Key} :
    e.offers? name = some k ↔ e.name = name ∧ Key.ofComponents e.material = .ok k := by
  rw [offers?, key?]
  by_cases hname : e.name = name
  · rw [if_pos hname]
    cases Key.ofComponents e.material <;> simp [Except.toOption, hname]
  · rw [if_neg hname]
    simp [hname]

/-- All components have the length of those of a key. -/
def KeyMaterial.Whole (m : KeyMaterial) : Prop :=
  m.userKey.length = 32 ∧ m.encryptionKey.length = 32 ∧ m.macKey.length = 32

/-- Whole components are those of a key. -/
theorem KeyMaterial.whole_iff {m : KeyMaterial} :
    m.Whole ↔ ∃ k, Key.ofComponents m = .ok k := by
  simp only [Key.ofComponents_eq_ok_iff]
  constructor
  · rintro ⟨huser, hencryption, hmac⟩
    exact ⟨⟨⟨_, huser⟩, ⟨_, hencryption⟩, ⟨_, hmac⟩⟩, rfl⟩
  · rintro ⟨k, rfl⟩
    exact ⟨k.user.length_bytes, k.encryption.length_bytes, k.mac.length_bytes⟩

theorem KeyEntry.offers?_eq_none_iff {e : KeyEntry} {name : String} :
    e.offers? name = none ↔ (e.name = name → ¬ e.material.Whole) := by
  rw [KeyMaterial.whole_iff, Option.eq_none_iff_forall_ne_some]
  constructor
  · rintro hnone hname ⟨k, hk⟩
    exact hnone k (KeyEntry.offers?_eq_some.2 ⟨hname, hk⟩)
  · intro hnone k hoffers
    obtain ⟨hname, hk⟩ := KeyEntry.offers?_eq_some.1 hoffers
    exact hnone hname ⟨k, hk⟩

/-- A bag offers nothing under a name exactly if it has no well-formed entry of this name. -/
theorem KeyBag.find?_eq_none_iff {bag : KeyBag} {name : String} :
    bag.find? name = none ↔ ∀ e ∈ bag.keys, e.name = name → ¬ e.material.Whole := by
  rw [KeyBag.find?, List.findSome?_eq_none_iff]
  exact forall₂_congr fun e _ => KeyEntry.offers?_eq_none_iff

/-- What a bag offers under a name is one of its keys of this name. -/
theorem KeyBag.exists_mem_of_find? {bag : KeyBag} {name : String} {k : Key}
    (h : bag.find? name = some k) :
    ∃ e ∈ bag.keys, e.name = name ∧ Key.ofComponents e.material = .ok k := by
  obtain ⟨e, he, hoffers⟩ := List.exists_of_findSome?_eq_some h
  exact ⟨e, he, KeyEntry.offers?_eq_some.1 hoffers⟩

/-- A well-formed entry with none of its name before it in the bag. -/
def KeyBag.First (bag : KeyBag) (entry : KeyEntry) : Prop :=
  entry.material.Whole ∧ ∃ past later, bag.keys = past ++ entry :: later ∧
    ∀ earlier ∈ past, earlier.name = entry.name → ¬ earlier.material.Whole

/-- A bag offers a key under a name exactly if the entry that counts there has its components. -/
theorem KeyBag.find?_eq_some_iff {bag : KeyBag} {name : String} {k : Key} :
    bag.find? name = some k ↔
      ∃ entry, bag.First entry ∧ entry.name = name ∧ entry.material = k.components := by
  rw [KeyBag.find?, List.findSome?_eq_some_iff]
  constructor
  · rintro ⟨past, entry, later, hkeys, hoffers, hearlier⟩
    obtain ⟨rfl, hk⟩ := KeyEntry.offers?_eq_some.1 hoffers
    have hnone := fun earlier hmem => KeyEntry.offers?_eq_none_iff.1 (hearlier earlier hmem)
    exact ⟨entry, ⟨KeyMaterial.whole_iff.2 ⟨k, hk⟩, past, later, hkeys, hnone⟩, rfl,
      Key.ofComponents_eq_ok_iff.1 hk⟩
  · rintro ⟨entry, ⟨-, past, later, hkeys, hearlier⟩, rfl, hmaterial⟩
    refine ⟨past, entry, later, hkeys, ?_, fun earlier hmem => ?_⟩
    · exact KeyEntry.offers?_eq_some.2 ⟨rfl, Key.ofComponents_eq_ok_iff.2 hmaterial⟩
    · exact KeyEntry.offers?_eq_none_iff.2 (hearlier earlier hmem)

/-- A bag offers something under a name exactly if it has a well-formed entry of this name. -/
theorem KeyBag.isSome_find?_iff {bag : KeyBag} {name : String} :
    (bag.find? name).isSome = true ↔ ∃ e ∈ bag.keys, e.name = name ∧ e.material.Whole := by
  rw [Option.isSome_iff_ne_none, ne_eq, KeyBag.find?_eq_none_iff]
  simp only [Classical.not_forall, Classical.not_not, exists_prop]

namespace Merge

/-! ### One entry -/

/-- An entry whose name is held changes nothing. -/
theorem add_of_contains {m : Merge} {e : KeyEntry} (h : m.keys.contains e.name = true) :
    m.add e = m :=
  if_pos h

/-- A well-formed entry of a new name is inserted and counted. -/
theorem add_of_key {m : Merge} {e : KeyEntry} {k : Key} (h : m.keys.contains e.name = false)
    (hk : Key.ofComponents e.material = .ok k) :
    m.add e = { m with keys := m.keys.insert e.name k, installed := m.installed + 1 } := by
  rw [add, h, hk]
  rfl

/-- A malformed entry of a new name is reported. -/
theorem add_of_error {m : Merge} {e : KeyEntry} {error : KeyError}
    (h : m.keys.contains e.name = false) (herror : Key.ofComponents e.material = .error error) :
    m.add e = { m with events := m.events ++ [.entryMalformed e.name error] } := by
  rw [add, h, herror]
  rfl

theorem find?_add (m : Merge) (e : KeyEntry) (name : String) :
    (m.add e).keys.find? name = (m.keys.find? name).or (e.offers? name) := by
  rw [KeyEntry.offers?]
  by_cases hheld : m.keys.contains e.name = true
  · rw [add_of_contains hheld]
    obtain ⟨held, hfind⟩ := NameMap.contains_iff.1 hheld
    by_cases hname : e.name = name
    · rw [← hname, hfind, Option.some_or]
    · rw [if_neg hname, Option.or_none]
  · rw [Bool.not_eq_true] at hheld
    cases hkey : Key.ofComponents e.material with
    | error error =>
      have hnone : e.key? = none := by rw [KeyEntry.key?, hkey]; rfl
      rw [add_of_error hheld hkey, hnone, ite_self, Option.or_none]
    | ok k =>
      have hsome : e.key? = some k := by rw [KeyEntry.key?, hkey]; rfl
      rw [add_of_key hheld hkey, hsome, NameMap.find?_insert]
      by_cases hname : e.name = name
      · rw [if_pos hname.symm, if_pos hname, ← hname, NameMap.contains_eq_false.1 hheld,
          Option.none_or]
      · rw [if_neg (Ne.symm hname), if_neg hname, Option.or_none]

/-- An entry is counted exactly if the map grows. -/
theorem installed_add (m : Merge) (e : KeyEntry) :
    (m.add e).installed + m.keys.size = m.installed + (m.add e).keys.size := by
  cases hheld : m.keys.contains e.name with
  | true => rw [add_of_contains hheld]
  | false =>
    cases hkey : Key.ofComponents e.material with
    | error error => rw [add_of_error hheld hkey]
    | ok k =>
      rw [add_of_key hheld hkey, NameMap.size_insert hheld]
      exact Nat.succ_add_eq_add_succ m.installed m.keys.size

/-! ### All entries -/

/-- The count is what the map grows by. -/
theorem installed_foldl (m : Merge) (entries : List KeyEntry) :
    (entries.foldl add m).installed + m.keys.size
      = m.installed + (entries.foldl add m).keys.size := by
  induction entries generalizing m with
  | nil => rfl
  | cons e entries ih =>
    have hfirst := installed_add m e
    have hothers := ih (m.add e)
    rw [List.foldl_cons]
    omega

theorem find?_foldl_add (m : Merge) (entries : List KeyEntry) (name : String) :
    (entries.foldl add m).keys.find? name
      = (m.keys.find? name).or (entries.findSome? (KeyEntry.offers? name)) := by
  induction entries generalizing m with
  | nil => rw [List.foldl_nil, List.findSome?_nil, Option.or_none]
  | cons e entries ih =>
    rw [List.foldl_cons, ih, find?_add, Option.or_assoc, List.findSome?_cons]
    cases e.offers? name <;> rfl

/-- Well-formed entries of different names are all inserted, but for those whose name is held. -/
theorem installed_foldl_add {m : Merge} {entries : List KeyEntry}
    (hnames : entries.Pairwise fun a b => a.name ≠ b.name)
    (hkeys : ∀ e ∈ entries, ∃ k, Key.ofComponents e.material = .ok k) :
    (entries.foldl add m).installed
      = m.installed + entries.countP fun e => !m.keys.contains e.name := by
  induction entries generalizing m with
  | nil => rfl
  | cons e entries ih =>
    obtain ⟨hdiffer, hnames⟩ := List.pairwise_cons.1 hnames
    obtain ⟨⟨k, hk⟩, hkeys⟩ := List.forall_mem_cons.1 hkeys
    rw [List.foldl_cons, ih hnames hkeys, List.countP_cons]
    cases hheld : m.keys.contains e.name with
    | true => rw [add_of_contains hheld]; rfl
    | false =>
      -- No later entry has the name that is inserted here.
      have hlater : entries.countP (fun x => !(m.add e).keys.contains x.name)
          = entries.countP fun x => !m.keys.contains x.name := by
        refine List.countP_congr fun x hx => ?_
        rw [add_of_key hheld hk, NameMap.contains, NameMap.contains,
          NameMap.find?_insert_of_ne _ _ (hdiffer x hx).symm]
      rw [hlater, add_of_key hheld hk]
      simp only [Bool.not_false, if_true]
      omega

end Merge

namespace Vault

theorem hasKey_eq_isSome (v : Vault) (name : String) : v.hasKey name = (v.find? name).isSome := rfl

/-- What is held under each name after a merge. -/
theorem find?_merge (v : Vault) (bag : KeyBag) (name : String) :
    (v.merge bag).state.find? name = (v.find? name).or (bag.find? name) :=
  Merge.find?_foldl_add ⟨v.keys, 0, []⟩ bag.keys name

/-- A merge gives the number of keys by which the vault grows. -/
theorem exists_result_merge (v : Vault) (bag : KeyBag) :
    ∃ n, (v.merge bag).result = .ok n ∧ (v.merge bag).state.keyCount = v.keyCount + n := by
  have hcount := Merge.installed_foldl ⟨v.keys, 0, []⟩ bag.keys
  rw [Nat.zero_add] at hcount
  exact ⟨_, rfl, hcount.symm.trans (Nat.add_comm _ _)⟩

/-- A name is held after a merge exactly if it was held before, or the bag has a well-formed entry
of this name. -/
theorem hasKey_merge_iff {v : Vault} {bag : KeyBag} {name : String} :
    (v.merge bag).state.hasKey name = true ↔
      v.hasKey name = true ∨ ∃ e ∈ bag.keys, e.name = name ∧ e.material.Whole := by
  rw [hasKey_eq_isSome, hasKey_eq_isSome, find?_merge, Option.isSome_or, Bool.or_eq_true,
    KeyBag.isSome_find?_iff]

theorem hasKey_merge_eq_false_iff {v : Vault} {bag : KeyBag} {name : String} :
    (v.merge bag).state.hasKey name = false ↔
      v.hasKey name = false ∧ ∀ e ∈ bag.keys, e.name = name → ¬ e.material.Whole := by
  simp [← Bool.not_eq_true, hasKey_merge_iff]

/-- A bag that is merged once more changes nothing. -/
theorem state_merge_merge (v : Vault) (bag : KeyBag) :
    ((v.merge bag).state.merge bag).state = (v.merge bag).state := by
  have hkeys : ((v.merge bag).state.merge bag).state.keys = (v.merge bag).state.keys := by
    refine NameMap.ext_find? fun name => ?_
    change ((v.merge bag).state.merge bag).state.find? name = (v.merge bag).state.find? name
    rw [find?_merge, find?_merge, Option.or_assoc, Option.or_self]
  change { (v.merge bag).state with keys := ((v.merge bag).state.merge bag).state.keys } = _
  rw [hkeys]

/-- A merge replaces no key. -/
theorem find?_merge_of_find? {v : Vault} {name : String} {k : Key} (h : v.find? name = some k)
    (bag : KeyBag) : (v.merge bag).state.find? name = some k := by
  rw [find?_merge, h, Option.some_or]

end Vault

end KeyVault
