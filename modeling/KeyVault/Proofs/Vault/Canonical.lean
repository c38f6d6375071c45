import KeyVault.Proofs.Vault.Reencryption

/-!
# Exported bags are canonical

A vault exports its keys in the order of their names, each once. What it has been through leaves no
trace: vaults that hold the same components under the same names export the same bytes.

## Main definitions

- `Vault.SameKeys` — the same components under the same names

## Main statements

- `Vault.mem_bag_iff`, `Vault.pairwise_before_bag` — the entries of an exported bag and their order
- `Vault.SameKeys.bag_eq` — the bag does not depend on how its keys came in
- `Vault.exported_bags_are_canonical` — what is sealed
-/

namespace KeyVault

namespace Vault

variable {v w : Vault} {name : String} {k : Key}

/-- Both vaults hold the same components under the same names. -/
def SameKeys (v w : Vault) : Prop :=
  ∀ name, (v.find? name).map Key.components = (w.find? name).map Key.components

/-- The entries of an exported bag are the keys of the vault. -/
theorem mem_bag_iff {entry : KeyEntry} :
    entry ∈ v.bag.keys ↔ ∃ k, v.find? entry.name = some k ∧ entry.material = k.components := by
  constructor
  · intro h
    obtain ⟨⟨name, k⟩, hmem, rfl⟩ := List.mem_map.1 h
    exact ⟨k, Members.find?_of_mem v.keys.sorted hmem, rfl⟩
  · rintro ⟨k, hfind, hmaterial⟩
    refine List.mem_map.2 ⟨(entry.name, k), Members.mem_of_find? hfind, ?_⟩
    exact congrArg (KeyEntry.mk entry.name) hmaterial.symm

/-- The names of an exported bag stand in the order of their bytes, each once. -/
theorem pairwise_before_bag (v : Vault) : v.bag.keys.Pairwise fun a b => Before a.name b.name :=
  List.pairwise_map.2 v.keys.sorted

theorem length_bag (v : Vault) : v.bag.keys.length = v.keyCount := List.length_map _

/-- The bag does not depend on how its keys came in. -/
theorem SameKeys.bag_eq (h : v.SameKeys w) : v.bag = w.bag := by
  have hkeys : v.keys = w.keys :=
    NameMap.ext_find? fun name =>
      Option.map_injective (fun _ _ => Key.components_injective) (h name)
  rw [bag, bag, hkeys]

/-- What is exported is the text of the bag, sealed with the default key and the next nonce. -/
theorem getKeys_of_defaultKey? (hkey : v.defaultKey? = some (name, k)) (entropy : Entropy) :
    (v.getKeys entropy).result
      = .ok ⟨name, k.encrypt (entropy.draw 12).1 (Json.encode v.bag)⟩ := by
  have hnone (e : Envelope) (h : none = some e) (_ : e.keyName = name) :
      k.decrypt e.blob ≠ .ok (Json.encode v.bag) := nomatch h
  rw [getKeys, encrypt_eq_encryptBytes hkey]
  exact (encryptBytes_of_not_held hkey hnone entropy).1

/-- What a vault exports is a bag with one entry for each of its keys, in the order of the names'
bytes. Whatever led to a state, the bytes that it seals depend on the names and the components that
it holds; with the same default name and the same nonce the envelopes are the same. -/
theorem exported_bags_are_canonical (hreachable : v.Reachable)
    (hdefault : v.defaultName = some name) :
    ∃ k plain bag, v.find? name = some k ∧
      (∀ entropy,
        (v.getKeys entropy).result = .ok ⟨name, k.encrypt (entropy.draw 12).1 plain⟩) ∧
      Json.decode plain = .ok (bag : KeyBag) ∧
      (bag.keys.Pairwise fun a b => Before a.name b.name) ∧ bag.keys.length = v.keyCount ∧
      (∀ entry, entry ∈ bag.keys ↔
        ∃ held, v.find? entry.name = some held ∧ entry.material = held.components) ∧
      ∀ (w : Vault) other, w.Reachable → w.defaultName = some other → v.SameKeys w →
        ∃ k', w.find? other = some k' ∧
          (∀ entropy,
            (w.getKeys entropy).result = .ok ⟨other, k'.encrypt (entropy.draw 12).1 plain⟩) ∧
          ∀ entropy entropy', other = name → (entropy.draw 12).1 = (entropy'.draw 12).1 →
            (w.getKeys entropy').result = (v.getKeys entropy).result := by
  obtain ⟨k, hkey⟩ := hreachable.referencesHeld.exists_default hdefault
  have hfind := (defaultKey?_eq_some.1 hkey).2
  have hexport (entropy : Entropy) := getKeys_of_defaultKey? hkey entropy
  refine ⟨k, _, v.bag, hfind, hexport, decode_bag v.bag, v.pairwise_before_bag, v.length_bag,
    fun entry => mem_bag_iff, fun w other hreachable' hdefault' hsame => ?_⟩
  obtain ⟨k', hkey'⟩ := hreachable'.referencesHeld.exists_default hdefault'
  have hfind' := (defaultKey?_eq_some.1 hkey').2
  have hexport' (entropy : Entropy) := getKeys_of_defaultKey? hkey' entropy
  rw [← hsame.bag_eq] at hexport'
  refine ⟨k', hfind', hexport', ?_⟩
  rintro entropy entropy' rfl hnonce
  obtain rfl : k = k' := Key.components_injective <| by simpa [hfind, hfind'] using hsame other
  rw [hexport, hexport', hnonce]

theorem run_installKeys (v : Vault) (e : Envelope) (entropy : Entropy) :
    v.run [(.installKeys e, entropy)] = (v.installKeys e).state := rfl

/-- Two keys come in from one bag, and from a bag in which they stand the other way round. -/
theorem order_of_arrival_is_not_exported :
    let v := signedIn ⟨"example.org", "user", "password"⟩
    let entropy : Entropy := ⟨fun _ => 0, 0⟩
    ∃ name k, v.find? name = some k ∧
      let bag (names : List String) : KeyBag := ⟨names.map fun n => ⟨n, k.components⟩⟩
      let after (names : List String) : Vault :=
        v.run [(.installKeys ⟨name, k.encrypt (.zero 12) (Json.encode (bag names))⟩, entropy)]
      let first := after ["b", "a"]
      let second := after ["a", "b"]
      first.Reachable ∧ first.defaultName = some name ∧ first.hasKey "a" = true ∧
        first.hasKey "b" = true ∧ second.Reachable ∧ second.defaultName = some name ∧
        first.SameKeys second ∧
        (first.getKeys entropy).result = (second.getKeys entropy).result := by
  intro v entropy
  have hstart : v.Reachable := reachable_signedIn _
  obtain ⟨name, k, hkey⟩ : ∃ name k, v.defaultKey? = some (name, k) := by
    obtain ⟨k, -, hkey⟩ :=
      exists_defaultKey?_signedIn (c := ⟨"example.org", "user", "password"⟩) (by decide)
    exact ⟨_, k, hkey⟩
  clear_value v
  obtain ⟨hname, hfind⟩ := defaultKey?_eq_some.1 hkey
  refine ⟨name, k, hfind, ?_⟩
  intro bag after first second
  have hafter (names : List String) : after names = (v.merge (bag names)).state := by
    have hmerge := installKeys_of_opens (opens_encrypt hfind (.zero 12) (bag names))
    exact (run_installKeys v _ entropy).trans (congrArg Outcome.state hmerge)
  have hreachable (names : List String) : (after names).Reachable := hstart.run _
  have hdefault (names : List String) : (after names).defaultName = some name := by
    rw [hafter]
    exact hname
  have hheld (names : List String) {name : String} (hmem : name ∈ names) :
      (after names).hasKey name = true := by
    rw [hafter, hasKey_merge_iff]
    refine .inr ⟨_, List.mem_map_of_mem hmem, rfl, ?_⟩
    exact KeyMaterial.whole_iff.2 ⟨k, Key.ofComponents_components k⟩
  have hsame : first.SameKeys second := by
    intro n
    have hoffer : (bag ["b", "a"]).find? n = (bag ["a", "b"]).find? n := by
      simp only [bag, KeyBag.find?, List.map_cons, List.map_nil, List.findSome?_cons,
        offers?_components]
      by_cases ha : "a" = n <;> by_cases hb : "b" = n <;> simp [ha, hb]
    rw [show first = _ from hafter _, show second = _ from hafter _, find?_merge, find?_merge,
      hoffer]
  obtain ⟨_, _, _, _, _, _, _, _, _, hothers⟩ :=
    exported_bags_are_canonical (hreachable ["b", "a"]) (hdefault _)
  obtain ⟨_, _, _, hresult⟩ := hothers second _ (hreachable _) (hdefault _) hsame
  exact ⟨hreachable _, hdefault _, hheld _ (by simp), hheld _ (by simp), hreachable _,
    hdefault _, hsame, (hresult entropy entropy rfl rfl).symm⟩

end Vault

end KeyVault
