import KeyVault.Proofs.Vault.ManyBags

/-!
# What becomes of the entries of a bag

Of the entries that a bag has under a name, the first one that is well-formed counts, whatever
stands before it. It becomes a key unless the name is held; nothing else comes in.

## Main statements

- `Vault.installKeys_installKeys` — a bag that is installed once more adds nothing
- `Vault.entries_become_keys` — what a bag adds, and what it leaves alone
-/

namespace KeyVault

namespace Vault

variable {v : Vault} {e : Envelope} {bag : KeyBag}

/-- A merge leaves the key that opens the bag. -/
theorem Opens.installKeys (h : v.Opens e bag) : (v.installKeys e).state.Opens e bag := by
  obtain ⟨k, hfind, hopens⟩ := id h
  rw [installKeys_of_opens h]
  exact ⟨k, find?_merge_of_find? hfind bag, hopens⟩

/-- A bag that is installed once more adds nothing. -/
theorem installKeys_installKeys (h : v.Opens e bag) :
    ((v.installKeys e).state.installKeys e).result = .ok 0 ∧
      ((v.installKeys e).state.installKeys e).state = (v.installKeys e).state := by
  rw [installKeys_of_opens h.installKeys, installKeys_of_opens h]
  have hstate := state_merge_merge v bag
  obtain ⟨n, hresult, hcount⟩ := (v.merge bag).state.exists_result_merge bag
  rw [hstate] at hcount
  obtain rfl : n = 0 := by omega
  exact ⟨hresult, hstate⟩

/-- A bag that opens adds to a vault, under each name that is new, the first well-formed entry that
it has of this name, and no other name. Keys that are held stay, and so does everything that is no
key. The count that is given back is the number of names by which the vault has grown, and the same
bag adds nothing when it is installed once more. -/
theorem entries_become_keys (h : v.Opens e bag) :
    let next := (v.installKeys e).state
    (∀ name k, v.find? name = some k → next.find? name = some k) ∧
    (∀ entry, bag.First entry → v.hasKey entry.name = false →
      ∃ k, next.find? entry.name = some k ∧ k.components = entry.material) ∧
    (∀ name, next.hasKey name = true ↔ v.hasKey name = true ∨
      ∃ entry ∈ bag.keys, entry.name = name ∧ entry.material.Whole) ∧
    next = { v with keys := next.keys } ∧
    (∃ n, (v.installKeys e).result = .ok n ∧ next.keyCount = v.keyCount + n) ∧
    (next.installKeys e).result = .ok 0 ∧ (next.installKeys e).state = next := by
  intro next
  have hmerge : v.installKeys e = v.merge bag := installKeys_of_opens h
  have hnext : next = (v.merge bag).state := congrArg Outcome.state hmerge
  refine ⟨fun name k hfind => ?_, fun entry hfirst hnew => ?_, fun name => ?_, ?_, ?_, ?_⟩
  · rw [hnext]
    exact find?_merge_of_find? hfind bag
  · obtain ⟨k, hk⟩ := KeyMaterial.whole_iff.1 hfirst.1
    have hmaterial := Key.ofComponents_eq_ok_iff.1 hk
    have hoffers : bag.find? entry.name = some k :=
      KeyBag.find?_eq_some_iff.2 ⟨entry, hfirst, rfl, hmaterial⟩
    have hlacks : v.find? entry.name = none := NameMap.contains_eq_false.1 hnew
    refine ⟨k, ?_, hmaterial.symm⟩
    rw [hnext, find?_merge, hlacks, hoffers, Option.none_or]
  · rw [hnext]
    exact hasKey_merge_iff
  · rw [hnext]
    rfl
  · rw [hnext, hmerge]
    exact v.exists_result_merge bag
  · exact installKeys_installKeys h

/-- A malformed entry stands before two well-formed ones of its name. -/
theorem malformed_entry_blocks_nothing :
    let v := signedIn ⟨"example.org", "user", "password"⟩
    ∃ name k, v.find? name = some k ∧
      let other : Key := { k with user := .zero 32 }
      let bag : KeyBag := ⟨[⟨"", ⟨[], [], []⟩⟩, ⟨"", other.components⟩, ⟨"", k.components⟩]⟩
      let e : Envelope := ⟨name, k.encrypt (.zero 12) (Json.encode bag)⟩
      v.Opens e bag ∧ bag.First ⟨"", other.components⟩ ∧ v.hasKey "" = false ∧
        (∃ held, (v.installKeys e).state.find? "" = some held ∧
          held.components = other.components) ∧
        ((v.installKeys e).state.installKeys e).result = .ok 0 := by
  intro v
  obtain ⟨k, hderive, hkey⟩ :=
    exists_defaultKey?_signedIn (c := ⟨"example.org", "user", "password"⟩) (by decide)
  have hfind := (defaultKey?_eq_some.1 hkey).2
  refine ⟨_, k, hfind, ?_⟩
  intro other bag e
  have hopens : v.Opens e bag := opens_encrypt hfind _ bag
  have hwhole : other.components.Whole :=
    KeyMaterial.whole_iff.2 ⟨other, Key.ofComponents_components other⟩
  have hfirst : bag.First ⟨"", other.components⟩ := by
    refine ⟨hwhole, [⟨"", ⟨[], [], []⟩⟩], [⟨"", k.components⟩], rfl, fun earlier hmem _ => ?_⟩
    obtain rfl := List.mem_singleton.1 hmem
    exact fun hempty => absurd hempty.1 (by decide)
  have hnew : v.hasKey "" = false := hasKey_signedIn_empty hderive
  obtain ⟨-, hentries, -, -, -, hagain, -⟩ := entries_become_keys hopens
  obtain ⟨held, hheld, hsame⟩ := hentries ⟨"", other.components⟩ hfirst hnew
  exact ⟨hopens, hfirst, hnew, ⟨held, hheld, hsame⟩, hagain⟩

end Vault

end KeyVault
