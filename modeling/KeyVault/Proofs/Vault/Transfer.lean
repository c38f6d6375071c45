import KeyVault.Proofs.Records
import KeyVault.Proofs.Vault.References

/-!
# Handing keys to another vault

A vault that holds the sender's default key opens the bag that the sender exports. It gets exactly
the keys that it lacks, each with all its components, and keeps everything else.

## Main definitions

- `Key.Alike` — keys that encrypt in the same way

## Main statements

- `Vault.find?_bag` — an exported bag offers what the vault holds
- `Vault.exported_keys_are_installed` — what the receiver gets
-/

namespace KeyVault

/-- Two keys encrypt alike: at most their user keys differ. -/
def Key.Alike (k held : Key) : Prop := held.encryption = k.encryption ∧ held.mac = k.mac

theorem Key.Alike.decrypt {k held : Key} (h : k.Alike held) (blob : Bytes) :
    held.decrypt blob = k.decrypt blob := by
  obtain ⟨hencryption, hmac⟩ := h
  rw [Key.decrypt, Key.decrypt, hencryption, hmac]

namespace Vault

/-! ### Exported bags -/

theorem offers?_components (name other : String) (k : Key) :
    KeyEntry.offers? name ⟨other, k.components⟩ = if other = name then some k else none := by
  rw [KeyEntry.offers?, KeyEntry.key?, Key.ofComponents_components]
  rfl

theorem findSome?_offers? (entries : List (String × Key)) (name : String) :
    (entries.map fun (other, k) => (⟨other, k.components⟩ : KeyEntry)).findSome?
      (KeyEntry.offers? name) = Members.find? name entries := by
  induction entries with
  | nil => rfl
  | cons x entries ih =>
    obtain ⟨other, k⟩ := x
    rw [List.map_cons, List.findSome?_cons, offers?_components, ih, Members.find?]
    by_cases hname : other = name
    · rw [if_pos hname, if_pos hname.symm]
    · rw [if_neg hname, if_neg (Ne.symm hname)]

/-- An exported bag offers exactly what the vault holds. -/
theorem find?_bag (v : Vault) (name : String) : v.bag.find? name = v.find? name :=
  findSome?_offers? v.keys.entries name

theorem names_bag (v : Vault) : v.bag.keys.map KeyEntry.name = v.keys.names := by
  rw [bag, List.map_map]
  rfl

theorem pairwise_bag (v : Vault) : v.bag.keys.Pairwise fun a b => a.name ≠ b.name := by
  have hsorted : v.keys.entries.Pairwise fun a b => a.1 ≠ b.1 := by
    apply v.keys.sorted.imp
    intro a b h
    exact h.ne
  exact List.pairwise_map.2 hsorted

theorem ofComponents_bag {v : Vault} {e : KeyEntry} (h : e ∈ v.bag.keys) :
    ∃ k, Key.ofComponents e.material = .ok k := by
  obtain ⟨⟨name, k⟩, -, rfl⟩ := List.mem_map.1 h
  exact ⟨k, Key.ofComponents_components k⟩

/-- A merge of an exported bag adds the names that are new. -/
theorem result_merge_bag (s r : Vault) :
    (r.merge s.bag).result = .ok (s.keys.names.countP fun name => !r.hasKey name) := by
  have hinstalled := Merge.installed_foldl_add (m := ⟨r.keys, 0, []⟩) (pairwise_bag s)
    fun e he => ofComponents_bag he
  rw [merge, hinstalled, Nat.zero_add, ← names_bag s, List.countP_map]
  rfl

/-! ### Opening a bag -/

theorem exists_getKeys {v : Vault} {name : String} {k : Key} (h : v.defaultKey? = some (name, k))
    (entropy : Entropy) :
    ∃ e, (v.getKeys entropy).result = .ok e ∧ e.keyName = name ∧
      k.decrypt e.blob = .ok (Json.encode v.bag) :=
  exists_encrypt h v.bag none entropy

theorem decode_bag (b : KeyBag) :
    (Json.decode (Json.encode b) : Except Json.Failure KeyBag) = .ok b :=
  (restores_keyBag b).decode_encode (by decide)

/-- A bag that has been sealed with a held key opens. -/
theorem opens_encrypt {v : Vault} {name : String} {k : Key} (hfind : v.find? name = some k)
    (nonce : Octets 12) (b : KeyBag) : v.Opens ⟨name, k.encrypt nonce (Json.encode b)⟩ b :=
  ⟨k, hfind, _, k.decrypt_encrypt _ _, decode_bag b⟩

/-- Pending data that have been sealed with the key of some credentials open with these. -/
theorem opensPending_encrypt {v : Vault} {c : Credentials} {name : String} {k : Key}
    {nonce : Octets 12} {b : KeyBag}
    (hpending : v.pending = some ⟨name, k.encrypt nonce (Json.encode b)⟩)
    (hderive : v.derive c = .ok k) :
    v.OpensPending c ⟨name, k.encrypt nonce (Json.encode b)⟩ b :=
  ⟨hpending, k, hderive, _, k.decrypt_encrypt _ _, decode_bag b⟩

/-- A bag that opens under a held key is merged. -/
theorem installKeys_of_find? {v : Vault} {e : Envelope} {k : Key} {b : KeyBag}
    (hfind : v.find? e.keyName = some k) (hopen : k.decrypt e.blob = .ok (Json.encode b)) :
    v.installKeys e = v.merge b :=
  installKeys_of_opens ⟨k, hfind, _, hopen, decode_bag b⟩

/-- A receiver that holds the sender's default key gets exactly the keys that it lacks, whole and
under their names, and learns how many they are. All else stays as it was. -/
theorem exported_keys_are_installed {s r : Vault} {name : String} {held : Key}
    (hsender : s.Reachable) (hdefault : s.defaultName = some name)
    (hheld : r.find? name = some held) (halike : ∀ k, s.find? name = some k → k.Alike held)
    (entropy : Entropy) :
    ∃ e keys, (s.getKeys entropy).result = .ok e ∧
      (r.installKeys e).result = .ok (s.keys.names.countP fun n => !r.hasKey n) ∧
      (r.installKeys e).state = { r with keys := keys } ∧
      ∀ n, keys.find? n = (r.find? n).or (s.find? n) := by
  obtain ⟨k, hkey⟩ := hsender.referencesHeld.exists_default hdefault
  obtain ⟨e, hok, rfl, hopen⟩ := exists_getKeys hkey entropy
  have hreceived : held.decrypt e.blob = .ok (Json.encode s.bag) := by
    rw [(halike k (defaultKey?_eq_some.1 hkey).2).decrypt, hopen]
  have hmerge : r.installKeys e = r.merge s.bag := installKeys_of_find? hheld hreceived
  refine ⟨e, (r.merge s.bag).state.keys, hok, ?_, ?_, ?_⟩
  · rw [hmerge, result_merge_bag]
  · rw [hmerge]
    rfl
  · intro n
    exact (find?_merge r s.bag n).trans (by rw [find?_bag])

/-- A vault changed its password; a vault that knows the new one only learns the old key. -/
theorem old_key_is_installed :
    let s := (signedIn ⟨"example.org", "user", "old"⟩).run
      [(.addKey ⟨"example.org", "user", "new"⟩, ⟨fun _ => 0, 0⟩)]
    let r := signedIn ⟨"example.org", "user", "new"⟩
    ∃ name held, s.Reachable ∧ s.defaultName = some name ∧ r.find? name = some held ∧
      (∀ k, s.find? name = some k → k.Alike held) ∧
      ∃ e, (s.getKeys ⟨fun _ => 0, 0⟩).result = .ok e ∧
        (r.installKeys e).result = .ok (s.keys.names.countP fun n => !r.hasKey n) := by
  intro s r
  obtain ⟨held, hderived, hreceiver⟩ :=
    exists_defaultKey?_signedIn (c := ⟨"example.org", "user", "new"⟩) (by decide)
  have hsettings := settings_signedIn ⟨"example.org", "user", "old"⟩
  have hderive : (signedIn ⟨"example.org", "user", "old"⟩).derive ⟨"example.org", "user", "new"⟩
      = .ok held := by
    rw [derive, hsettings]
    exact hderived
  have hreachable : s.Reachable := (reachable_signedIn _).run _
  have hsender : s.defaultKey? = some (held.name .password "nigori-key", held) := by
    have hkey := defaultKey?_addKey hderive
    rw [nameOf, hsettings] at hkey
    exact hkey
  obtain ⟨hdefault, hfind⟩ := defaultKey?_eq_some.1 hsender
  have hheld := (defaultKey?_eq_some.1 hreceiver).2
  have halike : ∀ k, s.find? (held.name .password "nigori-key") = some k → k.Alike held := by
    intro k hk
    rw [hfind] at hk
    obtain rfl := Option.some.inj hk
    exact ⟨rfl, rfl⟩
  obtain ⟨e, keys, hok, hcount, -⟩ :=
    exported_keys_are_installed hreachable hdefault hheld halike ⟨fun _ => 0, 0⟩
  exact ⟨_, held, hreachable, hdefault, hheld, halike, e, hok, hcount⟩

end Vault

end KeyVault
