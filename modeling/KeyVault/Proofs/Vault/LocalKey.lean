import KeyVault.Proofs.Vault.ManyBags
import KeyVault.Proofs.Vault.Readable

/-!
# A key of the user and a bag of a peer

A key that the user brings in replaces an earlier one of its name, and a key of a bag never does.
Yet it makes no difference which of the two comes first: under the name of the user's key it is this
key that counts, and under each other name the vault and the bag decide as they would alone.

## Main definitions

- `Operation.IsLocal` — the operations that bring in a key of the user, from a password or a token

## Main statements

- `Operation.IsLocal.result_withKeys` — what such an operation gives does not depend on the keys
- `Vault.offered?_perform` — what a bag offers, before and after an operation
- `Vault.local_key_commutes_with_bag` — both orders
-/

namespace KeyVault

namespace Operation

/-- The operations that bring in a key of the user. -/
inductive IsLocal : Operation → Prop
  | addKey (c : Credentials) : IsLocal (addKey c)
  | setKeystoreKey (secret : String) : IsLocal (setKeystoreKey secret)
  | bootstrap (token : String) : IsLocal (bootstrap token)
  | bootstrapKeystoreKey (token : String) : IsLocal (bootstrapKeystoreKey token)
  | addKeyFromToken (token : String) : IsLocal (addKeyFromToken token)

variable {v : Vault} {op : Operation}

theorem Effect.eq_of_isLocal {next : Vault} {result : Except VaultError Answer}
    (h : Effect v op result next) (hlocal : op.IsLocal)
    (hnone : ∀ slot k, ¬ op.Installs v slot k) : next = v := by
  cases h with
  | install hinstalls => exact absurd hinstalls (hnone _ _)
  | ignore | refuse | query => rfl
  | refer | merge | skip | hold | adopt | lack => cases hlocal
  | forward hkind => cases hlocal <;> cases hkind

theorem Installs.withKeys {slot : Slot} {k : Key} (h : op.Installs v slot k) (keys : NameMap Key) :
    op.Installs { v with keys := keys } slot k := by
  cases h with
  | addKey hderive => exact .addKey hderive
  | setKeystoreKey hsecret hderive => exact .setKeystoreKey hsecret hderive
  | bootstrap hfirst hread => exact .bootstrap hfirst hread
  | bootstrapKeystoreKey hfirst hread => exact .bootstrapKeystoreKey hfirst hread
  | addKeyFromToken hread => exact .addKeyFromToken hread

/-- Which key is installed does not depend on the keys that are held. -/
theorem installs_withKeys_iff {keys : NameMap Key} {slot : Slot} {k : Key} :
    op.Installs { v with keys := keys } slot k ↔ op.Installs v slot k :=
  ⟨fun h => h.withKeys v.keys, fun h => h.withKeys keys⟩

/-- What an operation with a key of the user gives does not depend on the keys that are held. -/
theorem IsLocal.result_withKeys (h : op.IsLocal) (v : Vault) (keys : NameMap Key)
    (entropy : Entropy) :
    (op.perform { v with keys := keys } entropy).result = (op.perform v entropy).result := by
  have hinstall (slot : Slot) (token : String) :
      (Vault.installFromToken { v with keys := keys } slot token).result
        = (v.installFromToken slot token).result := by
    rw [Vault.installFromToken, Vault.installFromToken]
    cases Token.read v.protector token <;> rfl
  have hset : Vault.isInitialized { v with keys := keys } = v.isInitialized := rfl
  have hset' : Vault.hasKeystoreKey { v with keys := keys } = v.hasKeystoreKey := rfl
  cases h with
  | addKey c =>
    simp only [perform, Outcome.embed, Vault.addKey, Vault.derive]
    cases Key.derive v.settings.cost c <;> rfl
  | setKeystoreKey secret =>
    simp only [perform, Outcome.embed, Vault.setKeystoreKey, Vault.derive]
    by_cases hsecret : secret = ""
    · rw [if_pos hsecret, if_pos hsecret]
    · rw [if_neg hsecret, if_neg hsecret]
      cases Key.derive v.settings.cost _ <;> rfl
  | bootstrap token =>
    simp only [perform, Outcome.embed, Vault.bootstrap, hset]
    by_cases hfirst : v.isInitialized = true
    · rw [if_pos hfirst, if_pos hfirst]
    · rw [if_neg hfirst, if_neg hfirst, hinstall]
  | bootstrapKeystoreKey token =>
    simp only [perform, Outcome.embed, Vault.bootstrapKeystoreKey, hset']
    by_cases hfirst : v.hasKeystoreKey = true
    · rw [if_pos hfirst, if_pos hfirst]
    · rw [if_neg hfirst, if_neg hfirst, hinstall]
  | addKeyFromToken token =>
    simp only [perform, Outcome.embed, Vault.addKeyFromToken]
    cases Token.read v.protector token <;> rfl

end Operation

namespace Vault

variable {v w : Vault} {op : Operation} {e : Envelope}

/-- Keys that encrypt alike open an envelope to the same bag. -/
theorem offered?_of_alike {k held : Key} (hfind : v.find? e.keyName = some k)
    (hfind' : w.find? e.keyName = some held) (halike : k.Alike held) (name : String) :
    w.offered? name e = v.offered? name e := by
  rw [offered?, offered?, opened?, opened?, decrypt, decrypt, decryptBytes, decryptBytes, hfind,
    hfind']
  simp only [halike.decrypt]

/-- What a bag offers is the same after an operation that replaces its key by none that encrypts
differently. -/
theorem offered?_perform (hheld : v.canDecrypt e = true) (hspares : op.Spares v e.keyName)
    (entropy : Entropy) (name : String) :
    (op.perform v entropy).state.1.offered? name e = v.offered? name e := by
  obtain ⟨k, hfind⟩ := hasKey_iff.1 hheld
  obtain ⟨held, hnext, halike⟩ :=
    (Operation.effect_perform v op entropy).exists_alike hspares hfind
  exact offered?_of_alike hfind hnext halike name

/-- A bag changes the keys and nothing else: it adds what it offers under new names. -/
theorem exists_keys_installKeys (v : Vault) (e : Envelope) :
    ∃ keys, (v.installKeys e).state = { v with keys := keys } ∧
      ∀ name, keys.find? name = (v.find? name).or (v.offered? name e) := by
  have hfind := v.find?_installKeys e
  obtain ⟨-, keys, -, hstate, -⟩ := v.exists_installKeys e
  rw [hstate] at hfind
  exact ⟨keys, hstate, hfind⟩

/-- Keys that are held under the name of a new key count for nothing. -/
theorem install_withKeys {keys keys' : NameMap Key} {slot : Slot} {k : Key}
    (h : ∀ name, keys'.find? name = if name = v.nameOf k then some k else keys.find? name) :
    (install { v with keys := keys } slot k).state
      = { (v.install slot k).state with keys := keys' } := by
  obtain rfl : keys.insert (v.nameOf k) k = keys' :=
    NameMap.ext_find? fun name => (NameMap.find?_insert keys _ name k).trans (h name).symm
  cases slot <;> rfl

/-- A key that is brought in before a bag is held under its name afterwards, whatever is in the
bag. -/
theorem find?_installKeys_perform {slot : Slot} {k : Key} (h : op.Installs v slot k)
    (e : Envelope) (entropy : Entropy) :
    ((op.perform v entropy).state.1.installKeys e).state.find? (v.nameOf k) = some k := by
  rw [find?_installKeys, h.state_perform, find?_install, if_pos rfl, Option.some_or]

/-- A new key before a bag, and after it. -/
theorem installKeys_perform_of_installs {slot : Slot} {k : Key} (h : op.Installs v slot k)
    (hheld : v.canDecrypt e = true) (hspares : op.Spares v e.keyName) (entropy : Entropy) :
    ((op.perform v entropy).state.1.installKeys e).state
      = (op.perform (v.installKeys e).state entropy).state.1 := by
  obtain ⟨keys', hkey, hkeyFirst⟩ := (op.perform v entropy).state.1.exists_keys_installKeys e
  obtain ⟨keys, hbag, hbagFirst⟩ := v.exists_keys_installKeys e
  rw [hkey, hbag, h.state_perform, (h.withKeys keys).state_perform]
  refine (install_withKeys fun name => ?_).symm
  rw [hkeyFirst, offered?_perform hheld hspares, h.state_perform, find?_install]
  by_cases hname : name = v.nameOf k
  · rw [if_pos hname, if_pos hname, Option.some_or]
  · rw [if_neg hname, if_neg hname, hbagFirst]

/-- An operation without a new key before a bag, and after it. -/
theorem installKeys_perform_of_not_installs (hlocal : op.IsLocal)
    (hnone : ∀ slot k, ¬ op.Installs v slot k) (e : Envelope) (entropy : Entropy) :
    ((op.perform v entropy).state.1.installKeys e).state
      = (op.perform (v.installKeys e).state entropy).state.1 := by
  obtain ⟨keys, hbag, -⟩ := v.exists_keys_installKeys e
  have hnone' : ∀ slot k, ¬ op.Installs { v with keys := keys } slot k :=
    fun slot k hinstalls => hnone slot k (Operation.installs_withKeys_iff.1 hinstalls)
  rw [(Operation.effect_perform v op entropy).eq_of_isLocal hlocal hnone, hbag,
    (Operation.effect_perform _ op entropy).eq_of_isLocal hlocal hnone']

/-- A key that the user brings in and a bag that a held key opens can come in any order: the vault
ends in the same state, and the user is told the same. The operation may replace the key of the bag
by one that encrypts alike, and by no other. The key that it brings in is held under its name at the
end, even if the bag has another key under this name. -/
theorem local_key_commutes_with_bag (hlocal : op.IsLocal) (hheld : v.canDecrypt e = true)
    (hspares : op.Spares v e.keyName) (entropy : Entropy) :
    let keyFirst := ((op.perform v entropy).state.1.installKeys e).state
    let bagFirst := (op.perform (v.installKeys e).state entropy).state.1
    keyFirst = bagFirst ∧
    (op.perform (v.installKeys e).state entropy).result = (op.perform v entropy).result ∧
    ∀ slot k, op.Installs v slot k → keyFirst.find? (v.nameOf k) = some k := by
  refine ⟨?_, ?_, fun slot k hinstalls => find?_installKeys_perform hinstalls e entropy⟩
  · by_cases hinstalls : ∃ slot k, op.Installs v slot k
    · obtain ⟨slot, k, hinstalls⟩ := hinstalls
      exact installKeys_perform_of_installs hinstalls hheld hspares entropy
    · have hnone : ∀ slot k, ¬ op.Installs v slot k := by simpa using hinstalls
      exact installKeys_perform_of_not_installs hlocal hnone e entropy
  · obtain ⟨keys, hbag, -⟩ := v.exists_keys_installKeys e
    rw [hbag]
    exact hlocal.result_withKeys v keys entropy

/-- The password is entered once more, and a bag has another key under the name of its key. -/
theorem forged_bag_makes_no_difference :
    let c : Credentials := ⟨"example.org", "user", "password"⟩
    let v := signedIn c
    let op : Operation := .addKey c
    let entropy : Entropy := ⟨fun _ => 0, 0⟩
    ∃ name k, v.find? name = some k ∧
      let forged : Key := { k with encryption := .zero 32 }
      let bag : KeyBag := ⟨[⟨name, forged.components⟩, ⟨"", forged.components⟩]⟩
      let e : Envelope := ⟨name, k.encrypt (.zero 12) (Json.encode bag)⟩
      op.IsLocal ∧ v.canDecrypt e = true ∧ op.Spares v name ∧ op.Installs v .default k ∧
        (v.installKeys e).state.find? "" = some forged ∧
        ((op.perform v entropy).state.1.installKeys e).state
          = (op.perform (v.installKeys e).state entropy).state.1 ∧
        ((op.perform v entropy).state.1.installKeys e).state.find? name = some k := by
  intro c v op entropy
  obtain ⟨k, hderive, hkey⟩ := exists_defaultKey?_signedIn (c := c) (by decide)
  have hfind := (defaultKey?_eq_some.1 hkey).2
  refine ⟨_, k, hfind, ?_⟩
  intro forged bag e
  have hderive' : v.derive c = .ok k := by
    rw [derive, settings_signedIn]
    exact hderive
  have hname : v.nameOf k = k.name .password "nigori-key" := by
    rw [nameOf, settings_signedIn]
    rfl
  have hnew : v.find? "" = none := NameMap.contains_eq_false.1 (hasKey_signedIn_empty hderive)
  have hother : k.name .password "nigori-key" ≠ "" := by
    intro hempty
    rw [hempty, hnew] at hfind
    cases hfind
  have hopens : v.Opens e bag := opens_encrypt hfind _ bag
  have hoffers : bag.find? "" = some forged := by
    rw [KeyBag.find?, List.findSome?_cons, offers?_components, if_neg hother, List.findSome?_cons,
      offers?_components, if_pos rfl]
  have hlocal : op.IsLocal := .addKey c
  have hheld : v.canDecrypt e = true := hasKey_iff.2 ⟨k, hfind⟩
  have hspares : op.Spares v e.keyName := spares_addKey hderive' (hname ▸ hfind)
  have hinstalls : op.Installs v .default k := .addKey hderive'
  obtain ⟨hsame, -, hkept⟩ := local_key_commutes_with_bag hlocal hheld hspares entropy
  refine ⟨hlocal, hheld, hspares, hinstalls, ?_, hsame, hname ▸ hkept .default k hinstalls⟩
  rw [find?_installKeys, hnew, offered?_eq_some.2 ⟨bag, hopens, hoffers⟩, Option.none_or]

end Vault

end KeyVault
