import KeyVault.Proofs.Vault.Run

/-!
# References along a run

The default reference and the keystore reference name keys that are held, in every state that a run
leads to. So an operation that needs one of the keys is refused for want of it only where the
reference is not set.

## Main definitions

- `Vault.ReferencesHeld` — the references name keys that are held

## Main statements

- `Vault.Reachable.referencesHeld` — they do in every reachable state
- `Vault.run_keeps_keys_and_references` — references, keys and refusals along every run
-/

namespace KeyVault

namespace Vault

/-! ### References -/

/-- The references name keys that are held. -/
structure ReferencesHeld (v : Vault) : Prop where
  default : ∀ name, v.defaultName = some name → v.hasKey name = true
  keystore : ∀ name, v.keystoreName = some name → v.hasKey name = true

theorem referencesHeld_empty (protector : Protector) (settings : Settings) :
    (Vault.empty protector settings).ReferencesHeld := by
  constructor <;> intro name h <;> cases h

/-- A reference to a held key, in the form in which references are looked at. -/
theorem hasKey_of_some_eq {v : Vault} {held : String} (h : v.hasKey held = true) :
    ∀ name, some held = some name → v.hasKey name = true := by
  rintro name hname
  obtain rfl := Option.some.inj hname
  exact h

theorem Change.referencesHeld {v next : Vault} (h : v.Change next) (hheld : v.ReferencesHeld) :
    next.ReferencesHeld := by
  -- A reference that does not change stays held, since no name goes away.
  have hdefault : ∀ name, v.defaultName = some name → next.hasKey name = true :=
    fun name hname => h.hasKey (hheld.default name hname)
  have hkeystore : ∀ name, v.keystoreName = some name → next.hasKey name = true :=
    fun name hname => h.hasKey (hheld.keystore name hname)
  cases h with
  | forward | merge | hold => exact ⟨hdefault, hkeystore⟩
  | @refer name hnew => exact ⟨hasKey_of_some_eq hnew, hkeystore⟩
  | @adopt e bag hpending hadopted => exact ⟨hasKey_of_some_eq hadopted, hkeystore⟩
  | install slot k =>
    have hnew := hasKey_install v slot k
    cases slot with
    | default => exact ⟨hasKey_of_some_eq hnew, hkeystore⟩
    | keystore => exact ⟨hdefault, hasKey_of_some_eq hnew⟩

theorem Reachable.referencesHeld {v : Vault} (h : v.Reachable) : v.ReferencesHeld :=
  h.induction referencesHeld_empty fun _ _ hheld hchange => hchange.referencesHeld hheld

theorem ReferencesHeld.exists_default {v : Vault} (h : v.ReferencesHeld) {name : String}
    (hname : v.defaultName = some name) : ∃ k, v.defaultKey? = some (name, k) := by
  obtain ⟨k, hfind⟩ := hasKey_iff.1 (h.default name hname)
  exact ⟨k, referred?_eq_some.2 ⟨hname, hfind⟩⟩

/-- No reference dangles: it is not set, or its key is found. -/
theorem ReferencesHeld.none_or_default {v : Vault} (h : v.ReferencesHeld) :
    v.defaultName = none ∨ ∃ name k, v.defaultKey? = some (name, k) := by
  cases hname : v.defaultName with
  | none => exact .inl rfl
  | some name => exact .inr ⟨name, h.exists_default hname⟩

theorem ReferencesHeld.none_or_keystore {v : Vault} (h : v.ReferencesHeld) :
    v.keystoreName = none ∨ ∃ name k, v.keystoreKey? = some (name, k) := by
  cases hname : v.keystoreName with
  | none => exact .inl rfl
  | some name =>
    obtain ⟨k, hfind⟩ := hasKey_iff.1 (h.keystore name hname)
    exact .inr ⟨name, k, referred?_eq_some.2 ⟨hname, hfind⟩⟩

/-! ### Refusals -/

/-- A token is only refused by the protector. -/
theorem tokenOf_error {v : Vault} {k : Key} {entropy : Entropy} {error : VaultError}
    (h : (v.tokenOf k entropy).result = .error error) :
    ∃ fault, error = .internal (.protection fault) := by
  rw [tokenOf] at h
  cases hwrite : Token.write v.protector k entropy with
  | mk written rest =>
    rw [hwrite] at h
    cases written with
    | ok token => cases h
    | error fault => exact ⟨fault, (Except.error.inj h).symm⟩

variable {v : Vault}

theorem encryptBytes_notReady_iff (h : v.ReferencesHeld) (plain : Bytes)
    (previous : Option Envelope) (entropy : Entropy) :
    (v.encryptBytes plain previous entropy).result = .error .notReady ↔ v.defaultName = none := by
  rcases h.none_or_default with hnone | ⟨name, k, hkey⟩
  · exact iff_of_true (encryptBytes_of_none hnone plain previous entropy) hnone
  · obtain ⟨e, hok, -⟩ := exists_encryptBytes hkey plain previous entropy
    have hset := (defaultKey?_eq_some.1 hkey).1
    apply iff_of_false
    · simp [hok]
    · simp [hset]

theorem getKeys_notReady_iff (h : v.ReferencesHeld) (entropy : Entropy) :
    (v.getKeys entropy).result = .error .notReady ↔ v.defaultName = none := by
  rcases h.none_or_default with hnone | ⟨name, k, hkey⟩
  · exact iff_of_true (getKeys_of_none hnone entropy) hnone
  · obtain ⟨e, hok, -⟩ := exists_encrypt hkey v.bag none entropy
    have hset := (defaultKey?_eq_some.1 hkey).1
    apply iff_of_false
    · simp [getKeys, hok]
    · simp [hset]

theorem bootstrapToken_notReady_iff (h : v.ReferencesHeld) (entropy : Entropy) :
    (v.bootstrapToken entropy).result = .error .notReady ↔ v.defaultName = none := by
  rcases h.none_or_default with hnone | ⟨name, k, hkey⟩
  · have hrefused : v.bootstrapToken entropy = ⟨.error .notReady, entropy, []⟩ := by
      rw [bootstrapToken, defaultKey?, hnone]
      rfl
    exact iff_of_true (congrArg Outcome.result hrefused) hnone
  · have hset := (defaultKey?_eq_some.1 hkey).1
    apply iff_of_false
    · intro hrefused
      rw [bootstrapToken, hkey] at hrefused
      obtain ⟨fault, hfault⟩ := tokenOf_error hrefused
      cases hfault
    · simp [hset]

theorem keystoreToken_noKeystoreKey_iff (h : v.ReferencesHeld) (entropy : Entropy) :
    (v.keystoreToken entropy).result = .error .noKeystoreKey ↔ v.keystoreName = none := by
  rcases h.none_or_keystore with hnone | ⟨name, k, hkey⟩
  · have hrefused : v.keystoreToken entropy = ⟨.error .noKeystoreKey, entropy, []⟩ := by
      rw [keystoreToken, keystoreKey?, hnone]
      rfl
    exact iff_of_true (congrArg Outcome.result hrefused) hnone
  · have hset := (referred?_eq_some.1 hkey).1
    apply iff_of_false
    · intro hrefused
      rw [keystoreToken, hkey] at hrefused
      obtain ⟨fault, hfault⟩ := tokenOf_error hrefused
      cases hfault
    · simp [hset]

/-- Along every run, the references name keys that are held, all keys have whole components, and no
name goes away. So encryption and tokens are refused for want of a key only where none is set. -/
theorem run_keeps_keys_and_references (protector : Protector) (settings : Settings)
    (past later : List (Operation × Entropy)) :
    let earlier := (Vault.empty protector settings).run past
    let v := earlier.run later
    (∀ name, v.defaultName = some name → v.hasKey name = true) ∧
    (∀ name, v.keystoreName = some name → v.hasKey name = true) ∧
    (∀ e ∈ v.bag.keys, e.material.userKey.length = 32 ∧ e.material.encryptionKey.length = 32 ∧
      e.material.macKey.length = 32) ∧
    (∀ name, earlier.hasKey name = true → v.hasKey name = true) ∧
    (∀ plain previous entropy,
      (v.encryptBytes plain previous entropy).result = .error .notReady ↔ v.defaultName = none) ∧
    (∀ entropy, (v.getKeys entropy).result = .error .notReady ↔ v.defaultName = none) ∧
    (∀ entropy, (v.bootstrapToken entropy).result = .error .notReady ↔ v.defaultName = none) ∧
    (∀ entropy,
      (v.keystoreToken entropy).result = .error .noKeystoreKey ↔ v.keystoreName = none) := by
  intro earlier v
  have hearlier : earlier.Reachable := ⟨protector, settings, past, rfl⟩
  have hheld : v.ReferencesHeld := (hearlier.run later).referencesHeld
  refine ⟨hheld.default, hheld.keystore, fun e he => length_components_bag he,
    fun name hname => hasKey_run hname later, ?_, ?_, ?_, ?_⟩
  · exact encryptBytes_notReady_iff hheld
  · exact getKeys_notReady_iff hheld
  · exact bootstrapToken_notReady_iff hheld
  · exact keystoreToken_noKeystoreKey_iff hheld

end Vault

end KeyVault
