import KeyVault.Proofs.Vault.History
import KeyVault.Proofs.Vault.Sealing

/-!
# New data under the keystore key

New data is encrypted under the default key. The keystore key lies in the same bag as all others,
and no step that moves a reference looks at the other one. So the keystore key encrypts nothing
exactly as long as the default key and the keystore key have not been chosen to be the same.

## Main statements

- `Vault.keystore_key_seals_nothing_iff` — when the keystore key encrypts no new data
- `Vault.exists_sealed?_setDefaultKey` — the default reference can be set to the keystore key
- `Vault.keystore_key_seals_new_data` — a run that does so
-/

namespace KeyVault

namespace Vault

variable {v : Vault} {name : String}

theorem exists_sealed? (h : v.ReferencesHeld) (hdefault : v.defaultName = some name)
    (entropy : Entropy) :
    ∃ e, Operation.sealed? (.encryptBytes [] none)
      (Operation.perform (.encryptBytes [] none) v entropy).result = some e ∧ e.keyName = name := by
  obtain ⟨k, hkey⟩ := h.exists_default hdefault
  obtain ⟨e, hok, hname, -⟩ := exists_encryptBytes hkey [] none entropy
  refine ⟨e, ?_, hname⟩
  simp [Operation.sealed?, Operation.earlier?, Operation.perform, Outcome.embed, hok, Except.map]

/-- Something can be sealed under exactly one name, the default one. -/
theorem exists_sealed?_iff (h : v.ReferencesHeld) :
    (∃ op entropy e, Operation.sealed? op (op.perform v entropy).result = some e ∧
      e.keyName = name) ↔ v.defaultName = some name := by
  constructor
  · rintro ⟨op, entropy, e, hsealed, rfl⟩
    obtain ⟨k, -, hkey, -⟩ := Operation.sealed?_eq_some hsealed
    exact (defaultKey?_eq_some.1 hkey).1
  · intro hdefault
    exact ⟨.encryptBytes [] none, ⟨fun _ => 0, 0⟩, exists_sealed? h hdefault _⟩

/-- In every state of every run, nothing is newly sealed under the name of the keystore key exactly
if the last name that was chosen for the default key is not the last one that was chosen for the
keystore key. -/
theorem keystore_key_seals_nothing_iff (protector : Protector) (settings : Settings)
    (steps : List (Operation × Entropy)) :
    let start := Vault.empty protector settings
    let v := start.run steps
    (∀ op entropy e, Operation.sealed? op (op.perform v entropy).result = some e →
      v.keystoreName ≠ some e.keyName) ↔
    ∀ name, (start.trace (Operation.chosen? .default) steps).getLast? = some name →
      (start.trace (Operation.chosen? .keystore) steps).getLast? ≠ some name := by
  intro start v
  have hreachable : v.Reachable := ⟨protector, settings, steps, rfl⟩
  have hdefault : v.defaultName = (start.trace (Operation.chosen? .default) steps).getLast? :=
    reference_run_empty protector settings .default steps
  have hkeystore : v.keystoreName = (start.trace (Operation.chosen? .keystore) steps).getLast? :=
    reference_run_empty protector settings .keystore steps
  rw [← hdefault, ← hkeystore]
  constructor
  · intro hnever name hname
    obtain ⟨op, entropy, e, hsealed, rfl⟩ := (exists_sealed?_iff hreachable.referencesHeld).2 hname
    exact hnever op entropy e hsealed
  · intro hapart op entropy e hsealed
    exact hapart _ ((exists_sealed?_iff hreachable.referencesHeld).1 ⟨op, entropy, e, hsealed, rfl⟩)

/-- The keystore key is held, so it is accepted as the default key, and seals data from then on. -/
theorem exists_sealed?_setDefaultKey (h : v.Reachable) (hkeystore : v.keystoreName = some name)
    (entropy : Entropy) :
    let w := v.run [(.setDefaultKey name, entropy)]
    w.keystoreName = some name ∧
      ∃ e, Operation.sealed? (.encryptBytes [] none)
        (Operation.perform (.encryptBytes [] none) w entropy).result = some e ∧
        e.keyName = name := by
  intro w
  have hw : w = v.refer .default name := by
    change (v.setDefaultKey name).state = _
    rw [setDefaultKey, if_pos (h.referencesHeld.keystore name hkeystore)]
  have hheld : w.ReferencesHeld := (h.run _).referencesHeld
  rw [hw] at hheld ⊢
  exact ⟨hkeystore, exists_sealed? hheld rfl entropy⟩

/-- A vault takes its keystore key as the default key, and encrypts new data under it. -/
theorem keystore_key_seals_new_data :
    let entropy : Entropy := ⟨fun _ => 0, 0⟩
    ∃ name v e, v = (Vault.empty .passthrough .standard).run
        [(.setKeystoreKey "server-issued-secret", entropy), (.setDefaultKey name, entropy)] ∧
      v.keystoreName = some name ∧
      Operation.sealed? (.encryptBytes [] none)
        (Operation.perform (.encryptBytes [] none) v entropy).result = some e ∧
      e.keyName = name := by
  intro entropy
  obtain ⟨k, hderive⟩ := exists_derive (c := ⟨"localhost", "dummy", "server-issued-secret"⟩)
    (by decide) (show StretchCost.standard.fault? = none by decide)
  let start := Vault.empty .passthrough .standard
  have hinstalls : Operation.Installs start (.setKeystoreKey "server-issued-secret") .keystore k :=
    .setKeystoreKey (by decide) hderive
  obtain ⟨w, hw⟩ : ∃ w, w = start.run [(.setKeystoreKey "server-issued-secret", entropy)] :=
    ⟨_, rfl⟩
  have hkeystore : w.keystoreName = some (start.nameOf k) := by
    have hinstalled : w = (start.install .keystore k).state :=
      hw.trans (hinstalls.state_perform entropy)
    rw [hinstalled]
    rfl
  obtain ⟨hkept, e, hsealed, hname⟩ :=
    exists_sealed?_setDefaultKey ⟨_, _, _, hw⟩ hkeystore entropy
  have hrun := run_append start [(.setKeystoreKey "server-issued-secret", entropy)]
    [(.setDefaultKey (start.nameOf k), entropy)]
  rw [← hw] at hrun
  exact ⟨_, _, e, hrun.symm, hkept, hsealed, hname⟩

end Vault

end KeyVault
