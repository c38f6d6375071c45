import KeyVault.Proofs.Cipher.Blob
import KeyVault.Proofs.Vault.Effect

/-!
# What an attempt on the pending data comes to

An attempt looks at one thing after the other: whether data are pending, whether the credentials
yield a key, whether this key opens the data, whether they are a bag, and whether the key that the
envelope names is held once the bag has been merged. The first of these that fails decides. Only the
last one is found out after the bag has been merged, and nothing more is merged when the attempt is
repeated.

## Main statements

- `Vault.Verdict.repeats` — an attempt that finds no bag, or a bag without its own key, finds the
  same again
- `Vault.decryptPendingKeys_internal_iff`, `Vault.decryptPendingKeys_eq_ok_iff` — which bags are
  refused, and which are adopted
- `Vault.verdicts_of_attempts` — every result of an attempt with its exact condition
-/

namespace KeyVault

namespace Vault

variable {v next : Vault} {c : Credentials} {result : Except VaultError Unit}

/-! ### Repeated attempts -/

/-- Data that turn out to be no bag, or a bag without its own key, turn out so again, and the
repeated attempt changes nothing. -/
theorem Verdict.repeats {fault : InternalFault} (h : v.Verdict c (.error (.internal fault)) next) :
    next.Verdict c (.error (.internal fault)) next := by
  cases h with
  | noBag hpending hderive hopen hnone => exact .noBag hpending hderive hopen hnone
  | @lack e bag hopens hlacks =>
    -- The state after the merge has the same pending data, and merging the bag again adds nothing.
    have hagain := state_merge_merge v bag
    have hopens' : (v.merge bag).state.OpensPending c e bag := hopens
    have hlacks' : ((v.merge bag).state.merge bag).state.hasKey e.keyName = false := by
      rw [hagain]
      exact hlacks
    have hverdict := Verdict.lack hopens' hlacks'
    rw [hagain] at hverdict
    exact hverdict

/-! ### Each result with its condition -/

theorem exists_verdict_of_result (h : (v.decryptPendingKeys c).result = result) :
    ∃ next, v.Verdict c result next :=
  ⟨_, h ▸ v.verdict_decryptPendingKeys c⟩

theorem decryptPendingKeys_noPendingKeys_iff :
    (v.decryptPendingKeys c).result = .error .noPendingKeys ↔ v.pending = none := by
  constructor
  · intro hresult
    obtain ⟨next, hverdict⟩ := exists_verdict_of_result hresult
    cases hverdict with
    | nothingPending hpending => exact hpending
  · exact fun hpending => (Verdict.nothingPending hpending).eq.1

theorem decryptPendingKeys_derivation_iff :
    (∃ fault, (v.decryptPendingKeys c).result = .error (.crypto (.derivation fault))) ↔
      ∃ e, v.pending = some e ∧ ∀ k, v.derive c ≠ .ok k := by
  constructor
  · rintro ⟨fault, hresult⟩
    obtain ⟨next, hverdict⟩ := exists_verdict_of_result hresult
    cases hverdict with
    | noKey hpending hderive => exact ⟨_, hpending, by simp [hderive]⟩
  · rintro ⟨e, hpending, hnone⟩
    cases hderive : v.derive c with
    | ok k => exact absurd hderive (hnone k)
    | error error =>
      obtain ⟨fault, rfl⟩ := exists_fault_of_derive hderive
      exact ⟨fault, (Verdict.noKey hpending hderive).eq.1⟩

/-- A blob of fewer than 28 bytes counts as one that the key does not open. -/
theorem decryptPendingKeys_incorrectCredentials_iff :
    (v.decryptPendingKeys c).result = .error .incorrectCredentials ↔
      ∃ e k, v.pending = some e ∧ v.derive c = .ok k ∧
        (e.blob.length < 28 ∨ ∀ plain, k.decrypt e.blob ≠ .ok plain) := by
  constructor
  · intro hresult
    obtain ⟨next, hverdict⟩ := exists_verdict_of_result hresult
    cases hverdict with
    | closed hpending hderive hcloses => exact ⟨_, _, hpending, hderive, .inr hcloses⟩
  · rintro ⟨e, k, hpending, hderive, hcloses⟩
    refine (Verdict.closed hpending hderive fun plain hopen => ?_).eq.1
    rcases hcloses with hshort | hcloses
    · have hlong := Blob.length_of_decrypt (mapError_eq_ok_iff.1 hopen)
      omega
    · exact hcloses plain hopen

theorem decryptPendingKeys_internal_iff :
    (∃ fault, (v.decryptPendingKeys c).result = .error (.internal fault)) ↔
      ∃ e k plain, v.pending = some e ∧ v.derive c = .ok k ∧ k.decrypt e.blob = .ok plain ∧
        ((∀ bag : KeyBag, Json.decode plain ≠ .ok bag) ∨
          ∃ bag : KeyBag, Json.decode plain = .ok bag ∧ v.hasKey e.keyName = false ∧
            ∀ entry ∈ bag.keys, entry.name = e.keyName → ¬ entry.material.Whole) := by
  constructor
  · rintro ⟨fault, hresult⟩
    obtain ⟨next, hverdict⟩ := exists_verdict_of_result hresult
    cases hverdict with
    | noBag hpending hderive hopen hnone => exact ⟨_, _, _, hpending, hderive, hopen, .inl hnone⟩
    | lack hopens hlacks =>
      obtain ⟨hpending, k, hderive, plain, hopen, hdecode⟩ := hopens
      exact ⟨_, k, plain, hpending, hderive, hopen,
        .inr ⟨_, hdecode, hasKey_merge_eq_false_iff.1 hlacks⟩⟩
  · rintro ⟨e, k, plain, hpending, hderive, hopen, hnone | ⟨bag, hdecode, hlacks⟩⟩
    · exact ⟨_, (Verdict.noBag hpending hderive hopen hnone).eq.1⟩
    · have hopens : v.OpensPending c e bag := ⟨hpending, k, hderive, plain, hopen, hdecode⟩
      exact ⟨_, (Verdict.lack hopens (hasKey_merge_eq_false_iff.2 hlacks)).eq.1⟩

theorem decryptPendingKeys_eq_ok_iff :
    (v.decryptPendingKeys c).result = .ok () ↔
      ∃ e k plain, v.pending = some e ∧ v.derive c = .ok k ∧ k.decrypt e.blob = .ok plain ∧
        ∃ bag : KeyBag, Json.decode plain = .ok bag ∧ (v.hasKey e.keyName = true ∨
          ∃ entry ∈ bag.keys, entry.name = e.keyName ∧ entry.material.Whole) := by
  constructor
  · intro hresult
    obtain ⟨next, hverdict⟩ := exists_verdict_of_result hresult
    cases hverdict with
    | adopt hopens hheld =>
      obtain ⟨hpending, k, hderive, plain, hopen, hdecode⟩ := hopens
      exact ⟨_, k, plain, hpending, hderive, hopen, _, hdecode, hasKey_merge_iff.1 hheld⟩
  · rintro ⟨e, k, plain, hpending, hderive, hopen, bag, hdecode, hheld⟩
    have hopens : v.OpensPending c e bag := ⟨hpending, k, hderive, plain, hopen, hdecode⟩
    exact (Verdict.adopt hopens (hasKey_merge_iff.2 hheld)).eq.1

/-- Credentials that are accepted bring in the bag: each new name has got its first well-formed
entry. -/
theorem exists_keys_of_decryptPendingKeys (h : (v.decryptPendingKeys c).result = .ok ()) :
    ∃ e bag keys, v.OpensPending c e bag ∧
      (v.decryptPendingKeys c).state
        = { v with keys := keys, defaultName := some e.keyName, pending := none } ∧
      ∀ name, keys.find? name = (v.find? name).or (bag.find? name) := by
  have hverdict := v.verdict_decryptPendingKeys c
  rw [h] at hverdict
  generalize (v.decryptPendingKeys c).state = next at hverdict ⊢
  cases hverdict with
  | @adopt e bag hopens hheld =>
    exact ⟨e, bag, (v.merge bag).state.keys, hopens, rfl, find?_merge v bag⟩

theorem decryptPendingKeys_decryptPendingKeys {fault : InternalFault}
    (h : (v.decryptPendingKeys c).result = .error (.internal fault)) :
    ((v.decryptPendingKeys c).state.decryptPendingKeys c).result = .error (.internal fault) ∧
      ((v.decryptPendingKeys c).state.decryptPendingKeys c).state
        = (v.decryptPendingKeys c).state := by
  have hverdict := v.verdict_decryptPendingKeys c
  rw [h] at hverdict
  exact hverdict.repeats.eq

/-- The results of an attempt on the pending data, each with what has to hold for it. It is refused
as having nothing to open if nothing is pending; else for want of a key if the credentials yield
none; else as having the wrong credentials if their key does not open the blob, as is the case for
every blob of fewer than 28 bytes; else as an internal fault if what it opens to is no bag, or a bag
whose envelope names a key that is neither held nor among its well-formed entries. Else it succeeds:
each new name has got its first well-formed entry, the name on the envelope is the default name, and
nothing is pending. An attempt that ended in an internal fault ends in the same one when it is
repeated, and changes nothing further. -/
theorem verdicts_of_attempts (v : Vault) (c : Credentials) :
    let attempt := v.decryptPendingKeys c
    (attempt.result = .error .noPendingKeys ↔ v.pending = none) ∧
    ((∃ fault, attempt.result = .error (.crypto (.derivation fault))) ↔
      ∃ e, v.pending = some e ∧ ∀ k, v.derive c ≠ .ok k) ∧
    (attempt.result = .error .incorrectCredentials ↔
      ∃ e k, v.pending = some e ∧ v.derive c = .ok k ∧
        (e.blob.length < 28 ∨ ∀ plain, k.decrypt e.blob ≠ .ok plain)) ∧
    ((∃ fault, attempt.result = .error (.internal fault)) ↔
      ∃ e k plain, v.pending = some e ∧ v.derive c = .ok k ∧ k.decrypt e.blob = .ok plain ∧
        ((∀ bag : KeyBag, Json.decode plain ≠ .ok bag) ∨
          ∃ bag : KeyBag, Json.decode plain = .ok bag ∧ v.hasKey e.keyName = false ∧
            ∀ entry ∈ bag.keys, entry.name = e.keyName → ¬ entry.material.Whole)) ∧
    (attempt.result = .ok () ↔
      ∃ e k plain, v.pending = some e ∧ v.derive c = .ok k ∧ k.decrypt e.blob = .ok plain ∧
        ∃ bag : KeyBag, Json.decode plain = .ok bag ∧ (v.hasKey e.keyName = true ∨
          ∃ entry ∈ bag.keys, entry.name = e.keyName ∧ entry.material.Whole)) ∧
    (attempt.result = .ok () → ∃ e bag keys, v.OpensPending c e bag ∧
      attempt.state = { v with keys := keys, defaultName := some e.keyName, pending := none } ∧
      ∀ name, keys.find? name = (v.find? name).or (bag.find? name)) ∧
    ∀ fault, attempt.result = .error (.internal fault) →
      (attempt.state.decryptPendingKeys c).result = .error (.internal fault) ∧
        (attempt.state.decryptPendingKeys c).state = attempt.state := by
  intro attempt
  refine ⟨?_, ?_, ?_, ?_, ?_, ?_, ?_⟩
  · exact decryptPendingKeys_noPendingKeys_iff
  · exact decryptPendingKeys_derivation_iff
  · exact decryptPendingKeys_incorrectCredentials_iff
  · exact decryptPendingKeys_internal_iff
  · exact decryptPendingKeys_eq_ok_iff
  · exact exists_keys_of_decryptPendingKeys
  · exact fun fault => decryptPendingKeys_decryptPendingKeys

end Vault

end KeyVault
