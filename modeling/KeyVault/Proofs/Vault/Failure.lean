import KeyVault.Proofs.Vault.Pending

/-!
# Failed operations

An operation that fails leaves the vault as it was, wherever on its way it fails. There is one
exception: that a pending bag lacks the key that it is encrypted under is found out after the bag
has been merged.

## Main definitions

- `Operation.Fails` — an operation does not do what it is asked for

## Main statements

- `Operation.Effect.of_fails` — the effects of failed operations
- `Operation.failed_operation_leaves_no_trace` — what they leave behind
-/

namespace KeyVault

namespace Operation

variable {v next : Vault} {op : Operation} {result : Except VaultError Answer}

/-- An operation does not do what it is asked for: it ends in an error. Restarts and merges have no
errors: a restart fails if it comes too late or its token holds no key, a merge if its bag does not
open. -/
def Fails (v : Vault) (result : Except VaultError Answer) : Operation → Prop
  | bootstrap token => v.isInitialized = true ∨ ∀ k, Token.read v.protector token ≠ .ok k
  | bootstrapKeystoreKey token =>
    v.hasKeystoreKey = true ∨ ∀ k, Token.read v.protector token ≠ .ok k
  | installKeys e => ∀ bag, ¬ v.Opens e bag
  | _ => ∃ error, result = .error error

theorem Installs.not_fails {slot : Slot} {k : Key} (h : op.Installs v slot k) :
    ¬ op.Fails v (.ok .done) := by
  cases h with
  | addKey | setKeystoreKey | addKeyFromToken =>
    rintro ⟨error, herror⟩
    cases herror
  | bootstrap hfirst hread | bootstrapKeystoreKey hfirst hread =>
    rintro (hlate | hnone)
    · rw [hfirst] at hlate
      cases hlate
    · exact hnone _ hread

/-- A failed operation changes nothing, or it has merged a pending bag that lacks its own key. -/
theorem Effect.of_fails (h : Effect v op result next) (hfails : op.Fails v result) :
    next = v ∨ ∃ c e bag, op = decryptPendingKeys c ∧ v.OpensPending c e bag ∧
      next = (v.merge bag).state ∧ next.hasKey e.keyName = false := by
  -- What fails leaves the vault alone or is a pending bag; the other effects are no failures.
  cases h with
  | skip | ignore | refuse | query => exact .inl rfl
  | lack hopens hlacks => exact .inr ⟨_, _, _, rfl, hopens, rfl, hlacks⟩
  | install hinstalls => exact absurd hfails hinstalls.not_fails
  | merge hopens => exact absurd hopens (hfails _)
  | refer | hold | adopt =>
    obtain ⟨error, herror⟩ := hfails
    cases herror
  | forward hkind answer =>
    obtain ⟨error, herror⟩ : ∃ error, Except.ok answer = .error error := by
      cases op <;> first | exact hfails | cases hkind
    cases herror

/-- An operation that fails leaves keys, references and pending data exactly as they were. Only when
a pending bag opens and its own key is not held even after the merge, the keys of the bag have been
added to the old ones; the references and the pending data are as before in this case, too. -/
theorem failed_operation_leaves_no_trace {entropy : Entropy}
    (hfails : op.Fails v (op.perform v entropy).result) :
    (op.perform v entropy).state.1 = v ∨
      ∃ c e bag keys, op = decryptPendingKeys c ∧ v.OpensPending c e bag ∧
        (op.perform v entropy).state.1 = { v with keys := keys } ∧
        (∀ name, keys.find? name = (v.find? name).or (bag.find? name)) ∧
        keys.contains e.keyName = false := by
  rcases (effect_perform v op entropy).of_fails hfails with
    hsame | ⟨c, e, bag, hop, hopens, hmerged, hlacks⟩
  · exact .inl hsame
  · refine .inr ⟨c, e, bag, (v.merge bag).state.keys, hop, hopens, hmerged, ?_, ?_⟩
    · exact v.find?_merge bag
    · rw [hmerged] at hlacks
      exact hlacks

/-- A bag without any key becomes pending in a new vault. The right credentials open it, and find
that it lacks its own key, so that it stays pending. -/
theorem empty_bag_stays_pending :
    let op := decryptPendingKeys ⟨"example.org", "user", "password"⟩
    ∃ e v, v = ((Vault.empty .passthrough .standard).setPendingKeys e).state ∧
      v.pending = some e ∧ op.Fails v (op.perform v ⟨fun _ => 0, 0⟩).result ∧
      (op.perform v ⟨fun _ => 0, 0⟩).state.1.pending = some e := by
  intro op
  obtain ⟨k, hderive⟩ := Vault.exists_derive (c := ⟨"example.org", "user", "password"⟩)
    (by decide) (show StretchCost.standard.fault? = none by decide)
  let e : Envelope := ⟨"lost", k.encrypt (.zero 12) (Json.encode (⟨[]⟩ : KeyBag))⟩
  let v : Vault := ((Vault.empty .passthrough .standard).setPendingKeys e).state
  have hopens : v.OpensPending ⟨"example.org", "user", "password"⟩ e ⟨[]⟩ :=
    ⟨rfl, k, hderive, _, k.decrypt_encrypt _ _, Vault.decode_bag _⟩
  have hlacks : v.adoptPending "lost" ⟨[]⟩ = ⟨.error (.internal (.ownKeyMissing "lost")), _, _⟩ :=
    Vault.adoptPending_of_lacks rfl
  have hfails : op.Fails v (op.perform v ⟨fun _ => 0, 0⟩).result := by
    refine ⟨.internal (.ownKeyMissing "lost"), ?_⟩
    change (v.decryptPendingKeys _).result.map _ = _
    rw [Vault.decryptPendingKeys_of_opens hopens, hlacks]
    rfl
  refine ⟨e, v, rfl, rfl, hfails, ?_⟩
  rcases failed_operation_leaves_no_trace hfails with hsame | ⟨c, e', bag, keys, -, -, hmerged, -⟩
  · rw [hsame]
    rfl
  · rw [hmerged]
    rfl

end Operation

end KeyVault
