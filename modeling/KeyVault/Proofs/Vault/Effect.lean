import KeyVault.Proofs.Vault.Encrypt
import KeyVault.Proofs.Vault.Merge
import KeyVault.Vault.Operation

/-!
# What one operation does

Everything that an operation can do to a vault, with what has to hold for it: which key it installs,
which bag it merges, and that it changes nothing otherwise. Later proofs go through these cases and
look at no operation again.

## Main definitions

- `Vault.Opens`, `Vault.OpensPending` — the bag that an envelope, or the pending data, opens to
- `Vault.Verdict` — what an attempt on the pending data comes to
- `Operation.Installs` — the key that an operation installs
- `Operation.Effect` — what an operation gives back and leaves behind

## Main statements

- `Vault.verdict_decryptPendingKeys`, `Vault.Verdict.eq` — every attempt comes to the one verdict
  that holds
- `Operation.effect_perform` — every operation has one of these effects
- `Operation.Installs.state_perform` — keys that have to be installed are installed
-/

namespace KeyVault

/-! ### Opening bags -/

/-- A key opens a blob to the text of a bag. -/
def Key.Opens (k : Key) (blob : Bytes) (bag : KeyBag) : Prop :=
  ∃ plain, k.decrypt blob = .ok plain ∧ Json.decode plain = .ok bag

namespace Vault

variable {v : Vault} {e : Envelope} {bag : KeyBag}

/-- The key that an envelope names is held, and opens it to a bag. -/
def Opens (v : Vault) (e : Envelope) (bag : KeyBag) : Prop :=
  ∃ k, v.find? e.keyName = some k ∧ k.Opens e.blob bag

/-- Credentials yield a key that opens the pending data to a bag. -/
def OpensPending (v : Vault) (c : Credentials) (e : Envelope) (bag : KeyBag) : Prop :=
  v.pending = some e ∧ ∃ k, v.derive c = .ok k ∧ k.Opens e.blob bag

theorem decrypt_eq_ok_iff :
    (v.decrypt e : Outcome Unit KeyBag).result = .ok bag ↔ v.Opens e bag := by
  constructor
  · intro h
    cases hbytes : (v.decryptBytes e).result with
    | error error =>
      rw [decrypt, hbytes] at h
      cases h
    | ok plain =>
      obtain ⟨k, hfind, hopen⟩ := decryptBytes_eq_ok_iff.1 hbytes
      rw [decrypt_of_find? hfind hopen] at h
      exact ⟨k, hfind, plain, hopen, mapError_eq_ok_iff.1 h⟩
  · rintro ⟨k, hfind, plain, hopen, hdecode⟩
    rw [decrypt_of_find? hfind hopen, hdecode]
    rfl

theorem installKeys_of_opens (h : v.Opens e bag) : v.installKeys e = v.merge bag := by
  obtain ⟨k, hfind, -⟩ := id h
  have hheld : v.canDecrypt e = true := NameMap.contains_iff.2 ⟨k, hfind⟩
  rw [installKeys, if_pos hheld]
  simp only [decrypt_eq_ok_iff.2 h]

/-- An encrypted bag is merged if it opens, and passed over otherwise. -/
theorem installKeys_cases (v : Vault) (e : Envelope) :
    (∃ bag, v.Opens e bag ∧ v.installKeys e = v.merge bag) ∨
      (∀ bag, ¬ v.Opens e bag) ∧ (v.installKeys e).result = .ok 0 ∧
        (v.installKeys e).state = v := by
  by_cases hopens : ∃ bag, v.Opens e bag
  · obtain ⟨bag, hopens⟩ := hopens
    exact .inl ⟨bag, hopens, installKeys_of_opens hopens⟩
  · refine .inr ⟨not_exists.1 hopens, ?_⟩
    rw [installKeys]
    -- The key of the envelope may not be held, or what it gives may be no bag.
    by_cases hheld : v.canDecrypt e = true
    · rw [if_pos hheld]
      cases hbag : (v.decrypt e : Outcome Unit KeyBag).result with
      | ok bag => exact absurd ⟨bag, decrypt_eq_ok_iff.1 hbag⟩ hopens
      | error error => simp only [hbag, and_self]
    · rw [if_neg hheld]
      exact ⟨rfl, rfl⟩

theorem decryptPendingKeys_of_opens {c : Credentials} (h : v.OpensPending c e bag) :
    v.decryptPendingKeys c = v.adoptPending e.keyName bag := by
  obtain ⟨hpending, k, hderive, plain, hopen, hdecode⟩ := h
  simp only [decryptPendingKeys, hpending, hderive, hopen, hdecode]

theorem adoptPending_of_hasKey {name : String} {bag : KeyBag}
    (hheld : (v.merge bag).state.hasKey name = true) :
    v.adoptPending name bag = ⟨.ok (),
      { (v.merge bag).state with defaultName := some name, pending := none },
      (v.merge bag).events⟩ := by
  rw [adoptPending, if_pos hheld]

theorem adoptPending_of_lacks {name : String} {bag : KeyBag}
    (hlacks : (v.merge bag).state.hasKey name = false) :
    v.adoptPending name bag = ⟨.error (.internal (.ownKeyMissing name)), (v.merge bag).state,
      (v.merge bag).events ++ [.pendingOwnKeyMissing name]⟩ := by
  rw [adoptPending, hlacks]
  rfl

/-! ### Attempts on the pending data -/

/-- What an attempt on the pending data gives and leaves behind, with what has to hold for it. -/
inductive Verdict (v : Vault) (c : Credentials) : Except VaultError Unit → Vault → Prop
  | nothingPending (hpending : v.pending = none) : Verdict v c (.error .noPendingKeys) v
  | noKey {e : Envelope} {fault : DerivationFault} (hpending : v.pending = some e)
    (hderive : v.derive c = .error (.derivation fault)) :
    Verdict v c (.error (.crypto (.derivation fault))) v
  | closed {e : Envelope} {k : Key} (hpending : v.pending = some e) (hderive : v.derive c = .ok k)
    (hcloses : ∀ plain, k.decrypt e.blob ≠ .ok plain) :
    Verdict v c (.error .incorrectCredentials) v
  | noBag {e : Envelope} {k : Key} {plain : Bytes} (hpending : v.pending = some e)
    (hderive : v.derive c = .ok k) (hopen : k.decrypt e.blob = .ok plain)
    (hnone : ∀ bag : KeyBag, Json.decode plain ≠ .ok bag) :
    Verdict v c (.error (.internal .notABag)) v
  /-- The bag opens, but its own key is not held after the merge. -/
  | lack {e : Envelope} {bag : KeyBag} (hopens : v.OpensPending c e bag)
    (hlacks : (v.merge bag).state.hasKey e.keyName = false) :
    Verdict v c (.error (.internal (.ownKeyMissing e.keyName))) (v.merge bag).state
  | adopt {e : Envelope} {bag : KeyBag} (hopens : v.OpensPending c e bag)
    (hheld : (v.merge bag).state.hasKey e.keyName = true) :
    Verdict v c (.ok ()) { (v.merge bag).state with defaultName := some e.keyName, pending := none }

theorem exists_fault_of_derive {c : Credentials} {error : KeyError}
    (h : v.derive c = .error error) : ∃ fault, error = .derivation fault := by
  rw [derive, Key.derive] at h
  split at h
  · exact ⟨_, (Except.error.inj h).symm⟩
  · split at h
    · exact ⟨_, (Except.error.inj h).symm⟩
    · split at h
      · exact ⟨_, (Except.error.inj h).symm⟩
      · cases h

/-- Every attempt comes to one of these verdicts. -/
theorem verdict_decryptPendingKeys (v : Vault) (c : Credentials) :
    v.Verdict c (v.decryptPendingKeys c).result (v.decryptPendingKeys c).state := by
  cases hpending : v.pending with
  | none =>
    rw [decryptPendingKeys, hpending]
    exact .nothingPending hpending
  | some e =>
    cases hderive : v.derive c with
    | error error =>
      obtain ⟨fault, rfl⟩ := exists_fault_of_derive hderive
      simp only [decryptPendingKeys, hpending, hderive]
      exact .noKey hpending hderive
    | ok k =>
      cases hopen : k.decrypt e.blob with
      | error error =>
        simp only [decryptPendingKeys, hpending, hderive, hopen]
        exact .closed hpending hderive (by simp [hopen])
      | ok plain =>
        cases hbag : (Json.decode plain : Except Json.Failure KeyBag) with
        | error failure =>
          simp only [decryptPendingKeys, hpending, hderive, hopen, hbag]
          exact .noBag hpending hderive hopen (by simp [hbag])
        | ok bag =>
          have hopens : v.OpensPending c e bag := ⟨hpending, k, hderive, plain, hopen, hbag⟩
          rw [decryptPendingKeys_of_opens hopens]
          cases hheld : (v.merge bag).state.hasKey e.keyName with
          | true =>
            rw [adoptPending_of_hasKey hheld]
            exact .adopt hopens hheld
          | false =>
            rw [adoptPending_of_lacks hheld]
            exact .lack hopens hheld

/-- What has to hold for a verdict is enough for it. -/
theorem Verdict.eq {c : Credentials} {result : Except VaultError Unit} {next : Vault}
    (h : v.Verdict c result next) :
    (v.decryptPendingKeys c).result = result ∧ (v.decryptPendingKeys c).state = next := by
  cases h with
  | nothingPending hpending => simp only [decryptPendingKeys, hpending, and_self]
  | noKey hpending hderive => simp only [decryptPendingKeys, hpending, hderive, and_self]
  | @closed e k hpending hderive hcloses =>
    cases hopen : k.decrypt e.blob with
    | error error => simp only [decryptPendingKeys, hpending, hderive, hopen, and_self]
    | ok plain => exact absurd hopen (hcloses plain)
  | @noBag e k plain hpending hderive hopen hnone =>
    cases hbag : (Json.decode plain : Except Json.Failure KeyBag) with
    | error failure => simp only [decryptPendingKeys, hpending, hderive, hopen, hbag, and_self]
    | ok bag => exact absurd hbag (hnone bag)
  | lack hopens hlacks =>
    rw [decryptPendingKeys_of_opens hopens, adoptPending_of_lacks hlacks]
    exact ⟨rfl, rfl⟩
  | adopt hopens hheld =>
    rw [decryptPendingKeys_of_opens hopens, adoptPending_of_hasKey hheld]
    exact ⟨rfl, rfl⟩

end Vault

namespace Operation

/-! ### Kinds of operations -/

inductive Kind
  /-- Keys or pending data come in, or a reference moves. -/
  | change
  /-- A token is taken if nothing stands in the place of its key yet. -/
  | restart
  /-- Something is encrypted, decrypted or exported. -/
  | query
  /-- A key node is passed on. -/
  | node

def kind : Operation → Kind
  | addKey _ | setKeystoreKey _ | addKeyFromToken _ | setDefaultKey _ | installKeys _
  | setPendingKeys _ | decryptPendingKeys _ => .change
  | bootstrap _ | bootstrapKeystoreKey _ => .restart
  | encryptText _ _ | encryptBytes _ _ | decryptBytes _ | getKeys | bootstrapToken
  | keystoreToken => .query
  | setHandler _ | applyNode _ | updateNode _ | encryptedTypes => .node

/-! ### Effects -/

/-- The key that an operation installs on a vault, and the reference that it moves. -/
inductive Installs (v : Vault) : Operation → Slot → Key → Prop
  | addKey {c : Credentials} {k : Key} (hderive : v.derive c = .ok k) :
    Installs v (addKey c) .default k
  | setKeystoreKey {secret : String} {k : Key} (hsecret : secret ≠ "")
    (hderive : v.derive ⟨v.settings.keystoreHostname, v.settings.keystoreUsername, secret⟩
      = .ok k) :
    Installs v (setKeystoreKey secret) .keystore k
  | bootstrap {token : String} {k : Key} (hfirst : v.isInitialized = false)
    (hread : Token.read v.protector token = .ok k) : Installs v (bootstrap token) .default k
  | bootstrapKeystoreKey {token : String} {k : Key} (hfirst : v.hasKeystoreKey = false)
    (hread : Token.read v.protector token = .ok k) :
    Installs v (bootstrapKeystoreKey token) .keystore k
  | addKeyFromToken {token : String} {k : Key} (hread : Token.read v.protector token = .ok k) :
    Installs v (addKeyFromToken token) .default k

/-- What an operation gives back and leaves behind. -/
inductive Effect (v : Vault) : Operation → Except VaultError Answer → Vault → Prop
  | install {op : Operation} {slot : Slot} {k : Key} (hinstalls : op.Installs v slot k) :
    Effect v op (.ok .done) (v.install slot k).state
  | refer {name : String} (hheld : v.hasKey name = true) :
    Effect v (setDefaultKey name) (.ok .done) (v.refer .default name)
  | merge {e : Envelope} {bag : KeyBag} (hopens : v.Opens e bag) :
    Effect v (installKeys e) ((v.merge bag).result.map .count) (v.merge bag).state
  /-- The bag does not open. -/
  | skip {e : Envelope} (hcloses : ∀ bag, ¬ v.Opens e bag) :
    Effect v (installKeys e) (.ok (.count 0)) v
  | hold {e : Envelope} (hnew : v.canDecrypt e = false) :
    Effect v (setPendingKeys e) (.ok .done) { v with pending := some e }
  | adopt {c : Credentials} {e : Envelope} {bag : KeyBag} (hopens : v.OpensPending c e bag)
    (hheld : (v.merge bag).state.hasKey e.keyName = true) :
    Effect v (decryptPendingKeys c) (.ok .done)
      { (v.merge bag).state with defaultName := some e.keyName, pending := none }
  /-- The pending bag opens, but its own key is not held after the merge. -/
  | lack {c : Credentials} {e : Envelope} {bag : KeyBag} (hopens : v.OpensPending c e bag)
    (hlacks : (v.merge bag).state.hasKey e.keyName = false) :
    Effect v (decryptPendingKeys c) (.error (.internal (.ownKeyMissing e.keyName)))
      (v.merge bag).state
  /-- There is a key in the place already, or none in the token. -/
  | ignore {op : Operation} (hkind : op.kind = .restart)
    (hnone : ∀ slot k, ¬ op.Installs v slot k) : Effect v op (.ok .done) v
  | refuse {op : Operation} (error : VaultError) : Effect v op (.error error) v
  | query {op : Operation} (hkind : op.kind = .query) (result : Except VaultError Answer) :
    Effect v op result v
  | forward {op : Operation} (hkind : op.kind = .node) (answer : Answer)
    (handler : Option NodeHandler) (forwarded : List NodeCall) :
    Effect v op (.ok answer) { v with handler := handler, forwarded := forwarded }

variable (v : Vault)

theorem effect_addKey (c : Credentials) :
    Effect v (addKey c) ((v.addKey c).result.map fun _ => .done) (v.addKey c).state := by
  rw [Vault.addKey]
  cases hderive : v.derive c with
  | ok k => exact .install (.addKey hderive)
  | error error => exact .refuse _

theorem effect_setKeystoreKey (secret : String) :
    Effect v (setKeystoreKey secret) ((v.setKeystoreKey secret).result.map fun _ => .done)
      (v.setKeystoreKey secret).state := by
  rw [Vault.setKeystoreKey]
  by_cases hsecret : secret = ""
  · rw [if_pos hsecret]
    exact .refuse _
  · rw [if_neg hsecret]
    cases hderive : v.derive ⟨v.settings.keystoreHostname, v.settings.keystoreUsername, secret⟩ with
    | ok k => exact .install (.setKeystoreKey hsecret hderive)
    | error error => exact .refuse _

theorem effect_bootstrap (token : String) :
    Effect v (bootstrap token) ((v.bootstrap token).result.map fun _ => .done)
      (v.bootstrap token).state := by
  rw [Vault.bootstrap]
  cases hfirst : v.isInitialized with
  | true =>
    refine .ignore rfl fun slot k hinstalls => ?_
    cases hinstalls with
    | bootstrap hnot hread => exact absurd (hfirst.symm.trans hnot) (by decide)
  | false =>
    rw [if_neg (by decide), Vault.installFromToken]
    cases hread : Token.read v.protector token with
    | ok k => exact .install (.bootstrap hfirst hread)
    | error fault =>
      refine .ignore rfl fun slot k hinstalls => ?_
      cases hinstalls with
      | bootstrap hnot hok => cases hread.symm.trans hok

theorem effect_bootstrapKeystoreKey (token : String) :
    Effect v (bootstrapKeystoreKey token) ((v.bootstrapKeystoreKey token).result.map fun _ => .done)
      (v.bootstrapKeystoreKey token).state := by
  rw [Vault.bootstrapKeystoreKey]
  cases hfirst : v.hasKeystoreKey with
  | true =>
    refine .ignore rfl fun slot k hinstalls => ?_
    cases hinstalls with
    | bootstrapKeystoreKey hnot hread => exact absurd (hfirst.symm.trans hnot) (by decide)
  | false =>
    rw [if_neg (by decide), Vault.installFromToken]
    cases hread : Token.read v.protector token with
    | ok k => exact .install (.bootstrapKeystoreKey hfirst hread)
    | error fault =>
      refine .ignore rfl fun slot k hinstalls => ?_
      cases hinstalls with
      | bootstrapKeystoreKey hnot hok => cases hread.symm.trans hok

theorem effect_addKeyFromToken (token : String) :
    Effect v (addKeyFromToken token) ((v.addKeyFromToken token).result.map fun _ => .done)
      (v.addKeyFromToken token).state := by
  rw [Vault.addKeyFromToken]
  cases hread : Token.read v.protector token with
  | ok k => exact .install (.addKeyFromToken hread)
  | error fault => exact .refuse _

theorem effect_setDefaultKey (name : String) :
    Effect v (setDefaultKey name) ((v.setDefaultKey name).result.map fun _ => .done)
      (v.setDefaultKey name).state := by
  rw [Vault.setDefaultKey]
  by_cases hheld : v.hasKey name = true
  · rw [if_pos hheld]
    exact .refer hheld
  · rw [if_neg hheld]
    exact .refuse _

theorem effect_installKeys (e : Envelope) :
    Effect v (installKeys e) ((v.installKeys e).result.map .count) (v.installKeys e).state := by
  rcases v.installKeys_cases e with ⟨bag, hopens, hmerge⟩ | ⟨hcloses, hresult, hstate⟩
  · rw [hmerge]
    exact .merge hopens
  · rw [hresult, hstate]
    exact .skip hcloses

theorem effect_setPendingKeys (e : Envelope) :
    Effect v (setPendingKeys e) ((v.setPendingKeys e).result.map fun _ => .done)
      (v.setPendingKeys e).state := by
  rw [Vault.setPendingKeys]
  cases hnew : v.canDecrypt e with
  | true => exact .refuse _
  | false => exact .hold hnew

theorem effect_decryptPendingKeys (c : Credentials) :
    Effect v (decryptPendingKeys c) ((v.decryptPendingKeys c).result.map fun _ => .done)
      (v.decryptPendingKeys c).state := by
  have hverdict := v.verdict_decryptPendingKeys c
  generalize (v.decryptPendingKeys c).result = result at hverdict ⊢
  generalize (v.decryptPendingKeys c).state = next at hverdict ⊢
  cases hverdict with
  | nothingPending | noKey | closed | noBag => exact .refuse _
  | lack hopens hlacks => exact .lack hopens hlacks
  | adopt hopens hheld => exact .adopt hopens hheld

theorem effect_forward {α : Type} {op : Operation} (hkind : op.kind = .node) (call : NodeCall)
    (answer : NodeHandler → α) (toAnswer : α → Answer) :
    Effect v op ((v.forward call answer).result.map toAnswer) (v.forward call answer).state := by
  rw [Vault.forward]
  cases hhandler : v.handler with
  | none => exact .refuse _
  | some handler => exact .forward hkind _ (some handler) (v.forwarded ++ [call])

/-- Every operation has one of these effects. -/
theorem effect_perform (op : Operation) (entropy : Entropy) :
    Effect v op (op.perform v entropy).result (op.perform v entropy).state.1 := by
  cases op with
  | addKey c => exact effect_addKey v c
  | setKeystoreKey secret => exact effect_setKeystoreKey v secret
  | bootstrap token => exact effect_bootstrap v token
  | bootstrapKeystoreKey token => exact effect_bootstrapKeystoreKey v token
  | addKeyFromToken token => exact effect_addKeyFromToken v token
  | setDefaultKey name => exact effect_setDefaultKey v name
  | installKeys e => exact effect_installKeys v e
  | setPendingKeys e => exact effect_setPendingKeys v e
  | decryptPendingKeys c => exact effect_decryptPendingKeys v c
  | setHandler handler => exact .forward rfl _ (some handler) v.forwarded
  | applyNode node => exact effect_forward v rfl _ _ _
  | updateNode node => exact effect_forward v rfl _ _ _
  | encryptedTypes => exact effect_forward v rfl _ _ _
  | encryptText | encryptBytes | decryptBytes | getKeys | bootstrapToken | keystoreToken =>
    exact .query rfl _

/-! ### New keys -/

/-- The key that an operation is said to install is installed. -/
theorem Installs.state_perform {v : Vault} {op : Operation} {slot : Slot} {k : Key}
    (h : op.Installs v slot k) (entropy : Entropy) :
    (op.perform v entropy).state.1 = (v.install slot k).state := by
  cases h with
  | @addKey c _ hderive =>
    change (v.addKey c).state = _
    rw [Vault.addKey, hderive]
  | @setKeystoreKey secret _ hsecret hderive =>
    change (v.setKeystoreKey secret).state = _
    rw [Vault.setKeystoreKey, if_neg hsecret, hderive]
  | @bootstrap token _ hfirst hread =>
    change (v.bootstrap token).state = _
    rw [Vault.bootstrap, hfirst, if_neg (by decide), Vault.installFromToken, hread]
  | @bootstrapKeystoreKey token _ hfirst hread =>
    change (v.bootstrapKeystoreKey token).state = _
    rw [Vault.bootstrapKeystoreKey, hfirst, if_neg (by decide), Vault.installFromToken, hread]
  | @addKeyFromToken token _ hread =>
    change (v.addKeyFromToken token).state = _
    rw [Vault.addKeyFromToken, hread]

/-- The key that an operation can put under a name: one that it installs, or one of the bag that it
opens. -/
inductive Brings (v : Vault) : Operation → String → Key → Prop
  | installed {op : Operation} {slot : Slot} {k : Key} (hinstalls : op.Installs v slot k) :
    Brings v op (v.nameOf k) k
  | merged {e : Envelope} {bag : KeyBag} {name : String} {k : Key} (hopens : v.Opens e bag)
    (hfind : bag.find? name = some k) : Brings v (installKeys e) name k
  | adopted {c : Credentials} {e : Envelope} {bag : KeyBag} {name : String} {k : Key}
    (hopens : v.OpensPending c e bag) (hfind : bag.find? name = some k) :
    Brings v (decryptPendingKeys c) name k

end Operation

end KeyVault
