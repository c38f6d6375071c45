import KeyVault.Proofs.Vault.Transfer

/-!
# Opening the pending bag

The user of a vault that lacks the peer's default key can try credentials as often as it takes: an
attempt that is refused leaves no trace. The right ones hand over all keys of the peer and make its
default key the default key here.

## Main definitions

- `Vault.RefusedAttempts` — attempts that do not fit the pending bag

## Main statements

- `Vault.decryptPendingKeys_state_of_error` — only a bag without its own key leaves anything behind
- `Vault.pending_bag_is_adopted` — the whole exchange
-/

namespace KeyVault

namespace Vault

variable {v : Vault} {e : Envelope} {k : Key} {b : KeyBag} {c : Credentials}

/-! ### What an attempt does -/

/-- Only a bag without its own key leaves anything behind when it is refused. -/
theorem decryptPendingKeys_state_of_error {error : VaultError}
    (h : (v.decryptPendingKeys c).result = .error error)
    (hown : ∀ name, error ≠ .internal (.ownKeyMissing name)) :
    (v.decryptPendingKeys c).state = v := by
  have hverdict := v.verdict_decryptPendingKeys c
  rw [h] at hverdict
  generalize (v.decryptPendingKeys c).state = next at hverdict ⊢
  cases hverdict with
  | nothingPending | noKey | closed | noBag => rfl
  | @lack e => exact absurd rfl (hown e.keyName)

/-! ### Attempts -/

/-- Credentials are refused as such: they yield no key, or a key that does not open the data. -/
def Refuses (v : Vault) (c : Credentials) : Prop :=
  (v.decryptPendingKeys c).result = .error .incorrectCredentials ∨
    ∃ fault, (v.decryptPendingKeys c).result = .error (.crypto (.derivation fault))

/-- Any number of attempts whose credentials are refused, and the state that they lead to. -/
inductive RefusedAttempts (v : Vault) : Vault → Prop
  | none : RefusedAttempts v v
  | attempt {w : Vault} (h : RefusedAttempts v w) (c : Credentials) (hrefused : w.Refuses c) :
    RefusedAttempts v (w.decryptPendingKeys c).state

theorem Refuses.state (h : v.Refuses c) : (v.decryptPendingKeys c).state = v := by
  rcases h with h | ⟨fault, h⟩
  · exact decryptPendingKeys_state_of_error h (by simp)
  · exact decryptPendingKeys_state_of_error h (by simp)

/-- However many attempts are refused, the vault is as it was. -/
theorem RefusedAttempts.eq {w : Vault} (h : v.RefusedAttempts w) : w = v := by
  induction h with
  | none => rfl
  | attempt h c hrefused ih => exact hrefused.state.trans ih

/-! ### The exchange -/

theorem setPendingKeys_of_lacks (hlacks : v.hasKey e.keyName = false) :
    (v.setPendingKeys e).result = .ok () ∧
      (v.setPendingKeys e).state = { v with pending := some e } := by
  have hcannot : v.canDecrypt e = false := hlacks
  rw [setPendingKeys, hcannot]
  exact ⟨rfl, rfl⟩

/-- The bag of a peer opens under the right key. -/
theorem decryptPendingKeys_of_peer {peer : Vault} {secret : Key} (hpending : v.pending = some e)
    (hlacks : v.hasKey e.keyName = false) (hderive : v.derive c = .ok secret)
    (hopen : secret.decrypt e.blob = .ok (Json.encode peer.bag))
    (hfind : peer.find? e.keyName = some k) :
    (v.decryptPendingKeys c).result = .ok () ∧
      (v.decryptPendingKeys c).state.find? e.keyName = some k ∧
      ∃ keys, (∀ n, keys.find? n = (v.find? n).or (peer.find? n)) ∧
        (v.decryptPendingKeys c).state
          = { v with keys := keys, defaultName := some e.keyName, pending := none } := by
  have hbag : ∀ n, (v.merge peer.bag).state.find? n = (v.find? n).or (peer.find? n) := by
    intro n
    rw [find?_merge, find?_bag]
  have hown : (v.merge peer.bag).state.find? e.keyName = some k := by
    have hnone : v.find? e.keyName = none := NameMap.contains_eq_false.1 hlacks
    rw [hbag, hnone, hfind, Option.none_or]
  have hopens : v.OpensPending c e peer.bag :=
    ⟨hpending, secret, hderive, _, hopen, decode_bag _⟩
  obtain ⟨hresult, hstate⟩ := (Verdict.adopt hopens (hasKey_iff.2 ⟨k, hown⟩)).eq
  rw [hresult, hstate]
  exact ⟨rfl, hown, (v.merge peer.bag).state.keys, hbag, rfl⟩

/-- The bag of a peer becomes pending where its default key is unknown. After any number of refused
attempts, credentials that yield this key open the bag: its key becomes the default key, all keys
that were lacking are there, and the vault is ready. -/
theorem pending_bag_is_adopted {peer v : Vault} {name : String} {secret : Key} {c : Credentials}
    (hpeer : peer.Reachable) (hdefault : peer.defaultName = some name)
    (hlacks : v.hasKey name = false) (hderive : v.derive c = .ok secret)
    (halike : ∀ k, peer.find? name = some k → k.Alike secret) (entropy : Entropy) :
    ∃ e k, (peer.getKeys entropy).result = .ok e ∧ peer.find? name = some k ∧
      (v.setPendingKeys e).result = .ok () ∧
      ∀ w, (v.setPendingKeys e).state.RefusedAttempts w →
        (w.decryptPendingKeys c).result = .ok () ∧
        (w.decryptPendingKeys c).state.find? name = some k ∧
        (w.decryptPendingKeys c).state.isReady = true ∧
        ∃ keys, (∀ n, keys.find? n = (v.find? n).or (peer.find? n)) ∧
          (w.decryptPendingKeys c).state
            = { v with keys := keys, defaultName := some name, pending := none } := by
  obtain ⟨k, hkey⟩ := hpeer.referencesHeld.exists_default hdefault
  have hfind : peer.find? name = some k := (defaultKey?_eq_some.1 hkey).2
  obtain ⟨e, hok, rfl, hopen⟩ := exists_getKeys hkey entropy
  obtain ⟨haccepted, hheld⟩ := setPendingKeys_of_lacks hlacks
  refine ⟨e, k, hok, hfind, haccepted, fun w hattempts => ?_⟩
  obtain rfl : w = { v with pending := some e } := hattempts.eq.trans hheld
  have hsecret : secret.decrypt e.blob = .ok (Json.encode peer.bag) := by
    rw [(halike k hfind).decrypt, hopen]
  obtain ⟨hdone, hown, keys, hkeys, hstate⟩ :=
    decryptPendingKeys_of_peer (v := { v with pending := some e }) rfl hlacks hderive hsecret hfind
  refine ⟨hdone, hown, ?_, keys, hkeys, hstate⟩
  rw [hstate]
  rfl

/-- A new vault gets the key of its peer when the password, forgotten at first, is given. -/
theorem key_is_adopted_at_second_attempt :
    let peer := signedIn ⟨"example.org", "user", "password"⟩
    let v := Vault.empty .passthrough .standard
    ∃ name secret e w, peer.Reachable ∧ peer.defaultName = some name ∧ v.hasKey name = false ∧
      v.derive ⟨"example.org", "user", "password"⟩ = .ok secret ∧
      (∀ k, peer.find? name = some k → k.Alike secret) ∧
      (peer.getKeys ⟨fun _ => 0, 0⟩).result = .ok e ∧
      w = ((v.setPendingKeys e).state.decryptPendingKeys ⟨"example.org", "user", ""⟩).state ∧
      (v.setPendingKeys e).state.RefusedAttempts w ∧
      (w.decryptPendingKeys ⟨"example.org", "user", "password"⟩).result = .ok () := by
  intro peer v
  obtain ⟨secret, hderive, hkey⟩ :=
    exists_defaultKey?_signedIn (c := ⟨"example.org", "user", "password"⟩) (by decide)
  obtain ⟨hdefault, hfind⟩ := defaultKey?_eq_some.1 hkey
  have halike : ∀ k, peer.find? (secret.name .password "nigori-key") = some k → k.Alike secret := by
    intro k hk
    obtain rfl : secret = k := Option.some.inj (hfind.symm.trans hk)
    exact ⟨rfl, rfl⟩
  obtain ⟨e, k, hok, -, -, hattempts⟩ := pending_bag_is_adopted (v := v) (reachable_signedIn _)
    hdefault rfl hderive halike ⟨fun _ => 0, 0⟩
  have hrefused : (v.setPendingKeys e).state.Refuses ⟨"example.org", "user", ""⟩ :=
    .inr ⟨.emptyPassword, rfl⟩
  have hattempt := RefusedAttempts.none.attempt _ hrefused
  exact ⟨_, secret, e, _, reachable_signedIn _, hdefault, rfl, hderive, halike, hok, rfl, hattempt,
    (hattempts _ hattempt).1⟩

end Vault

end KeyVault
