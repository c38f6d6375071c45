import KeyVault.Proofs.Token
import KeyVault.Proofs.Vault.References

/-!
# Restarting from tokens

A token holds a key and not the name under which the vault held it. A new vault that starts from it
gives the key its own name. So the reference is the old one exactly if the key was held under its
own name before.

## Main definitions

- `Vault.reference`, `Vault.exportToken`, `Vault.restart` — a reference, the token of its key, and
  the start from such a token

## Main statements

- `Vault.restart_of_read` — a token is taken where its reference is not set
- `Vault.token_restores_key` — the way of a key through a token
-/

namespace KeyVault

namespace Vault

/-- The name to which a reference is set. -/
def reference (v : Vault) : Slot → Option String
  | .default => v.defaultName
  | .keystore => v.keystoreName

/-- The token of the key that a reference names. -/
def exportToken (v : Vault) (slot : Slot) (entropy : Entropy) : Outcome Entropy String :=
  match slot with
  | .default => v.bootstrapToken entropy
  | .keystore => v.keystoreToken entropy

/-- Takes the key of a token for a reference that is not set yet. -/
def restart (v : Vault) (slot : Slot) (token : String) : Outcome Vault Unit :=
  match slot with
  | .default => v.bootstrap token
  | .keystore => v.bootstrapKeystoreKey token

variable {v : Vault} {slot : Slot} {name token : String} {k : Key}

theorem ReferencesHeld.exists_find? (h : v.ReferencesHeld) (hname : v.reference slot = some name) :
    ∃ k, v.find? name = some k := by
  cases slot with
  | default => exact hasKey_iff.1 (h.default name hname)
  | keystore => exact hasKey_iff.1 (h.keystore name hname)

theorem exportToken_of_write (hname : v.reference slot = some name) (hfind : v.find? name = some k)
    {entropy rest : Entropy} (hwrite : Token.write v.protector k entropy = (.ok token, rest)) :
    (v.exportToken slot entropy).result = .ok token := by
  have hkey : v.referred? (v.reference slot) = some (name, k) := referred?_eq_some.2 ⟨hname, hfind⟩
  have htoken : (v.tokenOf k entropy).result = .ok token := by
    rw [tokenOf, hwrite]
  cases slot with
  | default =>
    have hdefault : v.defaultKey? = some (name, k) := hkey
    rw [exportToken, bootstrapToken, hdefault]
    exact htoken
  | keystore =>
    have hkeystore : v.keystoreKey? = some (name, k) := hkey
    rw [exportToken, keystoreToken, hkeystore]
    exact htoken

theorem restart_of_read (hfree : v.reference slot = none)
    (hread : Token.read v.protector token = .ok k) : v.restart slot token = v.install slot k := by
  cases slot with
  | default =>
    have hfirst : v.isInitialized = false := congrArg Option.isSome hfree
    rw [restart, bootstrap, hfirst, installFromToken, hread]
    rfl
  | keystore =>
    have hfirst : v.hasKeystoreKey = false := congrArg Option.isSome hfree
    rw [restart, bootstrapKeystoreKey, hfirst, installFromToken, hread]
    rfl

/-- A vault that takes its first key holds and refers to nothing else. -/
theorem install_empty (protector : Protector) (settings : Settings) (slot : Slot) (k : Key) :
    let w := ((Vault.empty protector settings).install slot k).state
    let name := k.name .password settings.keyNameTag
    w.keys.entries = [(name, k)] ∧ w.reference slot = some name ∧
      (∀ other, other ≠ slot → w.reference other = none) ∧ w.pending = none := by
  cases slot with
  | default =>
    refine ⟨rfl, rfl, fun other hother => ?_, rfl⟩
    cases other with
    | default => exact absurd rfl hother
    | keystore => rfl
  | keystore =>
    refine ⟨rfl, rfl, fun other hother => ?_, rfl⟩
    cases other with
    | default => rfl
    | keystore => exact absurd rfl hother

/-- A token takes a key into any vault with the same protector, whatever it holds. -/
theorem addKeyFromToken_of_read (hread : Token.read v.protector token = .ok k) :
    v.addKeyFromToken token = ⟨.ok (),
      { v with keys := v.keys.insert (v.nameOf k) k, defaultName := some (v.nameOf k) },
      [.installedKey (v.nameOf k)]⟩ := by
  rw [addKeyFromToken, hread]
  rfl

/-- The key to which a reference is set goes through a token, whole, and gets its own name: in a new
vault that starts from the token it is the only key, and in one that takes the token in addition it
becomes the default key. The reference is the old one exactly if the key was held under its own name
before; then everything that it decrypted is decrypted after the restart. -/
theorem token_restores_key (hreachable : v.Reachable) (hname : v.reference slot = some name)
    (hprotector : v.protector = .passthrough ∨ ∃ key, v.protector = .localKey key)
    (entropy : Entropy) :
    ∃ k token, v.find? name = some k ∧ (v.exportToken slot entropy).result = .ok token ∧
      (∀ settings, settings.keyNameTag = v.settings.keyNameTag →
        let w := ((Vault.empty v.protector settings).restart slot token).state
        w.keys.entries = [(v.nameOf k, k)] ∧ w.reference slot = some (v.nameOf k) ∧
        (∀ other, other ≠ slot → w.reference other = none) ∧ w.pending = none ∧
        (w.reference slot = v.reference slot ↔ name = v.nameOf k) ∧
        (name = v.nameOf k → ∀ d plain, d.keyName = name →
          (v.decryptBytes d).result = .ok plain → (w.decryptBytes d).result = .ok plain)) ∧
      ∀ r : Vault, r.protector = v.protector → r.settings.keyNameTag = v.settings.keyNameTag →
        (r.addKeyFromToken token).result = .ok () ∧
        (r.addKeyFromToken token).state
          = { r with keys := r.keys.insert (v.nameOf k) k, defaultName := some (v.nameOf k) } := by
  obtain ⟨k, hfind⟩ := hreachable.referencesHeld.exists_find? hname
  obtain ⟨token, rest, hwrite, hread⟩ := Token.exists_write hprotector k entropy
  refine ⟨k, token, hfind, exportToken_of_write hname hfind hwrite, ?_, ?_⟩
  · intro settings htag w
    have hfree : (Vault.empty v.protector settings).reference slot = none := by cases slot <;> rfl
    have hw : w = ((Vault.empty v.protector settings).install slot k).state :=
      congrArg Outcome.state (restart_of_read hfree hread)
    have hown : k.name .password settings.keyNameTag = v.nameOf k := by rw [htag, nameOf]
    obtain ⟨hkeys, hset, hothers, hpending⟩ := install_empty v.protector settings slot k
    rw [← hw, hown] at hkeys hset
    rw [← hw] at hothers hpending
    refine ⟨hkeys, hset, hothers, hpending, ?_, ?_⟩
    · rw [hset, hname]
      exact ⟨fun h => (Option.some.inj h).symm, fun h => congrArg some h.symm⟩
    · -- The name does not go through the token, so the envelope has to have the key's own name.
      rintro rfl d plain hd hplain
      obtain ⟨held, hheld, hopen⟩ := decryptBytes_eq_ok_iff.1 hplain
      have hkept : w.find? d.keyName = some held := by
        rw [hd] at hheld ⊢
        obtain rfl : k = held := Option.some.inj (hfind.symm.trans hheld)
        rw [find?, NameMap.find?, hkeys]
        exact if_pos rfl
      exact decryptBytes_of_find? hkept hopen
  · intro r hsame htag
    have hown : r.nameOf k = v.nameOf k := by rw [nameOf, nameOf, htag]
    rw [addKeyFromToken_of_read (hsame ▸ hread), hown]
    exact ⟨rfl, rfl⟩

/-- The key of a password on a machine with a key of its own starts a new vault. -/
theorem password_key_is_restored :
    let c : Credentials := ⟨"example.org", "user", "password"⟩
    let entropy : Entropy := ⟨fun _ => 0, 0⟩
    let v := (Vault.empty (.localKey (.zero 32)) .standard).run [(.addKey c, entropy)]
    ∃ name k token, v.Reachable ∧ v.reference .default = some name ∧
      v.protector = .localKey (.zero 32) ∧ (v.exportToken .default entropy).result = .ok token ∧
      ((Vault.empty v.protector .standard).restart .default token).state.keys.entries
        = [(name, k)] := by
  intro c entropy v
  obtain ⟨derived, hderive⟩ :=
    exists_derive (c := c) (by decide) (show StretchCost.standard.fault? = none by decide)
  have hreachable : v.Reachable := ⟨_, _, _, rfl⟩
  have hsettings : v.settings = .standard := settings_run _ _
  have hchange := Operation.change_perform (.addKey c)
    (Vault.empty (.localKey (.zero 32)) .standard) entropy
  have hprotector : v.protector = .localKey (.zero 32) := hchange.protector
  have hkey : v.defaultKey? = some (v.nameOf derived, derived) := by
    rw [nameOf, hsettings]
    exact defaultKey?_addKey hderive
  obtain ⟨hname, hfind⟩ := defaultKey?_eq_some.1 hkey
  have hset : v.reference .default = some (v.nameOf derived) := hname
  obtain ⟨k, token, hheld, hok, hrestart, -⟩ :=
    token_restores_key hreachable hset (.inr ⟨_, hprotector⟩) entropy
  obtain rfl : derived = k := Option.some.inj (hfind.symm.trans hheld)
  have htag : Settings.standard.keyNameTag = v.settings.keyNameTag := by rw [hsettings]
  exact ⟨_, derived, token, hreachable, hset, hprotector, hok, (hrestart .standard htag).1⟩

end Vault

end KeyVault
