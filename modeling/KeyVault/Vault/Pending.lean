import KeyVault.Vault.Merge

/-!
# Pending data

A key bag that a vault cannot read yet is held until the user gives credentials that open it. Its
keys are merged then, and the key that it is encrypted under becomes the default key.

## Main definitions

- `Vault.setPendingKeys` — holds a bag that cannot be read
- `Vault.decryptPendingKeys` — tries credentials on it

## Design notes

Wrong credentials change nothing, so that the caller can try again. A bag without the key that it
is encrypted under has been merged when that is found out; the references stay as they were.
-/

namespace KeyVault

namespace Vault

/-- Holds a bag that cannot be read yet, in place of an earlier one. -/
def setPendingKeys (v : Vault) (e : Envelope) : Outcome Vault Unit :=
  if v.canDecrypt e then
    ⟨.error (.alreadyDecryptable e.keyName), v, [.pendingReadable e.keyName]⟩
  else
    ⟨.ok (), { v with pending := some e },
      if v.hasPending then [.pendingReplaced e.keyName] else []⟩

/-- Merges the pending bag once it is open, and makes the key named `name` the default key. -/
def adoptPending (v : Vault) (name : String) (bag : KeyBag) : Outcome Vault Unit :=
  let merged := v.merge bag
  -- The key may have been held before, so it is looked for in the vault and not in the bag.
  if merged.state.hasKey name then
    ⟨.ok (), { merged.state with defaultName := some name, pending := none }, merged.events⟩
  else
    ⟨.error (.internal (.ownKeyMissing name)), merged.state,
      merged.events ++ [.pendingOwnKeyMissing name]⟩

/-- Tries to open the pending bag with the key of credentials. -/
def decryptPendingKeys (v : Vault) (c : Credentials) : Outcome Vault Unit :=
  match v.pending with
  | none => ⟨.error .noPendingKeys, v, []⟩
  | some e =>
    match v.derive c with
    | .error error => ⟨.error (.crypto error), v, [.derivationFailed error]⟩
    | .ok k =>
      match k.decrypt e.blob with
      | .error error => ⟨.error .incorrectCredentials, v, [.pendingNotDecrypted error]⟩
      | .ok plain =>
        match (Json.decode plain : Except Json.Failure KeyBag) with
        | .error _ => ⟨.error (.internal .notABag), v, [.pendingNotABag]⟩
        | .ok bag => v.adoptPending e.keyName bag

end Vault

end KeyVault
