import KeyVault.Vault

/-!
# Installing keys

Keys that come into a vault one by one: from credentials, from a token, or from the secret of a
server. An installed key takes its own name, in place of an earlier key of that name, and becomes
the default key or the keystore key.

## Main definitions

- `Vault.install` — holds a key and refers to it
- `Vault.addKey`, `Vault.setKeystoreKey` — from credentials and from a server's secret
- `Vault.bootstrap`, `Vault.bootstrapKeystoreKey`, `Vault.addKeyFromToken` — from a token
- `Vault.setDefaultKey` — refers to a key that is held already
-/

namespace KeyVault

/-- The two references to a key. -/
inductive Slot
  | default
  | keystore
  deriving DecidableEq

namespace Vault

/-- Lets a reference name a key. -/
def refer (v : Vault) (slot : Slot) (name : String) : Vault :=
  match slot with
  | .default => { v with defaultName := some name }
  | .keystore => { v with keystoreName := some name }

/-- Holds a key under its own name and refers to it. -/
def install (v : Vault) (slot : Slot) (k : Key) : Outcome Vault Unit where
  result := .ok ()
  state := { v with keys := v.keys.insert (v.nameOf k) k }.refer slot (v.nameOf k)
  events := [.installedKey (v.nameOf k)]

/-- Installs the key of credentials as the default key. -/
def addKey (v : Vault) (c : Credentials) : Outcome Vault Unit :=
  match v.derive c with
  | .ok k => v.install .default k
  | .error error => ⟨.error (.crypto error), v, [.derivationFailed error]⟩

/-- Installs the key of a server's secret as the keystore key. -/
def setKeystoreKey (v : Vault) (secret : String) : Outcome Vault Unit :=
  if secret = "" then ⟨.error .emptyKeystoreKey, v, []⟩
  else
    match v.derive ⟨v.settings.keystoreHostname, v.settings.keystoreUsername, secret⟩ with
    | .ok k => v.install .keystore k
    | .error error => ⟨.error (.crypto error), v, [.keystoreDerivationFailed error]⟩

/-- Installs the key of a token; a token without a key changes nothing. -/
def installFromToken (v : Vault) (slot : Slot) (token : String) : Outcome Vault Unit :=
  match Token.read v.protector token with
  | .ok k => v.install slot k
  | .error fault => ⟨.ok (), v, Event.ofTokenFault fault⟩

/-- Installs the key of a token as the default key, unless there is one. -/
def bootstrap (v : Vault) (token : String) : Outcome Vault Unit :=
  if v.isInitialized then ⟨.ok (), v, [.alreadyInitialized]⟩
  else v.installFromToken .default token

/-- Installs the key of a token as the keystore key, unless there is one. -/
def bootstrapKeystoreKey (v : Vault) (token : String) : Outcome Vault Unit :=
  if v.hasKeystoreKey then ⟨.ok (), v, [.keystoreKeyHeld]⟩
  else v.installFromToken .keystore token

/-- Installs the key of a token as the default key, whether or not there is one. -/
def addKeyFromToken (v : Vault) (token : String) : Outcome Vault Unit :=
  match Token.read v.protector token with
  | .ok k => v.install .default k
  | .error fault => ⟨.error .invalidToken, v, Event.ofTokenFault fault⟩

/-- Makes a key that is held the default key. -/
def setDefaultKey (v : Vault) (name : String) : Outcome Vault Unit :=
  if v.hasKey name then ⟨.ok (), v.refer .default name, []⟩
  else ⟨.error (.keyNotFound name), v, [.unknownDefault name]⟩

end Vault

end KeyVault
