import KeyVault.Json.Record
import KeyVault.Key.Derivation
import KeyVault.Text.Debug

/-!
# Credentials and settings

The JSON forms of what keys are derived from, and the settings of a vault.

## Main definitions

- `Settings` — stretching cost, tag of key names, and the account of the keystore key
- `Settings.standard` — the settings for which missing fields stand
-/

namespace KeyVault

/-- The settings of a vault. -/
structure Settings where
  /-- The cost of every key that is derived from credentials. All vaults of an account have to agree
  on it, or the same password gives them different keys. -/
  cost : StretchCost
  keyNameTag : String
  /-- The host name with which the keystore key is derived. -/
  keystoreHostname : String
  /-- The user name with which the keystore key is derived. -/
  keystoreUsername : String
  deriving DecidableEq

/-- The usual settings. -/
def Settings.standard : Settings where
  cost := .standard
  keyNameTag := "nigori-key"
  keystoreHostname := "localhost"
  keystoreUsername := "dummy"

/-! ### JSON forms -/

instance : Json.Record Credentials where
  fields := [.required "hostname" String, .required "username" String,
    .required "password" String]
  toRow c := (c.hostname, c.username, c.password, ())
  ofRow := fun (hostname, username, password, _) => ⟨hostname, username, password⟩
  ofRow_toRow _ := rfl

instance : Json.Record StretchCost where
  fields := [.required "memory_kib" UInt32, .required "iterations" UInt32,
    .required "parallelism" UInt32]
  toRow c := (c.memory, c.passes, c.lanes, ())
  ofRow := fun (memory, passes, lanes, _) => ⟨memory, passes, lanes⟩
  ofRow_toRow _ := rfl

instance : Json.Record Settings where
  fields := [.defaulted "kdf" Settings.standard.cost,
    .defaulted "key_name_tag" Settings.standard.keyNameTag,
    .defaulted "keystore_hostname" Settings.standard.keystoreHostname,
    .defaulted "keystore_username" Settings.standard.keystoreUsername]
  toRow s := (s.cost, s.keyNameTag, s.keystoreHostname, s.keystoreUsername, ())
  ofRow := fun (cost, keyNameTag, keystoreHostname, keystoreUsername, _) =>
    ⟨cost, keyNameTag, keystoreHostname, keystoreUsername⟩
  ofRow_toRow _ := rfl

/-! ### Debug texts -/

instance : Debug Credentials where
  debug c := Debug.fields "KeyParams"
    [("hostname", Debug.debug c.hostname), ("username", Debug.debug c.username),
      ("password", Debug.debug "<redacted>")]

instance : Debug StretchCost where
  debug c := Debug.fields "KdfParams"
    [("memory_kib", Debug.debug c.memory), ("iterations", Debug.debug c.passes),
      ("parallelism", Debug.debug c.lanes)]

instance : Debug Settings where
  debug s := Debug.fields "CryptographerConfig"
    [("kdf", Debug.debug s.cost), ("key_name_tag", Debug.debug s.keyNameTag),
      ("keystore_hostname", Debug.debug s.keystoreHostname),
      ("keystore_username", Debug.debug s.keystoreUsername)]

end KeyVault
