import KeyVault.NameMap
import KeyVault.Record.Node
import KeyVault.Record.Settings
import KeyVault.Vault.Outcome

/-!
# Vaults

A vault holds every key that a client knows, each under a name, and refers to some of them: the
default key encrypts all new data, the keystore key comes from a server, and pending data is a key
bag that cannot be read yet.

## Main definitions

- `Vault` — the state
- `Vault.empty` — the vault without keys
- `Vault.find?`, `Vault.defaultKey?`, `Vault.keystoreKey?` — keys by name and by reference
- `NodeHandler`, `NodeCall` — the layer to which a vault passes key nodes on
-/

namespace KeyVault

/-- The layer that owns the key node of an account. What it answers does not depend on what has been
passed on to it. -/
structure NodeHandler where
  encryptedTypes : DataTypeSet
  update : Node → Node

/-- What a vault has passed on. -/
inductive NodeCall
  | apply (node : Node)
  | update (node : Node)
  | encryptedTypes

/-- The keys of a client. -/
structure Vault where
  settings : Settings
  protector : Protector
  keys : NameMap Key
  /-- The name of the key that encrypts new data. -/
  defaultName : Option String
  /-- The name of the key that comes from a server. -/
  keystoreName : Option String
  /-- A key bag that cannot be read yet. -/
  pending : Option Envelope
  handler : Option NodeHandler
  /-- What has been passed on to handlers, in order. -/
  forwarded : List NodeCall

namespace Vault

/-- The vault without keys. -/
def empty (protector : Protector) (settings : Settings) : Vault where
  settings := settings
  protector := protector
  keys := .empty
  defaultName := none
  keystoreName := none
  pending := none
  handler := none
  forwarded := []

/-! ### Queries -/

def isInitialized (v : Vault) : Bool := v.defaultName.isSome

def hasPending (v : Vault) : Bool := v.pending.isSome

def hasKeystoreKey (v : Vault) : Bool := v.keystoreName.isSome

def isReady (v : Vault) : Bool := v.isInitialized && !v.hasPending

def find? (v : Vault) (name : String) : Option Key := v.keys.find? name

def hasKey (v : Vault) (name : String) : Bool := v.keys.contains name

def keyCount (v : Vault) : Nat := v.keys.size

/-- Whether the key of an envelope is held. -/
def canDecrypt (v : Vault) (e : Envelope) : Bool := v.hasKey e.keyName

/-- Whether an envelope names the default key. -/
def canDecryptWithDefault (v : Vault) (e : Envelope) : Bool := v.defaultName == some e.keyName

/-- The key of a reference, with its name. -/
def referred? (v : Vault) (reference : Option String) : Option (String × Key) := do
  let name ← reference
  let key ← v.find? name
  return (name, key)

def defaultKey? (v : Vault) : Option (String × Key) := v.referred? v.defaultName

def keystoreKey? (v : Vault) : Option (String × Key) := v.referred? v.keystoreName

/-- The name that a key gets in the vault. -/
def nameOf (v : Vault) (k : Key) : String := k.name .password v.settings.keyNameTag

/-- The key of credentials at the cost of the vault. -/
def derive (v : Vault) (c : Credentials) : Except KeyError Key := Key.derive v.settings.cost c

instance : Debug Vault where
  debug v := Debug.openFields "Cryptographer"
    [("keys", Debug.debug v.keys.names), ("default_key_name", Debug.debug v.defaultName),
      ("keystore_key_name", Debug.debug v.keystoreName),
      ("has_pending_keys", Debug.debug v.hasPending),
      ("has_nigori_handler", Debug.debug v.handler.isSome)]

end Vault

end KeyVault
