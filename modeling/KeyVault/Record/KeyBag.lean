import KeyVault.Json.Record
import KeyVault.Key
import KeyVault.Text.Debug

/-!
# Exchanged keys

The records in which keys leave a vault: the components of one key, and bags of named keys.

## Main definitions

- `KeyEntry` — a named key of a bag
- `KeyBag` — the keys that one vault hands to another
- `KeyEntry.wipe`, `KeyMaterial.wipe`, `Key.wipe` — what is left after wiping

## Design notes

Components can have any length here; only `Key.ofComponents` checks them. Debug texts show names and
no components.
-/

namespace KeyVault

/-- A named key of a bag. -/
structure KeyEntry where
  name : String
  material : KeyMaterial
  deriving DecidableEq

/-- The keys that one vault hands to another. -/
structure KeyBag where
  keys : List KeyEntry
  deriving DecidableEq

/-! ### JSON forms -/

instance : Json.Record KeyMaterial where
  fields := [.required "user_key" Bytes, .required "encryption_key" Bytes,
    .required "mac_key" Bytes]
  toRow m := (m.userKey, m.encryptionKey, m.macKey, ())
  ofRow := fun (userKey, encryptionKey, macKey, _) => ⟨userKey, encryptionKey, macKey⟩
  ofRow_toRow _ := rfl

instance : Json.Record KeyEntry where
  fields := [.required "name" String, .required "user_key" Bytes,
    .required "encryption_key" Bytes, .required "mac_key" Bytes]
  toRow e := (e.name, e.material.userKey, e.material.encryptionKey, e.material.macKey, ())
  ofRow := fun (name, userKey, encryptionKey, macKey, _) =>
    ⟨name, ⟨userKey, encryptionKey, macKey⟩⟩
  ofRow_toRow _ := rfl

instance : Json.Record KeyBag where
  fields := [.required "keys" (List KeyEntry)]
  toRow b := (b.keys, ())
  ofRow := fun (keys, _) => ⟨keys⟩
  ofRow_toRow _ := rfl

/-! ### Debug texts -/

instance : Debug KeyMaterial where
  debug _ := Debug.openFields "BootstrapKey" []

instance : Debug KeyEntry where
  debug e := Debug.openFields "NigoriKey" [("name", Debug.debug e.name)]

instance : Debug KeyBag where
  debug b := Debug.fields "NigoriKeyBag" [("keys", Debug.debug b.keys)]

instance : Debug Key where
  debug _ := Debug.openFields "Nigori" []

/-! ### Wiping -/

def KeyMaterial.wipe (_ : KeyMaterial) : KeyMaterial := ⟨[], [], []⟩

def KeyEntry.wipe (e : KeyEntry) : KeyEntry := ⟨"", e.material.wipe⟩

def Key.wipe (_ : Key) : Key := ⟨.zero 32, .zero 32, .zero 32⟩

end KeyVault
