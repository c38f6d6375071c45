import KeyVault.DataType
import KeyVault.Record.Envelope

/-!
# The key node

The record that the transaction layer of an account keeps for its keys. A vault passes it on without
looking into it.

## Main definitions

- `Node` — the sender's key bag, the encrypted types, and whether everything is encrypted
-/

namespace KeyVault

/-- The key node of an account. -/
structure Node where
  /-- The sender's key bag, encrypted under its default key. -/
  keyBag : Envelope
  /-- The types that are encrypted. -/
  encryptedTypes : DataTypeSet
  /-- Whether all types are encrypted, those to come included. -/
  encryptEverything : Bool
  deriving DecidableEq

namespace Node

/-- The node that nobody has written to yet. -/
def empty : Node := ⟨.empty, .empty, false⟩

instance : Json.Record Node where
  fields := [.required "encryption_keybag" Envelope, .required "encrypted_types" DataTypeSet,
    .required "encrypt_everything" Bool]
  toRow n := (n.keyBag, n.encryptedTypes, n.encryptEverything, ())
  ofRow := fun (keyBag, encryptedTypes, encryptEverything, _) =>
    ⟨keyBag, encryptedTypes, encryptEverything⟩
  ofRow_toRow _ := rfl

instance : Debug Node where
  debug n := Debug.fields "NigoriSpecifics"
    [("encryption_keybag", Debug.debug n.keyBag), ("encrypted_types", Debug.debug n.encryptedTypes),
      ("encrypt_everything", Debug.debug n.encryptEverything)]

end Node

end KeyVault
