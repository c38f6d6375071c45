import KeyVault.Json.Record
import KeyVault.Text.Debug

/-!
# Envelopes

An encrypted blob with the name of the key that produced it, so that a receiver need not try all of
its keys.

## Main definitions

- `Envelope` — key name and blob, with its JSON form and debug text
-/

namespace KeyVault

/-- An encrypted blob with the name of its key. -/
structure Envelope where
  keyName : String
  blob : Bytes
  deriving DecidableEq

namespace Envelope

/-- The envelope that no key has written to yet. -/
def empty : Envelope := ⟨"", []⟩

/-- Whether name and blob are both empty. -/
def isEmpty (e : Envelope) : Bool := e.keyName == "" && e.blob.isEmpty

instance : Json.Record Envelope where
  fields := [.required "key_name" String, .required "blob" Bytes]
  toRow e := (e.keyName, e.blob, ())
  ofRow := fun (keyName, blob, _) => ⟨keyName, blob⟩
  ofRow_toRow _ := rfl

instance : Debug Envelope where
  debug e := Debug.fields "EncryptedData"
    [("key_name", Debug.debug e.keyName), ("blob", Debug.debug e.blob)]

end Envelope

end KeyVault
