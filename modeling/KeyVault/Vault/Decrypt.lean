import KeyVault.Vault

/-!
# Decrypting

Envelopes name the key that they are encrypted under; a vault decrypts with the key that it holds
under that name.

## Main definitions

- `Vault.decryptBytes` — the bytes of an envelope
- `Vault.decrypt` — the value whose JSON form they are
-/

namespace KeyVault

namespace Vault

/-- The bytes of an envelope. -/
def decryptBytes (v : Vault) (e : Envelope) : Outcome Unit Bytes :=
  match v.find? e.keyName with
  | some k => ⟨(k.decrypt e.blob).mapError .crypto, (), []⟩
  | none => ⟨.error (.keyNotFound e.keyName), (), [.unknownKey e.keyName]⟩

/-- The value whose JSON form the bytes of an envelope are. -/
def decrypt {α : Type} [Json.Codec α] (v : Vault) (e : Envelope) : Outcome Unit α :=
  let opened := v.decryptBytes e
  { opened with
    result := do
      let plain ← opened.result
      (Json.decode plain).mapError .serialization }

end Vault

end KeyVault
