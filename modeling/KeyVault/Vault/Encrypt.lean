import KeyVault.Vault.Decrypt

/-!
# Encrypting

New data is encrypted under the default key. Data that is given back unchanged keeps its envelope,
so that nobody sees a change where there is none.

## Main definitions

- `Vault.encryptBytes` — the envelope of some bytes
- `Vault.encryptText`, `Vault.encrypt` — the envelope of a written message, and of a value
- `Vault.bag`, `Vault.getKeys` — all keys of the vault, and their envelope
-/

namespace KeyVault

namespace Vault

/-- What an earlier envelope under the default key says about new bytes: whether it holds the same
bytes, and what is reported. An envelope under another name says nothing. -/
def review (v : Vault) (k : Key) (plain : Bytes) (previous : Option Envelope) :
    Option Envelope × List Event :=
  match previous.filter v.canDecryptWithDefault with
  | none => (none, [])
  | some e =>
    match k.decrypt e.blob with
    | .ok held => if held = plain then (some e, [.alreadyEncrypted]) else (none, [])
    | .error error => (none, [.previousUnreadable error])

/-- The envelope of some bytes under the default key: the earlier one if it holds the same bytes,
and else a new one with the next bytes of the entropy as its nonce. -/
def encryptBytes (v : Vault) (plain : Bytes) (previous : Option Envelope) (entropy : Entropy) :
    Outcome Entropy Envelope :=
  match v.defaultKey? with
  | none => ⟨.error .notReady, entropy, [.notReady]⟩
  | some (name, k) =>
    match v.review k plain previous with
    | (some e, events) => ⟨.ok e, entropy, events⟩
    | (none, events) =>
      let (nonce, entropy) := entropy.draw 12
      ⟨.ok ⟨name, k.encrypt nonce plain⟩, entropy, events⟩

/-- The envelope of a message that has been written, or failed to be; the default key is looked for
first. -/
def encryptText (v : Vault) (text : Except Json.Failure Bytes) (previous : Option Envelope)
    (entropy : Entropy) : Outcome Entropy Envelope :=
  if v.isInitialized then
    match text with
    | .ok plain => v.encryptBytes plain previous entropy
    | .error failure => ⟨.error (.serialization failure), entropy, [.notSerialized]⟩
  else ⟨.error .notReady, entropy, [.notReady]⟩

/-- The envelope of the JSON form of a value. -/
def encrypt {α : Type} [Json.Codec α] (v : Vault) (value : α) (previous : Option Envelope)
    (entropy : Entropy) : Outcome Entropy Envelope :=
  v.encryptText (.ok (Json.encode value)) previous entropy

/-- All keys of the vault, in the order of their names. -/
def bag (v : Vault) : KeyBag := ⟨v.keys.entries.map fun (name, k) => ⟨name, k.components⟩⟩

/-- The envelope of all keys. -/
def getKeys (v : Vault) (entropy : Entropy) : Outcome Entropy Envelope :=
  v.encrypt v.bag none entropy

/-! ### Tokens -/

/-- The token of a key. -/
def tokenOf (v : Vault) (k : Key) (entropy : Entropy) : Outcome Entropy String :=
  match Token.write v.protector k entropy with
  | (.ok token, entropy) => ⟨.ok token, entropy, []⟩
  | (.error error, entropy) =>
    ⟨.error (.internal (.protection error)), entropy, [.tokenNotProtected error]⟩

/-- The token of the default key. -/
def bootstrapToken (v : Vault) (entropy : Entropy) : Outcome Entropy String :=
  match v.defaultKey? with
  | some (_, k) => v.tokenOf k entropy
  | none => ⟨.error .notReady, entropy, []⟩

/-- The token of the keystore key. -/
def keystoreToken (v : Vault) (entropy : Entropy) : Outcome Entropy String :=
  match v.keystoreKey? with
  | some (_, k) => v.tokenOf k entropy
  | none => ⟨.error .noKeystoreKey, entropy, []⟩

end Vault

end KeyVault
