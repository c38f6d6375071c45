import KeyVault.Vault.Encrypt
import KeyVault.Vault.Install
import KeyVault.Vault.Node
import KeyVault.Vault.Pending

/-!
# Operations

Everything that can be asked of a vault, as data, so that runs of operations can be spoken of.

## Main definitions

- `Operation` — what is asked, with its arguments
- `Answer` — what is given back
- `Operation.perform` — the outcome of an operation on a vault that draws from some entropy
-/

namespace KeyVault

/-- What is asked of a vault. -/
inductive Operation
  | addKey (credentials : Credentials)
  | setKeystoreKey (secret : String)
  | bootstrap (token : String)
  | bootstrapKeystoreKey (token : String)
  | addKeyFromToken (token : String)
  | setDefaultKey (name : String)
  | installKeys (envelope : Envelope)
  | setPendingKeys (envelope : Envelope)
  | decryptPendingKeys (credentials : Credentials)
  | encryptText (text : Except Json.Failure Bytes) (previous : Option Envelope)
  | encryptBytes (plain : Bytes) (previous : Option Envelope)
  | decryptBytes (envelope : Envelope)
  | getKeys
  | bootstrapToken
  | keystoreToken
  | setHandler (handler : NodeHandler)
  | applyNode (node : Node)
  | updateNode (node : Node)
  | encryptedTypes

/-- What a vault gives back. -/
inductive Answer
  | done
  | count (n : Nat)
  | envelope (e : Envelope)
  | bytes (b : Bytes)
  | token (t : String)
  | node (n : Node)
  | types (t : DataTypeSet)

namespace Outcome

variable {σ τ α β : Type}

/-- An outcome seen from a larger state, with its result as an answer. -/
def embed (o : Outcome σ α) (state : σ → τ) (answer : α → β) : Outcome τ β :=
  ⟨o.result.map answer, state o.state, o.events⟩

end Outcome

namespace Operation

/-- The outcome of an operation on a vault that draws from some entropy. -/
def perform (op : Operation) (v : Vault) (entropy : Entropy) : Outcome (Vault × Entropy) Answer :=
  let keep (e : Entropy) : Vault × Entropy := (v, e)
  let move (next : Vault) : Vault × Entropy := (next, entropy)
  let stay (_ : Unit) : Vault × Entropy := (v, entropy)
  let done (_ : Unit) : Answer := .done
  match op with
  | addKey credentials => (v.addKey credentials).embed move done
  | setKeystoreKey secret => (v.setKeystoreKey secret).embed move done
  | bootstrap token => (v.bootstrap token).embed move done
  | bootstrapKeystoreKey token => (v.bootstrapKeystoreKey token).embed move done
  | addKeyFromToken token => (v.addKeyFromToken token).embed move done
  | setDefaultKey name => (v.setDefaultKey name).embed move done
  | installKeys envelope => (v.installKeys envelope).embed move .count
  | setPendingKeys envelope => (v.setPendingKeys envelope).embed move done
  | decryptPendingKeys credentials => (v.decryptPendingKeys credentials).embed move done
  | encryptText text previous => (v.encryptText text previous entropy).embed keep .envelope
  | encryptBytes plain previous => (v.encryptBytes plain previous entropy).embed keep .envelope
  | decryptBytes envelope => (v.decryptBytes envelope).embed stay .bytes
  | getKeys => (v.getKeys entropy).embed keep .envelope
  | bootstrapToken => (v.bootstrapToken entropy).embed keep .token
  | keystoreToken => (v.keystoreToken entropy).embed keep .token
  | setHandler handler => (v.setHandler handler).embed move done
  | applyNode node => (v.applyNode node).embed move done
  | updateNode node => (v.updateNode node).embed move .node
  | encryptedTypes => v.encryptedTypes.embed move .types

end Operation

end KeyVault
