import KeyVault.Vault

/-!
# Passing key nodes on

A vault passes the key node of an account on to its handler, as it is.

## Main definitions

- `Vault.setHandler` — the handler from now on
- `Vault.applyNode`, `Vault.updateNode`, `Vault.encryptedTypes` — what is passed on
-/

namespace KeyVault

namespace Vault

/-- Takes a handler, in place of an earlier one. -/
def setHandler (v : Vault) (handler : NodeHandler) : Outcome Vault Unit :=
  ⟨.ok (), { v with handler := some handler }, []⟩

/-- Passes a call on; `answer` is what the handler gives back. -/
def forward {α : Type} (v : Vault) (call : NodeCall) (answer : NodeHandler → α) :
    Outcome Vault α :=
  match v.handler with
  | some handler => ⟨.ok (answer handler), { v with forwarded := v.forwarded ++ [call] }, []⟩
  | none => ⟨.error .noNodeHandler, v, []⟩

/-- Passes on a node from the server. -/
def applyNode (v : Vault) (node : Node) : Outcome Vault Unit :=
  v.forward (.apply node) fun _ => ()

/-- Lets the handler write the encrypted types into a node. -/
def updateNode (v : Vault) (node : Node) : Outcome Vault Node :=
  v.forward (.update node) fun handler => handler.update node

/-- Asks the handler for the encrypted types. -/
def encryptedTypes (v : Vault) : Outcome Vault DataTypeSet :=
  v.forward .encryptedTypes fun handler => handler.encryptedTypes

end Vault

end KeyVault
