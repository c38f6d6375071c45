import KeyVault.Protector
import KeyVault.Record.KeyBag

/-!
# Bootstrap tokens

One key as a text that outlives the process: the JSON form of its components, protected, in Base64.

## Main definitions

- `Token.write` — the token of a key
- `Token.read` — the key of a token
- `Token.Fault` — why a token has no key

## Design notes

A token comes back from storage and may be stale or damaged, so every fault is expected and told
apart.
-/

namespace KeyVault

namespace Token

/-- The bytes that a token protects. -/
def content (k : Key) : Bytes := Json.encode k.components

/-- The token of a key. -/
def write (p : Protector) (k : Key) (e : Entropy) : Except ProtectorError String × Entropy :=
  let (stored, e) := p.protect (content k) e
  (stored.map Base64.encode, e)

/-- Why a token has no key. -/
inductive Fault
  | absent
  | encoding
  | protection (error : ProtectorError)
  | record (failure : Json.Failure)
  | material (error : KeyError)
  deriving DecidableEq, Repr

/-- The key of a token. -/
def read (p : Protector) (token : String) : Except Fault Key := do
  if token = "" then .error .absent
  else
    match Base64.decode? token with
    | none => .error .encoding
    | some stored =>
      let plain ← (p.reveal stored).mapError .protection
      let material ← (Json.decode plain : Except Json.Failure KeyMaterial).mapError .record
      (Key.ofComponents material).mapError .material

end Token

end KeyVault
