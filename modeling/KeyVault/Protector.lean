import KeyVault.Entropy
import KeyVault.Key

/-!
# Protectors

How a machine protects byte strings that it stores: bootstrap tokens go through a protector.

## Main definitions

- `Protector` — no protection, encryption under a key of the machine, or what the platform does
- `Protector.protect`, `Protector.reveal` — the two directions
- `Protector.Reliable` — what is protected can be revealed
- `ProtectorError` — why one of them fails

## Main statements

- `Protector.reliable_passthrough`, `Protector.reliable_localKey` — the protectors of the library
  are reliable
-/

namespace KeyVault

/-- Why a protector fails. -/
inductive ProtectorError
  /-- The protected bytes are fewer than a nonce and an authenticator. -/
  | short (length : Nat)
  /-- The protected bytes come from another protector. -/
  | foreign
  /-- The authenticator of the protected bytes is wrong. -/
  | forged
  /-- The place where the machine keeps its key cannot be reached. -/
  | unavailable
  deriving DecidableEq, Repr

/-- The text of an error. -/
def ProtectorError.message : ProtectorError → String
  | short length =>
    "malformed ciphertext: " ++ toString length ++ " bytes is shorter than nonce and tag"
  | foreign => "malformed ciphertext: not ours"
  | forged => "crypto error: wrong local key or tampered data"
  | unavailable => "crypto error: keychain unavailable"

/-- How a machine protects byte strings that it stores. -/
inductive Protector
  /-- Leaves them as they are. -/
  | passthrough
  /-- Encrypts them under a key of the machine. -/
  | localKey (key : Octets 32)
  /-- Leaves both directions to the platform, whatever it does. -/
  | platform (protect reveal : Bytes → Except ProtectorError Bytes)

namespace Protector

/-- The protector of a platform that fails in both directions. -/
def broken (error : ProtectorError) : Protector :=
  platform (fun _ => .error error) (fun _ => .error error)

/-- The protector with a key of the machine, which must have the length of a component. -/
def ofKey (key : Bytes) : Except KeyError Protector := return localKey (← Key.component key)

/-- The protector with a fresh key. -/
def generate (e : Entropy) : Octets 32 × Entropy := e.draw 32

/-- The protected form of some bytes. -/
def protect (p : Protector) (plain : Bytes) (e : Entropy) :
    Except ProtectorError Bytes × Entropy :=
  match p with
  | passthrough => (.ok plain, e)
  | localKey key =>
    let (nonce, e) := e.draw 12
    (.ok (Blob.encrypt key [] nonce plain), e)
  | platform protect _ => (protect plain, e)

/-- The error of a protector for a blob that does not open. -/
def errorOf : Blob.Fault → ProtectorError
  | .short length => .short length
  | .forged => .forged

/-- The bytes of a protected form. -/
def reveal (p : Protector) (stored : Bytes) : Except ProtectorError Bytes :=
  match p with
  | passthrough => .ok stored
  | localKey key => (Blob.decrypt key [] stored).mapError errorOf
  | platform _ reveal => reveal stored

/-- Whatever is protected is there, and is revealed again. -/
def Reliable (p : Protector) : Prop :=
  ∀ plain e, ∃ stored, (p.protect plain e).1 = .ok stored ∧ p.reveal stored = .ok plain

theorem reliable_passthrough : passthrough.Reliable := fun plain _ => ⟨plain, rfl, rfl⟩

theorem reliable_localKey (key : Octets 32) : (localKey key).Reliable := by
  intro plain e
  refine ⟨Blob.encrypt key [] (e.draw 12).1 plain, rfl, ?_⟩
  rw [reveal, Blob.decrypt_encrypt]
  rfl

end Protector

end KeyVault
