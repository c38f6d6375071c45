import KeyVault.Bytes

/-!
# Poly1305

The one-time authenticator Poly1305 of RFC 8439. Its arithmetic is that of natural numbers modulo
the prime `2 ^ 130 - 5`.

## Main definitions

- `Poly1305.tag` — the 16-byte authenticator of a message under a one-time key
-/

namespace KeyVault

namespace Poly1305

/-- The prime modulus `2 ^ 130 - 5`. -/
def modulus : Nat := 0x3fffffffffffffffffffffffffffffffb

/-- Clears the bits that a multiplier must not have. -/
def clamp (r : Nat) : Nat := r &&& 0x0ffffffc0ffffffc0ffffffc0fffffff

/-- One step: adds a piece of the message, marked by a one bit behind it, and multiplies. -/
def step (r total : Nat) (piece : Bytes) : Nat :=
  (total + Bytes.ofLittleEndian (piece ++ [1])) * r % modulus

/-- The authenticator of a message: the first half of the key multiplies, the second is added. -/
def tag (key : Octets 32) (message : Bytes) : Octets 16 :=
  let r := clamp (Bytes.ofLittleEndian (key.bytes.take 16))
  let s := Bytes.ofLittleEndian (key.bytes.drop 16)
  let total := (Bytes.chunks 16 message).foldl (step r) 0
  ⟨Bytes.littleEndian 16 (total + s), Bytes.length_littleEndian 16 (total + s)⟩

end Poly1305

end KeyVault
