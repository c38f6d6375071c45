import KeyVault.Hash.Sha256

/-!
# Keyed hashes and key expansion

The keyed hash HMAC with SHA-256 (RFC 2104), and the two steps of HKDF (RFC 5869): extraction of a
uniform key from a master secret, and expansion of that key into one 32-byte output per label.

## Main definitions

- `Hmac.tag` — the keyed hash of a message
- `Hkdf.extract`, `Hkdf.expand` — the two steps of key expansion
-/

namespace KeyVault

namespace Hmac

/-- The key brought to the 64 bytes of a hash piece: hashed if longer, then filled with zeros. -/
def pieceKey (key : Bytes) : Bytes :=
  let short := if key.length ≤ 64 then key else (Sha256.digest key).bytes
  short ++ List.replicate (64 - short.length) 0

/-- The keyed hash of a message. -/
def tag (key message : Bytes) : Octets 32 :=
  let inner := Sha256.digest ((pieceKey key).map (· ^^^ 0x36) ++ message)
  Sha256.digest ((pieceKey key).map (· ^^^ 0x5c) ++ inner.bytes)

end Hmac

namespace Hkdf

/-- The uniform key of a salt and a secret. -/
def extract (salt secret : Bytes) : Octets 32 := Hmac.tag salt secret

/-- The first 32 output bytes for a label: the keyed hash of the label and the counter byte one. -/
def expand (key : Octets 32) (label : Bytes) : Octets 32 := Hmac.tag key.bytes (label ++ [1])

end Hkdf

end KeyVault
