import KeyVault.Cipher.ChaCha20
import KeyVault.Cipher.Poly1305

/-!
# Encrypted blobs

Authenticated encryption with ChaCha20-Poly1305 (RFC 8439), and the blob in which an encrypted
message travels: nonce, ciphertext and authenticator one after the other.

## Main definitions

- `Blob.tag` — the authenticator of bound data and ciphertext
- `Blob.encrypt` — the blob of a message
- `Blob.decrypt` — the message of a blob, or why there is none

## Main statements

- `Blob.decrypt_encrypt` — an encrypted message is read back
- `Blob.length_encrypt` — a blob is 28 bytes longer than its message
-/

namespace KeyVault

namespace Blob

/-- The bytes of a nonce. -/
def nonceSize : Nat := 12

/-- The bytes of an authenticator. -/
def tagSize : Nat := 16

/-- The authenticator of bound data and ciphertext: both filled to whole pieces, then their
lengths, under the first half of keystream block zero. -/
def tag (key : Octets 32) (nonce : Octets 12) (bound cipher : Bytes) : Octets 16 :=
  let once := ChaCha20.block key 0 nonce
  let framed := bound ++ bound.fillTo 16 ++ cipher ++ cipher.fillTo 16
    ++ Bytes.littleEndian 8 bound.length ++ Bytes.littleEndian 8 cipher.length
  Poly1305.tag ⟨once.bytes.take 32, by simp⟩ framed

/-- The blob of a message under a key, with some bound data that is not part of it. -/
def encrypt (key : Octets 32) (bound : Bytes) (nonce : Octets 12) (message : Bytes) : Bytes :=
  let cipher := ChaCha20.crypt key nonce message
  nonce.bytes ++ cipher ++ (tag key nonce bound cipher).bytes

/-- Why a blob does not open. -/
inductive Fault
  /-- It has fewer bytes than a nonce and an authenticator. -/
  | short (length : Nat)
  /-- Its authenticator is not that of its ciphertext. -/
  | forged
  deriving DecidableEq, Repr

/-- The message of a blob. -/
def decrypt (key : Octets 32) (bound blob : Bytes) : Except Fault Bytes :=
  if h : blob.length < nonceSize + tagSize then .error (.short blob.length)
  else
    let nonce : Octets 12 := ⟨blob.take 12, by
      simp only [nonceSize, tagSize] at h
      rw [List.length_take]
      omega⟩
    let body := blob.drop 12
    let cipher := body.take (body.length - 16)
    if (tag key nonce bound cipher).bytes = body.drop (body.length - 16) then
      .ok (ChaCha20.crypt key nonce cipher)
    else .error .forged

@[simp]
theorem length_encrypt (key : Octets 32) (bound : Bytes) (nonce : Octets 12) (message : Bytes) :
    (encrypt key bound nonce message).length = message.length + 28 := by
  simp only [encrypt, List.length_append, Octets.length_bytes, ChaCha20.length_crypt]
  omega

/-- The nonce stands at the head of a blob. -/
@[simp]
theorem take_encrypt (key : Octets 32) (bound : Bytes) (nonce : Octets 12) (message : Bytes) :
    (encrypt key bound nonce message).take 12 = nonce.bytes := by
  rw [encrypt, List.append_assoc, List.take_left' nonce.length_bytes]

/-- Ciphertext and authenticator stand behind the nonce. -/
theorem drop_encrypt (key : Octets 32) (bound : Bytes) (nonce : Octets 12) (message : Bytes) :
    (encrypt key bound nonce message).drop 12 = ChaCha20.crypt key nonce message
      ++ (tag key nonce bound (ChaCha20.crypt key nonce message)).bytes := by
  rw [encrypt, List.append_assoc, List.drop_left' nonce.length_bytes]

/-- An encrypted message is read back. -/
@[simp]
theorem decrypt_encrypt (key : Octets 32) (bound : Bytes) (nonce : Octets 12) (message : Bytes) :
    decrypt key bound (encrypt key bound nonce message) = .ok message := by
  have hlen : ¬ (encrypt key bound nonce message).length < nonceSize + tagSize := by
    simp [nonceSize, tagSize]
  simp only [decrypt, dif_neg hlen, drop_encrypt, take_encrypt]
  simp

end Blob

end KeyVault
