import KeyVault.Cipher.Blob
import KeyVault.Hash.Hmac
import KeyVault.Text.Base64

/-!
# Keys

A symmetric key of three 32-byte components, its names, and encryption under it.

## Main definitions

- `Key` — the components: a user key that is only carried along, an encryption key, and a MAC key
- `KeyError` — why a key cannot be derived, rebuilt or used
- `Key.ofComponents` — a key rebuilt from byte strings
- `Key.name` — the opaque name that a key gives to a tag
- `Key.encrypt`, `Key.decrypt` — blobs bound to the MAC key

## Main statements

- `Key.decrypt_encrypt` — an encrypted message is read back
- `Key.ofComponents_eq_ok_iff` — a key is rebuilt exactly from its own components
-/

namespace KeyVault

/-- The bytes of a key component. -/
def componentSize : Nat := 32

/-- A symmetric key. -/
structure Key where
  /-- Carried along, so that a key can be exported and rebuilt without loss. -/
  user : Octets 32
  /-- Encrypts and decrypts. -/
  encryption : Octets 32
  /-- Names the key, and is bound into every ciphertext. -/
  mac : Octets 32
  deriving DecidableEq

/-- The raw components of a key as it is exchanged: byte strings of any length. -/
structure KeyMaterial where
  userKey : Bytes
  encryptionKey : Bytes
  macKey : Bytes
  deriving DecidableEq

/-- Why no key can be derived from credentials. -/
inductive DerivationFault
  | emptyPassword
  | littleMemory
  | noPasses
  | noLanes
  | manyLanes
  | longPassword
  deriving DecidableEq, Repr

/-- Why a key cannot be derived, rebuilt or used. -/
inductive KeyError
  | derivation (fault : DerivationFault)
  | decryption (fault : Blob.Fault)
  | componentLength (actual : Nat)
  deriving DecidableEq, Repr

namespace DerivationFault

def message : DerivationFault → String
  | emptyPassword => "password is empty"
  | littleMemory => "invalid argon2 params: memory cost is too small"
  | noPasses => "invalid argon2 params: time cost is too small"
  | noLanes => "invalid argon2 params: not enough threads"
  | manyLanes => "invalid argon2 params: too many threads"
  | longPassword => "argon2 failed: password is too long"

end DerivationFault

/-- The text of a component with the wrong length. -/
def lengthMessage (actual : Nat) : String :=
  "invalid key length: expected " ++ toString componentSize ++ ", got " ++ toString actual

namespace KeyError

def message : KeyError → String
  | derivation fault => "key derivation failed: " ++ fault.message
  | decryption (.short length) =>
    "decryption failed: blob too short: " ++ toString length ++ " bytes"
  | decryption .forged => "decryption failed: wrong key or tampered data"
  | componentLength actual => lengthMessage actual

end KeyError

namespace Key

/-! ### Components -/

/-- A key component, if the byte string has the right length. -/
def component (b : Bytes) : Except KeyError (Octets 32) :=
  match Octets.ofBytes? 32 b with
  | some c => .ok c
  | none => .error (.componentLength b.length)

/-- The key with the given components; the first one of a wrong length is reported. -/
def ofComponents (material : KeyMaterial) : Except KeyError Key := do
  let user ← component material.userKey
  let encryption ← component material.encryptionKey
  let mac ← component material.macKey
  return ⟨user, encryption, mac⟩

def components (k : Key) : KeyMaterial := ⟨k.user.bytes, k.encryption.bytes, k.mac.bytes⟩

theorem component_eq_ok_iff {b : Bytes} {c : Octets 32} : component b = .ok c ↔ b = c.bytes := by
  rw [component, ← Octets.ofBytes?_eq_some_iff]
  cases Octets.ofBytes? 32 b <;> simp

@[simp]
theorem component_bytes (c : Octets 32) : component c.bytes = .ok c :=
  component_eq_ok_iff.2 rfl

/-- Rebuilding a key from its components loses nothing. -/
@[simp]
theorem ofComponents_components (k : Key) : ofComponents k.components = .ok k := by
  simp [ofComponents, components, bind, Except.bind, pure, Except.pure]

/-- A key is rebuilt exactly from its own components. -/
theorem ofComponents_eq_ok_iff {m : KeyMaterial} {k : Key} :
    ofComponents m = .ok k ↔ m = k.components := by
  refine ⟨fun h => ?_, fun h => h ▸ ofComponents_components k⟩
  obtain ⟨u, e, a⟩ := m
  cases hu : component u with
  | error _ => simp [ofComponents, hu, bind, Except.bind] at h
  | ok user =>
    cases he : component e with
    | error _ => simp [ofComponents, hu, he, bind, Except.bind] at h
    | ok encryption =>
      cases ha : component a with
      | error _ => simp [ofComponents, hu, he, ha, bind, Except.bind] at h
      | ok mac =>
        obtain rfl : (⟨user, encryption, mac⟩ : Key) = k := by
          simpa [ofComponents, hu, he, ha, bind, Except.bind, pure, Except.pure] using h
        rw [component_eq_ok_iff] at hu he ha
        simp [components, hu, he, ha]

theorem components_injective {k held : Key} (h : k.components = held.components) : k = held := by
  have hk := ofComponents_components k
  rw [h, ofComponents_components] at hk
  exact (Except.ok.inj hk).symm

end Key

/-! ### Names -/

/-- What a name given by a key is used for. -/
inductive NameKind
  | password
  deriving DecidableEq, Repr

/-- The byte that keeps the names of one kind apart from those of another. -/
def NameKind.code : NameKind → UInt8
  | password => 1

namespace Key

/-- The opaque name that a key gives to a tag: the text of a keyed hash. -/
def name (k : Key) (kind : NameKind) (tag : String) : String :=
  Base64.encode (Hmac.tag k.mac.bytes (kind.code :: Bytes.ofString tag)).bytes

/-! ### Encryption -/

def encrypt (k : Key) (nonce : Octets 12) (message : Bytes) : Bytes :=
  Blob.encrypt k.encryption k.mac.bytes nonce message

def decrypt (k : Key) (blob : Bytes) : Except KeyError Bytes :=
  (Blob.decrypt k.encryption k.mac.bytes blob).mapError .decryption

/-- An encrypted message is read back. -/
@[simp]
theorem decrypt_encrypt (k : Key) (nonce : Octets 12) (message : Bytes) :
    k.decrypt (k.encrypt nonce message) = .ok message := by
  rw [decrypt, encrypt, Blob.decrypt_encrypt]
  rfl

end Key

end KeyVault
