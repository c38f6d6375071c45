import KeyVault.Bytes
import KeyVault.Square

/-!
# ChaCha20

The stream cipher ChaCha20 of RFC 8439: a key, a nonce and a block counter give 64 bytes of
keystream, and a message is combined with the keystream by exclusive or.

## Main definitions

- `ChaCha20.block` — one block of keystream
- `ChaCha20.crypt` — the message combined with the keystream from block one on

## Main statements

- `ChaCha20.length_crypt` — the result is as long as the message
- `ChaCha20.crypt_crypt` — the cipher undoes itself
-/

namespace KeyVault

namespace ChaCha20

/-- The sixteen state words. -/
abbrev State := Square UInt32

/-- Rotates a word to the left. -/
def rotateLeft (x n : UInt32) : UInt32 := (x <<< n) ||| (x >>> (32 - n))

/-- Mixes four state words. -/
def quarterRound (q : Quad UInt32) : Quad UInt32 :=
  let a := q.a + q.b
  let d := rotateLeft (q.d ^^^ a) 16
  let c := q.c + d
  let b := rotateLeft (q.b ^^^ c) 12
  let a := a + b
  let d := rotateLeft (d ^^^ a) 8
  let c := c + d
  let b := rotateLeft (b ^^^ c) 7
  ⟨a, b, c, d⟩

/-- Two rounds: the columns of the state, then its diagonals. -/
def doubleRound (s : State) : State := s.scramble fun _ => quarterRound

/-- The word at place `i` of a byte string of four-byte words. -/
def wordAt (b : Bytes) (i : Nat) : UInt32 :=
  (Bytes.ofLittleEndian ((b.drop (4 * i)).take 4)).toUInt32

/-- The state before the rounds: four constants, the key, the counter and the nonce. -/
def start (key : Octets 32) (counter : Nat) (nonce : Octets 12) : State :=
  let k := wordAt key.bytes
  let n := wordAt nonce.bytes
  -- The constants are the text `expand 32-byte k`.
  #v[0x61707865, 0x3320646e, 0x79622d32, 0x6b206574,
    k 0, k 1, k 2, k 3, k 4, k 5, k 6, k 7,
    counter.toUInt32, n 0, n 1, n 2]

/-- The bytes of a state. -/
def serialize (s : State) : Octets 64 where
  bytes := s.toList.flatMap fun w => Bytes.littleEndian 4 w.toNat
  length_bytes := by
    rw [Bytes.length_flatMap_of_length_eq (n := 4) (by simp), Vector.length_toList]

/-- One block of keystream: twenty rounds, added to the state they started from. -/
def block (key : Octets 32) (counter : Nat) (nonce : Octets 12) : Octets 64 :=
  let s := start key counter nonce
  let mixed := (List.range 10).foldl (fun v _ => doubleRound v) s
  serialize (Vector.zipWith (· + ·) s mixed)

/-- The first `count` blocks of keystream from block one on. -/
def keystream (key : Octets 32) (nonce : Octets 12) (count : Nat) : Bytes :=
  (List.range count).flatMap fun i => (block key (i + 1) nonce).bytes

@[simp]
theorem length_keystream (key : Octets 32) (nonce : Octets 12) (count : Nat) :
    (keystream key nonce count).length = 64 * count := by
  rw [keystream, Bytes.length_flatMap_of_length_eq fun i => (block key (i + 1) nonce).length_bytes,
    List.length_range]

/-- The message combined with the keystream. -/
def crypt (key : Octets 32) (nonce : Octets 12) (message : Bytes) : Bytes :=
  message.xor (keystream key nonce ((message.length + 63) / 64))

@[simp]
theorem length_crypt (key : Octets 32) (nonce : Octets 12) (message : Bytes) :
    (crypt key nonce message).length = message.length := by
  simp only [crypt, Bytes.xor, List.length_zipWith, length_keystream]
  omega

/-- The cipher undoes itself. -/
@[simp]
theorem crypt_crypt (key : Octets 32) (nonce : Octets 12) (message : Bytes) :
    crypt key nonce (crypt key nonce message) = message := by
  have h : message.length ≤ (keystream key nonce ((message.length + 63) / 64)).length := by
    rw [length_keystream]
    omega
  rw [crypt, length_crypt]
  exact Bytes.xor_xor h

end ChaCha20

end KeyVault
