import KeyVault.Bytes
import KeyVault.Square

/-!
# BLAKE2b

The unkeyed hash BLAKE2b of RFC 7693 with an output of 1 to 64 bytes.

## Main definitions

- `Blake2b.compress` — what one 128-byte piece does to the eight chaining words
- `Blake2b.digest` — the hash of a byte string with a given output length
-/

namespace KeyVault

namespace Blake2b

/-- The eight chaining words before the parameters are mixed in. -/
def initial : Vector UInt64 8 := #v[
  0x6a09e667f3bcc908, 0xbb67ae8584caa73b, 0x3c6ef372fe94f82b, 0xa54ff53a5f1d36f1,
  0x510e527fade682d1, 0x9b05688c2b3e6c1f, 0x1f83d9abfb41bd6b, 0x5be0cd19137e2179]

/-- The places of the two message words that enter each round at each column and each diagonal. -/
def schedule : List (Vector (Nat × Nat) 8) := [
  #v[(0, 1), (2, 3), (4, 5), (6, 7), (8, 9), (10, 11), (12, 13), (14, 15)],
  #v[(14, 10), (4, 8), (9, 15), (13, 6), (1, 12), (0, 2), (11, 7), (5, 3)],
  #v[(11, 8), (12, 0), (5, 2), (15, 13), (10, 14), (3, 6), (7, 1), (9, 4)],
  #v[(7, 9), (3, 1), (13, 12), (11, 14), (2, 6), (5, 10), (4, 0), (15, 8)],
  #v[(9, 0), (5, 7), (2, 4), (10, 15), (14, 1), (11, 12), (6, 8), (3, 13)],
  #v[(2, 12), (6, 10), (0, 11), (8, 3), (4, 13), (7, 5), (15, 14), (1, 9)],
  #v[(12, 5), (1, 15), (14, 13), (4, 10), (0, 7), (6, 3), (9, 2), (8, 11)],
  #v[(13, 11), (7, 14), (12, 1), (3, 9), (5, 0), (15, 4), (8, 6), (2, 10)],
  #v[(6, 15), (14, 9), (11, 3), (0, 8), (12, 2), (13, 7), (1, 4), (10, 5)],
  #v[(10, 2), (8, 4), (7, 6), (1, 5), (15, 11), (9, 14), (3, 12), (13, 0)],
  #v[(0, 1), (2, 3), (4, 5), (6, 7), (8, 9), (10, 11), (12, 13), (14, 15)],
  #v[(14, 10), (4, 8), (9, 15), (13, 6), (1, 12), (0, 2), (11, 7), (5, 3)]]

/-- Rotates a word to the right. -/
@[inline]
def rotateRight (x n : UInt64) : UInt64 := (x >>> n) ||| (x <<< (64 - n))

/-- Mixes two message words into four words of the working square. -/
def mix (x y : UInt64) (q : Quad UInt64) : Quad UInt64 :=
  let a := q.a + q.b + x
  let d := rotateRight (q.d ^^^ a) 32
  let c := q.c + d
  let b := rotateRight (q.b ^^^ c) 24
  let a := a + b + y
  let d := rotateRight (d ^^^ a) 16
  let c := c + d
  let b := rotateRight (b ^^^ c) 63
  ⟨a, b, c, d⟩

/-- One round on the working square. -/
def round (m : Array UInt64) (v : Square UInt64) (places : Vector (Nat × Nat) 8) : Square UInt64 :=
  v.scramble fun i => mix (m.getD places[i].1 0) (m.getD places[i].2 0)

/-- The sixteen message words of a piece, whose missing bytes count as zeros. -/
def messageWords (piece : Bytes) : Array UInt64 :=
  let word (i : Nat) := (Bytes.ofLittleEndian ((piece.drop (8 * i)).take 8)).toUInt64
  ((List.range 16).map word).toArray

/-- The chaining words after one piece, `counter` being the number of bytes hashed with it. -/
def compress (h : Vector UInt64 8) (piece : Bytes) (counter : Nat) (last : Bool) :
    Vector UInt64 8 :=
  let start : Square UInt64 := (h ++ initial).cast rfl
  let start := start.set 12 (start[12] ^^^ counter.toUInt64)
  let start := start.set 13 (start[13] ^^^ (counter / UInt64.size).toUInt64)
  let start := if last then start.set 14 (~~~ start[14]) else start
  let v := schedule.foldl (round (messageWords piece)) start
  Vector.ofFn fun i => h[i] ^^^ v[i.val] ^^^ v[i.val + 8]

/-- Absorbs the pieces of a message, `done` bytes being absorbed already. -/
def absorb (h : Vector UInt64 8) (done : Nat) : (pieces : List Bytes) → Vector UInt64 8
  | [] => h
  | [piece] => compress h piece (done + piece.length) true
  | piece :: pieces =>
    let done := done + piece.length
    absorb (compress h piece done false) done pieces

/-- The hash of a byte string, `size` bytes long. -/
def digest (size : Nat) (message : Bytes) : Bytes :=
  let start := initial.set 0 (initial[0] ^^^ 0x01010000 ^^^ size.toUInt64)
  let pieces := if message = [] then [[]] else Bytes.chunks 128 message
  ((absorb start 0 pieces).toList.flatMap fun w => Bytes.littleEndian 8 w.toNat).take size

end Blake2b

end KeyVault
