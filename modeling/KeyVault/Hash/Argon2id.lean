import KeyVault.Hash.Blake2b

/-!
# Argon2id

The memory-hard hash Argon2id, version 0x13 of RFC 9106, without a secret key or associated data.

## Main definitions

- `Argon2id.Cost` — memory, passes and lanes
- `Argon2id.Block` — 1024 bytes of memory, as eight rows of sixteen words
- `Argon2id.fill` — the memory after all passes
- `Argon2id.digest` — the hash of a password and a salt

## Design notes

A block is a square of eight by eight word pairs: the permutation works on its rows, and on its
columns as the rows of the transposed square. Rows keep their words unboxed, which is what makes a
large memory affordable.

Each lane is cut into four slices. A slice refers to other lanes only where an earlier slice has
finished, so the lanes of one slice can be filled one after the other.
-/

namespace KeyVault

namespace Argon2id

/-- What a hash costs: memory in KiB, passes over it, and lanes. -/
structure Cost where
  memory : Nat
  passes : Nat
  lanes : Nat

/-! ### Blocks -/

/-- Sixteen words. -/
structure Row where
  w0 : UInt64
  w1 : UInt64
  w2 : UInt64
  w3 : UInt64
  w4 : UInt64
  w5 : UInt64
  w6 : UInt64
  w7 : UInt64
  w8 : UInt64
  w9 : UInt64
  w10 : UInt64
  w11 : UInt64
  w12 : UInt64
  w13 : UInt64
  w14 : UInt64
  w15 : UInt64
  deriving Inhabited

/-- The sum of two words and twice the product of their low halves. -/
@[inline]
def blend (x y : UInt64) : UInt64 := x + y + 2 * (x &&& 0xffffffff) * (y &&& 0xffffffff)

/-- Mixes four words. -/
@[inline]
def mix (q : Quad UInt64) : Quad UInt64 :=
  let a := blend q.a q.b
  let d := Blake2b.rotateRight (q.d ^^^ a) 32
  let c := blend q.c d
  let b := Blake2b.rotateRight (q.b ^^^ c) 24
  let a := blend a b
  let d := Blake2b.rotateRight (d ^^^ a) 16
  let c := blend c d
  let b := Blake2b.rotateRight (b ^^^ c) 63
  ⟨a, b, c, d⟩

/-- Mixes sixteen words, taken as a square of four by four: its columns, then its diagonals. -/
def Row.permute (r : Row) : Row :=
  let p0 := mix ⟨r.w0, r.w4, r.w8, r.w12⟩
  let p1 := mix ⟨r.w1, r.w5, r.w9, r.w13⟩
  let p2 := mix ⟨r.w2, r.w6, r.w10, r.w14⟩
  let p3 := mix ⟨r.w3, r.w7, r.w11, r.w15⟩
  let q0 := mix ⟨p0.a, p1.b, p2.c, p3.d⟩
  let q1 := mix ⟨p1.a, p2.b, p3.c, p0.d⟩
  let q2 := mix ⟨p2.a, p3.b, p0.c, p1.d⟩
  let q3 := mix ⟨p3.a, p0.b, p1.c, p2.d⟩
  ⟨q0.a, q1.a, q2.a, q3.a, q3.b, q0.b, q1.b, q2.b, q2.c, q3.c, q0.c, q1.c, q1.d, q2.d, q3.d, q0.d⟩

def Row.xor (r s : Row) : Row :=
  ⟨r.w0 ^^^ s.w0, r.w1 ^^^ s.w1, r.w2 ^^^ s.w2, r.w3 ^^^ s.w3,
    r.w4 ^^^ s.w4, r.w5 ^^^ s.w5, r.w6 ^^^ s.w6, r.w7 ^^^ s.w7,
    r.w8 ^^^ s.w8, r.w9 ^^^ s.w9, r.w10 ^^^ s.w10, r.w11 ^^^ s.w11,
    r.w12 ^^^ s.w12, r.w13 ^^^ s.w13, r.w14 ^^^ s.w14, r.w15 ^^^ s.w15⟩

def Row.words (r : Row) : List UInt64 :=
  [r.w0, r.w1, r.w2, r.w3, r.w4, r.w5, r.w6, r.w7,
    r.w8, r.w9, r.w10, r.w11, r.w12, r.w13, r.w14, r.w15]

/-- A row of the first sixteen words of a list, missing ones being zero. -/
def Row.ofWords (l : List UInt64) : Row :=
  let w (i : Nat) := l.getD i 0
  ⟨w 0, w 1, w 2, w 3, w 4, w 5, w 6, w 7, w 8, w 9, w 10, w 11, w 12, w 13, w 14, w 15⟩

/-- A block of memory: eight rows of eight word pairs. -/
structure Block where
  r0 : Row
  r1 : Row
  r2 : Row
  r3 : Row
  r4 : Row
  r5 : Row
  r6 : Row
  r7 : Row
  deriving Inhabited

namespace Block

def xor (x y : Block) : Block :=
  ⟨x.r0.xor y.r0, x.r1.xor y.r1, x.r2.xor y.r2, x.r3.xor y.r3,
    x.r4.xor y.r4, x.r5.xor y.r5, x.r6.xor y.r6, x.r7.xor y.r7⟩

def permuteRows (x : Block) : Block :=
  ⟨x.r0.permute, x.r1.permute, x.r2.permute, x.r3.permute,
    x.r4.permute, x.r5.permute, x.r6.permute, x.r7.permute⟩

/-- The column of the word pairs that `left` and `right` pick from each row. -/
@[inline]
def column (x : Block) (left right : Row → UInt64) : Row :=
  ⟨left x.r0, right x.r0, left x.r1, right x.r1, left x.r2, right x.r2, left x.r3, right x.r3,
    left x.r4, right x.r4, left x.r5, right x.r5, left x.r6, right x.r6, left x.r7, right x.r7⟩

/-- The block with rows and columns of word pairs exchanged. -/
def transpose (x : Block) : Block :=
  ⟨x.column Row.w0 Row.w1, x.column Row.w2 Row.w3, x.column Row.w4 Row.w5, x.column Row.w6 Row.w7,
    x.column Row.w8 Row.w9, x.column Row.w10 Row.w11, x.column Row.w12 Row.w13,
    x.column Row.w14 Row.w15⟩

/-- The compression of two blocks: their sum, permuted by rows and by columns, and added again. -/
def compress (x y : Block) : Block :=
  let sum := x.xor y
  sum.permuteRows.transpose.permuteRows.transpose.xor sum

def words (x : Block) : List UInt64 :=
  [x.r0, x.r1, x.r2, x.r3, x.r4, x.r5, x.r6, x.r7].flatMap Row.words

/-- A block of the first 128 words of a list, missing ones being zero. -/
def ofWords (l : List UInt64) : Block :=
  let r (i : Nat) := Row.ofWords (l.drop (16 * i))
  ⟨r 0, r 1, r 2, r 3, r 4, r 5, r 6, r 7⟩

def zero : Block := ofWords []

def bytes (x : Block) : Bytes := x.words.flatMap fun w => Bytes.littleEndian 8 w.toNat

def ofBytes (b : Bytes) : Block :=
  ofWords ((Bytes.chunks 8 b).map fun w => (Bytes.ofLittleEndian w).toUInt64)

end Block

/-! ### Hashes of any length -/

/-- The first 32 bytes of each of `count` links of a chain of 64-byte hashes, then a hash of
`last` bytes. -/
def chain (last : Nat) : (count : Nat) → Bytes → Bytes
  | 0, link => Blake2b.digest last link
  | count + 1, link =>
    let next := Blake2b.digest 64 link
    next.take 32 ++ chain last count next

/-- A hash of `size` bytes. -/
def longDigest (size : Nat) (message : Bytes) : Bytes :=
  let framed := Bytes.littleEndian 4 size ++ message
  if size ≤ 64 then Blake2b.digest size framed
  else
    let count := (size + 31) / 32 - 2
    chain (size - 32 * count) count framed

/-! ### Memory -/

/-- The shape of the memory: how many passes, lanes, and columns in a quarter of a lane. -/
structure Layout where
  passes : Nat
  lanes : Nat
  slice : Nat

namespace Layout

def columns (l : Layout) : Nat := 4 * l.slice

def blocks (l : Layout) : Nat := l.lanes * l.columns

/-- The layout for a cost: the memory is rounded down to whole slices. -/
def ofCost (cost : Cost) : Layout where
  passes := cost.passes
  lanes := cost.lanes
  slice := cost.memory / (4 * cost.lanes)

end Layout

/-- Where a slice is being filled. -/
structure Place where
  pass : Nat
  lane : Nat
  slice : Nat

/-- The pseudo-random words that address the slice at `p` when they do not depend on the memory:
the first half of the first pass. -/
def addresses (l : Layout) (p : Place) : Array UInt64 :=
  let block (i : Nat) : List UInt64 :=
    let input := Block.ofWords
      ([p.pass, p.lane, p.slice, l.blocks, l.passes, 2, i + 1].map Nat.toUInt64)
    (Block.zero.compress (Block.zero.compress input)).words
  ((List.range ((l.slice + 127) / 128)).flatMap block).toArray

/-- The index of the block that a pseudo-random word refers to, for the column `index` of the slice
at `p`: a lane from its high half, and a finished column of it from its low half, nearer columns
being likelier. -/
def reference (l : Layout) (p : Place) (index : Nat) (word : UInt64) : Nat :=
  let low := word.toNat % UInt32.size
  let high := word.toNat / UInt32.size
  let lane := if p.pass = 0 ∧ p.slice = 0 then p.lane else high % l.lanes
  let finished := if p.pass = 0 then p.slice * l.slice else 3 * l.slice
  -- A column never refers to the one just before it: that one enters its compression anyway.
  let area :=
    if lane = p.lane then finished + index - 1
    else if index = 0 then finished - 1
    else finished
  -- The square of a uniform number is more often small than large.
  let back := area * (low * low / UInt32.size) / UInt32.size
  let start := if p.pass = 0 then 0 else (p.slice + 1) % 4 * l.slice
  lane * l.columns + (start + (area - 1 - back)) % l.columns

/-- Fills the column `index` of the slice at `p`. -/
def fillColumn (l : Layout) (p : Place) (fixed : Option (Array UInt64)) (memory : Array Block)
    (index : Nat) : Array Block :=
  let column := p.slice * l.slice + index
  let here := p.lane * l.columns + column
  let before := p.lane * l.columns + (column + l.columns - 1) % l.columns
  let previous := memory.getD before Block.zero
  let word :=
    match fixed with
    | some words => words.getD index 0
    | none => previous.r0.w0
  let next := previous.compress (memory.getD (reference l p index word) Block.zero)
  -- Later passes add to what an earlier one has left instead of replacing it.
  let next := if p.pass = 0 then next else next.xor (memory.getD here Block.zero)
  memory.setIfInBounds here next

/-- Fills the slice at `p`; the first two columns of a lane come from the password. -/
def fillSlice (l : Layout) (memory : Array Block) (p : Place) : Array Block :=
  let first := if p.pass = 0 ∧ p.slice = 0 then 2 else 0
  let fixed := if p.pass = 0 ∧ p.slice < 2 then some (addresses l p) else none
  (List.range' first (l.slice - first)).foldl (fillColumn l p fixed) memory

/-- All slices in the order in which they are filled. -/
def places (l : Layout) : List Place :=
  (List.range l.passes).flatMap fun pass =>
    (List.range 4).flatMap fun slice =>
      (List.range l.lanes).map fun lane => ⟨pass, lane, slice⟩

/-- The memory before the first pass: two blocks of each lane are hashes of the seed. -/
def start (l : Layout) (seed : Bytes) : Array Block :=
  let opening (lane column : Nat) : Block :=
    Block.ofBytes (longDigest 1024
      (seed ++ Bytes.littleEndian 4 column ++ Bytes.littleEndian 4 lane))
  (List.range l.lanes).foldl
    (fun memory lane =>
      (memory.setIfInBounds (lane * l.columns) (opening lane 0)).setIfInBounds
        (lane * l.columns + 1) (opening lane 1))
    (Array.replicate l.blocks Block.zero)

/-- The memory after all passes. -/
def fill (l : Layout) (seed : Bytes) : Array Block := (places l).foldl (fillSlice l) (start l seed)

/-- The hash of all parameters of a digest of `size` bytes. -/
def seed (cost : Cost) (size : Nat) (password salt : Bytes) : Bytes :=
  let framed (b : Bytes) : Bytes := Bytes.littleEndian 4 b.length ++ b
  Blake2b.digest 64
    (([cost.lanes, size, cost.memory, cost.passes, 0x13, 2].flatMap (Bytes.littleEndian 4))
      ++ framed password ++ framed salt ++ framed [] ++ framed [])

/-- The most bytes that a password can have, since its length is written with four bytes. -/
def greatestPassword : Nat := 0xffffffff

/-- The hash of a password and a salt, `size` bytes long. -/
def digest (cost : Cost) (size : Nat) (password salt : Bytes) : Bytes :=
  let l := Layout.ofCost cost
  let memory := fill l (seed cost size password salt)
  let last (lane : Nat) : Block := memory.getD ((lane + 1) * l.columns - 1) Block.zero
  longDigest size (((List.range l.lanes).map last).foldl Block.xor Block.zero).bytes

end Argon2id

end KeyVault
