import Merkle.Hash.Rounds

/-! BLAKE2b without a key and with its full digest of 64 bytes. -/

namespace Merkle.Hash.Blake2b

/-- Eight words that carry the hash from block to block. -/
abbrev Chain := Vector UInt64 8

/-- The words that parameters are mixed into. -/
def initial : Chain :=
  -- These are the fractional parts of the square roots of the first eight primes.
  #v[0x6a09e667f3bcc908, 0xbb67ae8584caa73b, 0x3c6ef372fe94f82b, 0xa54ff53a5f1d36f1,
    0x510e527fade682d1, 0x9b05688c2b3e6c1f, 0x1f83d9abfb41bd6b, 0x5be0cd19137e2179]

/-- The parameters: a digest of 64 bytes, no key, and no tree. -/
def parameters : Chain :=
  -- The first word holds the digest length and the fan-out and depth of sequential hashing.
  #v[0x01010040, 0, 0, 0, 0, 0, 0, 0]

/-- The word orders of ten rounds. -/
def schedules : List (List Nat) :=
  -- Further rounds begin with the first of these orders again.
  [[0, 1, 2, 3, 4, 5, 6, 7, 8, 9, 10, 11, 12, 13, 14, 15],
    [14, 10, 4, 8, 9, 15, 13, 6, 1, 12, 0, 2, 11, 7, 5, 3],
    [11, 8, 12, 0, 5, 2, 15, 13, 10, 14, 3, 6, 7, 1, 9, 4],
    [7, 9, 3, 1, 13, 12, 11, 14, 2, 6, 5, 10, 4, 0, 15, 8],
    [9, 0, 5, 7, 2, 4, 10, 15, 14, 1, 11, 12, 6, 8, 3, 13],
    [2, 12, 6, 10, 0, 11, 8, 3, 4, 13, 7, 5, 15, 14, 1, 9],
    [12, 5, 1, 15, 14, 13, 4, 10, 0, 7, 6, 3, 9, 2, 8, 11],
    [13, 11, 7, 14, 12, 1, 3, 9, 5, 0, 15, 4, 8, 6, 2, 10],
    [6, 15, 14, 9, 11, 3, 0, 8, 12, 2, 13, 7, 1, 4, 10, 5],
    [10, 2, 8, 4, 7, 6, 1, 5, 15, 11, 9, 14, 3, 12, 13, 0]]

/-- A word turned right by a number of bits between one and sixty-three. -/
def rotateRight (word count : UInt64) : UInt64 :=
  -- The bits that leave on the right come back on the left.
  (word >>> count) ||| (word <<< (64 - count))

/-- The rotations of the 64-bit mixing step. -/
def rotations : Rotations UInt64 :=
  -- A step turns by these amounts in this order.
  ⟨(rotateRight · 32), (rotateRight · 24), (rotateRight · 16), (rotateRight · 63)⟩

/-- The chaining words after a block, given how many message bytes end with it. -/
def compress (chain : Chain) (block : Bytes) (total : Nat) (isLast : Bool) : Chain :=
  -- The byte count fills two words, and the last block inverts one more.
  let last := #v[initial[4] ^^^ UInt64.ofNat total,
    initial[5] ^^^ UInt64.ofNat (total / UInt64.size),
    if isLast then ~~~initial[6] else initial[6], initial[7]]
  let words := blockWords UInt64.ofNat 8 block
  -- Twelve rounds use the ten orders and then the first two again.
  let state := (schedules ++ schedules.take 2).foldl
    (fun state schedule => round rotations (reorder schedule words) state)
    (startState chain initial last)
  -- Both halves of the final state are folded onto the words before the block.
  chain.zipWith (fun before after => before ^^^ after) (foldHalves state)

/-- The chaining words after the given block and all blocks that follow it. -/
def absorb (chain : Chain) (before : Nat) (block : Bytes) : List Bytes → Chain
  -- Every block is counted with its bytes, and the last one is marked as such.
  | [] => compress chain block (before + block.length) true
  | next :: rest =>
    absorb (compress chain block (before + block.length) false) (before + block.length) next rest

/-- The digest of a byte string. -/
def hash (message : Bytes) : Vector UInt8 64 :=
  -- Even the empty message has one block, which is the last one.
  let start := initial.zipWith (fun word parameter => word ^^^ parameter) parameters
  let (block, rest) := Bytes.cut 128 message
  Bytes.toVector 64 (wordBytes UInt64.toNat 8 (absorb start 0 block rest))

end Merkle.Hash.Blake2b
