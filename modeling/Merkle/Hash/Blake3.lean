import Merkle.Hash.Rounds

/-! BLAKE3 in its plain hashing mode: chunks of 1024 bytes under a binary tree. -/

namespace Merkle.Hash.Blake3

/-- Eight words that carry the hash of one part of the input to the next. -/
abbrev Chain := Vector UInt32 8

/-- The chaining words before any input. -/
def initial : Chain :=
  -- These are the first halves of the words that BLAKE2b starts from.
  #v[0x6a09e667, 0xbb67ae85, 0x3c6ef372, 0xa54ff53a, 0x510e527f, 0x9b05688c, 0x1f83d9ab, 0x5be0cd19]

/-- The reordering of message words between rounds. -/
def permutation : List Nat :=
  -- Position by position, this is the number of the word that moves there.
  [2, 6, 3, 10, 7, 0, 4, 13, 1, 11, 12, 5, 9, 14, 15, 8]

/-- A word turned right by a number of bits between one and thirty-one. -/
def rotateRight (word count : UInt32) : UInt32 :=
  -- The bits that leave on the right come back on the left.
  (word >>> count) ||| (word <<< (32 - count))

/-- The rotations of the 32-bit mixing step. -/
def rotations : Rotations UInt32 :=
  -- A step turns by these amounts in this order.
  ⟨(rotateRight · 16), (rotateRight · 12), (rotateRight · 8), (rotateRight · 7)⟩

/-- The block is the first of its chunk. -/
def chunkStart : UInt32 := 1

/-- The block is the last of its chunk. -/
def chunkEnd : UInt32 := 2

/-- The block holds the chaining words of two subtrees. -/
def parent : UInt32 := 4

/-- The block is the last one of the whole hash. -/
def root : UInt32 := 8

/-- A block that is ready to be compressed. -/
structure Node where
  /-- The chaining words before the block. -/
  chain : Chain
  /-- The message words of the block. -/
  words : Vector UInt32 16
  /-- The number of the chunk, or zero above the chunks. -/
  counter : UInt64
  /-- The number of message bytes in the block. -/
  length : UInt32
  /-- What kind of block it is. -/
  flags : UInt32

namespace Node

/-- Rounds of mixing, with the message words reordered between them. -/
def rounds : Nat → Vector UInt32 16 → Vector UInt32 16 → Vector UInt32 16
  -- The words are reordered after each round, for the one that follows.
  | 0, _, state => state
  | count + 1, words, state =>
    rounds count (reorder permutation words) (round rotations words state)

/-- The chaining words after the block. -/
def compress (node : Node) : Chain :=
  -- The counter fills two words, low half first.
  let last := #v[node.counter.toUInt32, (node.counter >>> 32).toUInt32, node.length, node.flags]
  foldHalves (rounds 7 node.words (startState node.chain initial last))

/-- The node above two subtrees. -/
def above (left right : Node) : Node :=
  -- A parent holds no input, so it has no number, and its block is always full.
  { chain := initial, words := left.compress ++ right.compress, counter := 0, length := 64,
    flags := parent }

/-- The digest of the input whose last block the node is. -/
def digest (node : Node) : Vector UInt8 32 :=
  -- Only the root is compressed with the flag that ends the hash.
  let chain := { node with flags := node.flags ||| root }.compress
  Bytes.toVector 32 (wordBytes UInt32.toNat 4 chain)

end Node

/-- Follows the blocks of one chunk and leaves the last one uncompressed. -/
def chunkNode (counter : UInt64) (chain : Chain) (flags : UInt32) (block : Bytes) :
    List Bytes → Node
  | [] =>
    ⟨chain, blockWords UInt32.ofNat 4 block, counter, UInt32.ofNat block.length, flags ||| chunkEnd⟩
  | next :: rest =>
    -- Only the first block keeps the flag of a chunk's start.
    let node : Node := ⟨chain, blockWords UInt32.ofNat 4 block, counter, 64, flags⟩
    chunkNode counter node.compress 0 next rest

/-- The last node of the chunk with the given number. -/
def ofChunk (chunk : Bytes) (number : Nat) : Node :=
  -- A chunk starts from the initial words, whatever came in front of it.
  let (block, rest) := Bytes.cut 64 chunk
  chunkNode (UInt64.ofNat number) initial chunkStart block rest

/-- Joins neighbours in pairs; an odd last node moves up as it is. -/
def joinPairs : List Node → List Node
  -- A list of fewer than two nodes has nothing to join.
  | left :: right :: rest => left.above right :: joinPairs rest
  | nodes => nodes

/-- Joining never makes the list longer. -/
theorem length_joinPairs_le : ∀ nodes : List Node, (joinPairs nodes).length ≤ nodes.length
  | [] => by simp [joinPairs]
  | [_] => by simp [joinPairs]
  | _ :: _ :: rest => by
    -- Two nodes become one, and the rest does not grow by induction.
    have := length_joinPairs_le rest
    simp only [joinPairs, List.length_cons]
    omega

/-- The node on top of the tree over some chunks. -/
def top (first : Node) : List Node → Node
  | [] => first
  | second :: rest => top (first.above second) (joinPairs rest)
termination_by rest => rest.length
decreasing_by
  -- Joining the remaining nodes drops at least the one joined to the first.
  have := length_joinPairs_le rest
  simp only [List.length_cons]
  omega

/-- The digest of a byte string. -/
def hash (message : Bytes) : Vector UInt8 32 :=
  -- Chunks are numbered from zero, and even an empty message has one.
  let (chunk, chunks) := Bytes.cut 1024 message
  (top (ofChunk chunk 0) (chunks.mapIdx fun before chunk => ofChunk chunk (before + 1))).digest

end Merkle.Hash.Blake3
