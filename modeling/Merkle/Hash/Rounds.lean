import Merkle.Bytes

/-! The mixing rounds, the message words and the final bytes of BLAKE2b and BLAKE3. -/

namespace Merkle.Hash

/-- The four rotations of a mixing step, in the order of their use. -/
structure Rotations (W : Type) where
  /-- The rotation after the first addition. -/
  first : W → W
  /-- The rotation after the second addition. -/
  second : W → W
  /-- The rotation after the third addition. -/
  third : W → W
  /-- The rotation after the fourth addition. -/
  fourth : W → W

/-- Mixes two message words into four words of the state. -/
@[specialize] def mix [Add W] [XorOp W] (turn : Rotations W) (state : Vector W 16)
    (a b c d : Fin 16) (x y : W) : Vector W 16 :=
  -- Each half adds one message word and turns two words of the state.
  let state := state.set a (state[a] + state[b] + x)
  let state := state.set d (turn.first (state[d] ^^^ state[a]))
  let state := state.set c (state[c] + state[d])
  let state := state.set b (turn.second (state[b] ^^^ state[c]))
  let state := state.set a (state[a] + state[b] + y)
  let state := state.set d (turn.third (state[d] ^^^ state[a]))
  let state := state.set c (state[c] + state[d])
  state.set b (turn.fourth (state[b] ^^^ state[c]))

/-- One round: the message words are mixed into the columns, then into the diagonals. -/
@[specialize] def round [Add W] [XorOp W] (turn : Rotations W) (words : Vector W 16)
    (state : Vector W 16) : Vector W 16 :=
  -- The four columns of the state, read as a square of four rows.
  let state := mix turn state 0 4 8 12 words[0] words[1]
  let state := mix turn state 1 5 9 13 words[2] words[3]
  let state := mix turn state 2 6 10 14 words[4] words[5]
  let state := mix turn state 3 7 11 15 words[6] words[7]
  -- The four diagonals of the same square.
  let state := mix turn state 0 5 10 15 words[8] words[9]
  let state := mix turn state 1 6 11 12 words[10] words[11]
  let state := mix turn state 2 7 8 13 words[12] words[13]
  mix turn state 3 4 9 14 words[14] words[15]

/-- The message words in the order that a schedule names. -/
def reorder (schedule : List Nat) (words : Vector W 16) : Vector W 16 :=
  -- A schedule holds each of the sixteen positions once.
  let schedule := schedule.toArray
  Vector.ofFn fun position => words.toArray.getD (schedule.getD position.val 0) words[0]

/-- Sixteen little-endian words of a block, with zero bytes after its end. -/
def blockWords (ofNat : Nat → W) (width : Nat) (block : Bytes) : Vector W 16 :=
  -- The block is read once, as the list of its word-sized pieces.
  let pieces := (Bytes.blocks width 16 block).toArray
  Vector.ofFn fun position => ofNat (Bytes.ofLittleEndian (pieces.getD position.val []))

/-- The state before the first round: the chaining words, four constants, and four more words. -/
def startState (chain constants : Vector W 8) (last : Vector W 4) : Vector W 16 :=
  -- The first half of the constants comes in front of the words that differ by block.
  chain ++ (#v[constants[0], constants[1], constants[2], constants[3]] ++ last)

/-- The two halves of a state, folded onto each other. -/
def foldHalves [XorOp W] (state : Vector W 16) : Vector W 8 :=
  -- Words of equal place are combined by exclusive or.
  Vector.ofFn fun position => state[position.val] ^^^ state[position.val + 8]

/-- The bytes of some words, each least significant byte first. -/
def wordBytes (toNat : W → Nat) (width : Nat) (words : Vector W 8) : Bytes :=
  -- The width is the number of bytes that one word takes.
  words.toList.flatMap fun word => Bytes.littleEndian width (toNat word)

end Merkle.Hash
