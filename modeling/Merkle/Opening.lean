import Merkle.Path

/-!
Openings, which show that a digest sits at an index under a root, and their bytes: a header with the
index and the depth, then the siblings.
-/

namespace Merkle

/-- The index of a leaf and the digests beside its way to the root. -/
structure Opening (D : Type) where
  /-- The index of the leaf. -/
  index : UInt64
  /-- The sibling digests, the leaf's own sibling first. -/
  path : List D
  deriving DecidableEq

namespace Opening

/-- The number of levels that the path crosses. -/
def depth (opening : Opening D) : Nat :=
  -- Every level contributes one sibling.
  opening.path.length

/-- The bytes of an opening: its index, its depth, and its siblings in order. -/
def format (H : Hasher D) (opening : Opening D) : Bytes :=
  -- An index takes eight bytes and a depth one, and digests are not delimited.
  Bytes.bigEndian 8 opening.index.toNat ++ UInt8.ofNat opening.depth ::
    opening.path.flatMap H.bytes

/-- Writes an opening whose index exists at its depth. -/
def encode (H : Hasher D) (opening : Opening D) : Except Error Bytes := do
  -- The index is checked first, so one that does not exist is never written.
  checkIndex opening.index opening.depth
  return opening.format H

/-- Reads a number of consecutive digests. -/
def decodePath (H : Hasher D) : (depth : Nat) → Bytes → Except Error (List D)
  | 0, _ => .ok []
  | depth + 1, bytes => do
    -- The first refused digest ends the reading.
    match H.ofBytes? (bytes.take H.width) with
    | none => .error (.malformedProof .digestBytes)
    | some digest => return digest :: (← decodePath H depth (bytes.drop H.width))

/-- Reads an opening from bytes that hold nothing else. -/
def decode (H : Hasher D) (bytes : Bytes) : Except Error (Opening D) :=
  match bytes.drop 8 with
  | [] => .error (.malformedProof (.headerLength bytes.length))
  | level :: siblings =>
    let index := UInt64.ofNat (Bytes.ofBigEndian (bytes.take 8))
    let depth := level.toNat
    let expected := headerLength + depth * H.width
    -- The depth is judged before the length, and the index before any digest.
    if maxDepth < depth then .error (.malformedProof (.openingDepth depth))
    else if bytes.length ≠ expected then
      .error (.malformedProof (.openingLength expected bytes.length))
    else do
      checkIndex index depth
      return { index, path := ← decodePath H depth siblings }

end Opening

end Merkle
