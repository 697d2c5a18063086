import Merkle.Opening
import Merkle.Path
import Merkle.Report

/-! Commitment trees as slots of digests, and their opening at a leaf. -/

namespace Merkle

/--
A binary tree of digests over the slots of its leaves.

Slot one is the root, slot `k` has the children `2 * k` and `2 * k + 1`, and the leaf slots begin
at the capacity.
-/
structure Tree {D : Type} (H : Hasher D) where
  /-- The number of leaves that were committed to. -/
  leafCount : Nat
  /-- The number of leaf slots. -/
  capacity : Nat
  /-- The digests of all slots, after one that is never used. -/
  nodes : Array D
  deriving DecidableEq

namespace Tree

variable {H : Hasher D}

/-- The digest in a slot. -/
def node (tree : Tree H) (slot : Nat) : D :=
  -- A slot outside the tree is read as an unused one.
  tree.nodes.getD slot H.zero

/-- The digest that commits to all leaves. -/
def root (tree : Tree H) : D :=
  -- Slot one is the root, since halving a slot number leads to its parent.
  tree.node 1

/-- The number of levels below the root. -/
def depth (tree : Tree H) : Nat :=
  -- The capacity is a power of two, so the logarithm is exact.
  tree.capacity.log2

/-- The digests of the leaves in order. -/
def leafDigests (tree : Tree H) : List D :=
  -- Leaf slots start at the capacity, and the unused ones follow those of the leaves.
  (tree.nodes.toList.drop tree.capacity).take tree.leafCount

/-- The digest of one leaf. -/
def leafDigest? (tree : Tree H) (index : Nat) : Option D :=
  -- An unused slot has a digest, but not that of a leaf.
  tree.leafDigests[index]?

/-- The digests in the two slots below a slot, left one first. -/
def children (tree : Tree H) (slot : Nat) : D × D :=
  -- Doubling a slot number leads one level down.
  (tree.node (2 * slot), tree.node (2 * slot + 1))

/-- The digests beside the way from a leaf slot to the root. -/
def siblingPath (tree : Tree H) (index : Nat) : List D :=
  -- The way starts in the leaf slot of the index, whether or not a leaf is there.
  (siblingSlots (tree.capacity + index)).map tree.node

/-- Opens a tree at the index of a leaf, which an unused slot is not. -/
def openAt (tree : Tree H) (index : Nat) : Report (Opening D) :=
  -- An opening takes no hashing, since all digests are in the tree.
  if index < tree.leafCount then
    { value := .ok { index := UInt64.ofNat index, path := tree.siblingPath index }
      cost := {}
      events := [.opened index tree.depth] }
  else .failure (.indexOutOfRange index tree.leafCount) {}

end Tree

end Merkle
