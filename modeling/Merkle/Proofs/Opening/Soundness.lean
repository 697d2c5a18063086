import Merkle.Proofs.Opening.Completeness
import Merkle.Proofs.Path.Binding

/-! A path of the tree's depth that is accepted under the root is the tree's own, or collides. -/

namespace Merkle

variable {H : Hasher D}

/-- A path of the tree's depth merges the same pairs from an index as from its leaf slot. -/
theorem Tree.Perfect.climbPairs_slot {tree : Tree H} (perfect : tree.Perfect) (digest : D)
    (index : Nat) {path : List D} (length : path.length = tree.depth) :
    climbPairs H digest (tree.capacity + index) path = climbPairs H digest index path := by
  -- The slot of the leaf has one more digit in front, which the path does not reach.
  rw [perfect.capacity_eq, ← length, climbPairs_levelWidth_add]

/--
A path from an index merges other digests than the tree holds below some ancestor of the leaf slot,
and obtains the same merge.
-/
def Tree.PathCollision (tree : Tree H) (digest : D) (index : Nat) (path : List D) : Prop :=
  -- The slot that many levels above the leaf is where both pairs are merged.
  ∃ level pair, level < tree.depth ∧ (climbPairs H digest index path)[level]? = some pair ∧
    let below := tree.children ((tree.capacity + index) >>> (level + 1))
    below ≠ pair ∧ H.merge below.1 below.2 = H.merge pair.1 pair.2

/-- A path of the tree's depth that leads to the root starts at a leaf slot's digest and is the
path beside that slot, unless it collides with the tree. -/
theorem Tree.Perfect.climb_eq_root_binding {tree : Tree H} (perfect : tree.Perfect) {digest : D}
    {index : Nat} (inside : index < tree.capacity) {path : List D}
    (length : path.length = tree.depth) (reaches : climb H digest index path = tree.root) :
    (digest = tree.node (tree.capacity + index) ∧ path = tree.siblingPath index) ∨
      tree.PathCollision digest index path := by
  -- The path is followed from the leaf slot, where the slots of the tree lie beside it.
  rw [← perfect.climb_slot digest index (Nat.le_of_eq length)] at reaches
  rcases climb_root_binding perfect.merged (by omega) (by omega)
    (length.trans (perfect.log2_slot inside).symm) reaches with agree | collide
  · exact .inl agree
  · -- A collision is one of the path from the index, which merges the same pairs.
    obtain ⟨level, pair, crossed, found, differ, same⟩ := collide
    rw [perfect.climbPairs_slot digest index length] at found
    rw [perfect.log2_slot inside] at crossed
    exact .inr ⟨level, pair, crossed, found, differ, same⟩

/--
Whatever is accepted at the tree's depth is what the tree holds, or the hasher merges a collision.

A slot that no leaf uses proves nothing but the zero digest.
-/
theorem accepted_digest_binding [DecidableEq D] {tree : Tree H} (constructed : tree.Constructed)
    {index : UInt64} {path : List D} {digest : D} (length : path.length = tree.depth)
    (accepted : (verifyDigest H tree.root index path digest).value = .ok true) :
    index.toNat < tree.capacity ∧
      ((digest = tree.node (tree.capacity + index.toNat) ∧
          path = tree.siblingPath index.toNat ∧
          (index.toNat < tree.leafCount →
            tree.leafDigest? index.toNat = some digest ∧
              (tree.openAt index.toNat).value = .ok ⟨index, path⟩) ∧
          (tree.leafCount ≤ index.toNat → digest = H.zero)) ∨
        tree.PathCollision digest index.toNat path) := by
  have perfect := constructed.perfect
  obtain ⟨_, inside, reaches⟩ := verifyDigest_value_eq_true_iff.mp accepted
  rw [length, ← perfect.capacity_eq] at inside
  refine ⟨inside, ?_⟩
  rcases perfect.climb_eq_root_binding inside length reaches with ⟨rfl, rfl⟩ | collide
  · -- The slot of a leaf holds its digest, and every other slot holds the zero digest.
    refine .inl ⟨rfl, rfl, fun leaf => ⟨perfect.leafDigest?_eq _ leaf, ?_⟩,
      fun vacant => perfect.node_vacant _ vacant inside⟩
    rw [Tree.openAt_value, if_pos leaf, UInt64.ofNat_toNat]
  · exact .inr collide

/-- The slot after three leaves is accepted with the zero digest and the path beside it. -/
theorem accepted_digest_binding_vacant :
    let digests := [[1], [2], [3]].map Hasher.fnv.leaf
    let tree := Tree.arrange Hasher.fnv 4 digests
    tree.Constructed ∧ (tree.siblingPath 3).length = tree.depth ∧
      (verifyDigest Hasher.fnv tree.root 3 (tree.siblingPath 3) Hasher.fnv.zero).value = .ok true ∧
      3 < tree.capacity ∧
      (Hasher.fnv.zero = tree.node 7 ∨ tree.PathCollision Hasher.fnv.zero 3 (tree.siblingPath 3)) := by
  intro digests tree
  have accommodated : Padding.zeros.capacity 3 = .ok 4 :=
    Padding.capacity_eq_ok_iff.mpr (by decide)
  have constructed : tree.Constructed :=
    .ofDigests .zeros digests (Tree.ofDigests_value_eq_ok_iff.mpr ⟨4, accommodated, rfl⟩)
  have length : (tree.siblingPath 3).length = tree.depth := by decide +kernel
  -- The vacant slot holds the zero digest, and the path beside it leads to the root.
  have accepted :
      (verifyDigest Hasher.fnv tree.root 3 (tree.siblingPath 3) Hasher.fnv.zero).value = .ok true :=
    verifyDigest_value_eq_true_iff.mpr (by decide +kernel)
  obtain ⟨inside, bound⟩ := accepted_digest_binding constructed length accepted
  exact ⟨constructed, length, accepted, inside, bound.imp (fun held => held.1) id⟩

end Merkle
