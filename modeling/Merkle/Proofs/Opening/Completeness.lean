import Merkle.Hasher.Standard
import Merkle.Proofs.Opening.Verdict
import Merkle.Proofs.Tree.Leaves

/-! Every leaf of a built tree can be opened, and its opening is accepted under the root. -/

namespace Merkle

variable {H : Hasher D}

/-- An index opens to the path beside its slot when it has a leaf, and to an error otherwise. -/
theorem Tree.openAt_value (tree : Tree H) (index : Nat) :
    (tree.openAt index).value =
      if index < tree.leafCount then .ok ⟨UInt64.ofNat index, tree.siblingPath index⟩
      else .error (.indexOutOfRange index tree.leafCount) := by
  -- The two cases are the two branches of opening, without cost and events.
  unfold openAt
  split <;> rfl

/-- An index with a leaf opens to the path beside its slot. -/
theorem Tree.openAt_of_lt {tree : Tree H} {index : Nat} (leaf : index < tree.leafCount) :
    (tree.openAt index).value = .ok ⟨UInt64.ofNat index, tree.siblingPath index⟩ := by
  -- The index passes the only test there is.
  rw [openAt_value, if_pos leaf]

/-- An index can be opened when it has a leaf. -/
theorem Tree.openAt_isOk_iff {tree : Tree H} {index : Nat} :
    (∃ opening, (tree.openAt index).value = .ok opening) ↔ index < tree.leafCount := by
  -- Where the test fails, the outcome is an error and no opening.
  rw [openAt_value]
  split <;> simp_all

/-- The path beside any leaf slot is accepted for the digest in the slot. -/
theorem Tree.Perfect.verifyDigest_siblingPath [DecidableEq D] {tree : Tree H}
    (perfect : tree.Perfect) {index : Nat} (inside : index < tree.capacity) :
    (verifyDigest H tree.root (UInt64.ofNat index) (tree.siblingPath index)
      (tree.node (tree.capacity + index))).value = .ok true := by
  have shallow := perfect.depth_lt
  rw [verifyDigest_value_eq_true_iff, perfect.length_siblingPath inside,
    perfect.toNat_ofNat_index inside]
  -- The index is on the level of the leaves, which is as deep as the path is long.
  refine ⟨by omega, ?_, perfect.climb_siblingPath inside⟩
  rw [← perfect.capacity_eq]
  exact inside

/--
Every leaf of a built tree opens to a path of the tree's depth, which every verification accepts.

Indices without a leaf cannot be opened, not even those of slots that were added for padding.
-/
theorem built_openings_verify [DecidableEq D] (H : Hasher D) (encoding : LeafEncoding α)
    (padding : Padding) (leaves : List α) {tree : Tree H}
    (built : Returns (Tree.build H encoding padding leaves) tree) :
    tree.leafCount = leaves.length ∧
      (∀ index (inside : index < leaves.length), ∃ opening digest,
        (tree.openAt index).value = .ok opening ∧
          opening.index.toNat = index ∧ opening.path.length = tree.depth ∧
          Returns (opening.verify H encoding tree.root leaves[index]) true ∧
          Returns (opening.verifyAtDepth H encoding tree.depth tree.root leaves[index]) true ∧
          tree.leafDigest? index = some digest ∧
          (verifyDigest H tree.root opening.index opening.path digest).value = .ok true) ∧
      ∀ index, tree.leafCount ≤ index →
        (tree.openAt index).value = .error (.indexOutOfRange index tree.leafCount) := by
  obtain ⟨encoded, complete, commits, counted⟩ := Tree.commits_of_build built
  have perfect := commits.perfect
  have count := commits.leafCount_eq.trans (LeafEncoding.length_encoded complete)
  refine ⟨count, ?_, ?_⟩
  · intro index inside
    have leaf : index < tree.leafCount := by omega
    have slot : index < tree.capacity := Nat.lt_of_lt_of_le leaf perfect.leafCount_le
    obtain ⟨bytes, written, found⟩ :=
      LeafEncoding.getElem?_encoded complete (List.getElem?_eq_getElem inside)
    -- No leaf has more bytes than all leaves together.
    have part := (List.sublist_flatten_of_mem (List.mem_of_getElem? found)).length_le
    -- All three verifications come down to the climb from the digest in the leaf slot.
    have accepted := perfect.verifyDigest_siblingPath slot
    have stored := commits.node_leaf index bytes found
    have length := perfect.length_siblingPath slot
    have verified : Returns (verify H encoding tree.root (UInt64.ofNat index)
        (tree.siblingPath index) leaves[index]) true :=
      returns_verify_true_iff.mpr ⟨bytes, written, by omega, stored ▸ accepted⟩
    refine ⟨⟨UInt64.ofNat index, tree.siblingPath index⟩, _,
      by rw [Tree.openAt_value, if_pos leaf], perfect.toNat_ofNat_index slot,
      length, verified, returns_verifyAtDepth_true_iff.mpr ⟨length, verified⟩,
      perfect.leafDigest?_eq index leaf, accepted⟩
  · -- Without a leaf, whether the slot exists makes no difference.
    intro index past
    rw [Tree.openAt_value, if_neg (by omega)]

/-- Three leaves are padded to four slots, and the last of them opens and verifies. -/
theorem built_openings_verify_padded :
    let leaves : List Bytes := [[1], [2], [3]]
    let tree := Tree.arrange Hasher.fnv 4 (leaves.map Hasher.fnv.leaf)
    Returns (Tree.build Hasher.fnv .raw .zeros leaves) tree ∧
      (∃ opening, (tree.openAt 2).value = .ok opening ∧ opening.path.length = 2 ∧
        Returns (opening.verifyAtDepth Hasher.fnv .raw 2 tree.root [3]) true) ∧
      (tree.openAt 3).value = .error (.indexOutOfRange 3 3) := by
  intro leaves tree
  have built : Returns (Tree.build Hasher.fnv .raw .zeros leaves) tree := by decide +kernel
  obtain ⟨_, opens, refuses⟩ := built_openings_verify Hasher.fnv .raw .zeros leaves built
  obtain ⟨opening, _, opened, _, length, _, verified, _⟩ := opens 2 (by decide)
  -- The unused slot lies within the capacity, but behind the last leaf.
  have deep : tree.depth = 2 := by decide
  rw [deep] at length verified
  exact ⟨built, ⟨opening, opened, length, verified⟩, refuses 3 (by decide)⟩

end Merkle
