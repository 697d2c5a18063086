import Merkle.Hasher.Standard
import Merkle.Proofs.Opening.Completeness
import Merkle.Proofs.Tree.Blocks

/-! What the digests on a path commit to: the blocks of leaf slots beside the way to the root. -/

namespace Merkle.Tree

variable {H : Hasher D} {tree : Tree H}

/-- The slots beside the way from a leaf slot are below the root, and they are slots of the tree. -/
theorem Perfect.siblingSlots_bounds (perfect : tree.Perfect) {index slot : Nat}
    (inside : index < tree.capacity) (beside : slot ∈ siblingSlots (tree.capacity + index)) :
    2 ≤ slot ∧ slot < 2 * tree.capacity := by
  rw [perfect.siblingSlots_capacity_add inside] at beside
  obtain ⟨level, ranged, rfl⟩ := List.mem_map.mp beside
  have below : level < tree.depth := List.mem_range.mp ranged
  have place := perfect.sibling_shiftRight_lt inside below
  have wide := perfect.capacity_eq
  -- The level of the slot begins no earlier than the one below the root.
  have first : levelWidth 1 ≤ levelWidth (tree.depth - level) :=
    levelWidth_le_levelWidth (by omega)
  have last : levelWidth (tree.depth - level) ≤ levelWidth tree.depth :=
    levelWidth_le_levelWidth (Nat.sub_le _ _)
  have two : levelWidth 1 = 2 := rfl
  omega

/-- On each level, the path beside a leaf slot passes the root over a block that is as wide as the
block of the slot's own ancestor, and next to it. -/
theorem Constructed.getElem?_siblingPath_eq_rootOver (constructed : tree.Constructed)
    {index level : Nat} (inside : index < tree.capacity) (below : level < tree.depth) :
    (tree.siblingPath index)[level]? =
        some (rootOver H level (block level (sibling (index >>> level)) tree.paddedDigests)) ∧
      (block level (sibling (index >>> level)) tree.paddedDigests).length = levelWidth level := by
  have perfect := constructed.perfect
  have place := perfect.sibling_shiftRight_lt inside below
  -- As many levels are below the slot as the way has come up.
  have height : tree.depth - (tree.depth - level) = level := Nat.sub_sub_self (Nat.le_of_lt below)
  constructor
  · -- The slot holds the root over what is below it.
    rw [perfect.getElem?_siblingPath inside below,
      constructed.node_eq_rootOver (Nat.sub_le _ _) place, height]
  · -- The block ends within the leaf slots, so it has its full width.
    apply length_block
    rw [constructed.length_paddedDigests, ← Nat.sub_add_cancel (Nat.le_of_lt below),
      levelWidth_add]
    exact Nat.mul_le_mul_right _ place

/--
The path beside a leaf slot consists of the roots over the blocks beside the way to the root.

There is one for each level, read from a slot of the tree that is below its root. On each level the
block is as wide as the one the way comes from, and next to it. What is opened at a leaf has that
path, and slots below one ancestor pass the same digest beside it.
-/
theorem siblingPath_passes_blocks (constructed : tree.Constructed) :
    tree.paddedDigests.length = tree.capacity ∧ tree.capacity = levelWidth tree.depth ∧
      (∀ index, index < tree.capacity →
        (siblingSlots (tree.capacity + index)).length = tree.depth ∧
          (∀ slot ∈ siblingSlots (tree.capacity + index), 2 ≤ slot ∧ slot < tree.nodes.size) ∧
          (tree.siblingPath index).length = tree.depth ∧
          (∀ level, level < tree.depth →
            (block level (sibling (index >>> level)) tree.paddedDigests).length =
                levelWidth level ∧
              (tree.siblingPath index)[level]? =
                some (rootOver H level
                  (block level (sibling (index >>> level)) tree.paddedDigests))) ∧
          ∀ other level, other < tree.capacity → index >>> level = other >>> level →
            (tree.siblingPath index)[level]? = (tree.siblingPath other)[level]?) ∧
      ∀ index, index < tree.leafCount → ∃ opening, (tree.openAt index).value = .ok opening ∧
        opening.index.toNat = index ∧ opening.path.length = tree.depth ∧
        ∀ level, level < tree.depth →
          opening.path[level]? =
            some (rootOver H level
              (block level (sibling (index >>> level)) tree.paddedDigests)) := by
  have perfect := constructed.perfect
  refine ⟨?_, perfect.capacity_eq, ?_, ?_⟩
  · rw [constructed.length_paddedDigests, perfect.capacity_eq]
  · intro index inside
    have length := perfect.length_siblingPath inside
    refine ⟨?_, ?_, length, ?_, ?_⟩
    · rw [length_siblingSlots, perfect.log2_slot inside]
    · intro slot beside
      rw [constructed.size_nodes]
      exact perfect.siblingSlots_bounds inside beside
    · intro level below
      exact (constructed.getElem?_siblingPath_eq_rootOver inside below).symm
    · intro other level insideOther shared
      by_cases below : level < tree.depth
      · -- The place beside the ancestor is determined by the ancestor.
        rw [perfect.getElem?_siblingPath inside below,
          perfect.getElem?_siblingPath insideOther below, shared]
      · -- Neither path goes on beside the root.
        have lengthOther := perfect.length_siblingPath insideOther
        rw [List.getElem?_eq_none (by omega), List.getElem?_eq_none (by omega)]
  · -- The opening of a leaf has the path beside its slot.
    intro index leaf
    have inside : index < tree.capacity := Nat.lt_of_lt_of_le leaf perfect.leafCount_le
    refine ⟨⟨UInt64.ofNat index, tree.siblingPath index⟩, openAt_of_lt leaf,
      perfect.toNat_ofNat_index inside, perfect.length_siblingPath inside, ?_⟩
    intro level below
    exact (constructed.getElem?_siblingPath_eq_rootOver inside below).1

/-- The path of the last of three leaves passes the added zero digest and then the left half. -/
theorem siblingPath_passes_blocks_padded :
    let first := Hasher.fnv.leaf [1]
    let second := Hasher.fnv.leaf [2]
    let digests := [first, second, Hasher.fnv.leaf [3]]
    let tree := arrange Hasher.fnv 4 digests
    tree.Constructed ∧ 2 < tree.leafCount ∧ 7 ∈ siblingSlots 6 ∧ 7 < tree.nodes.size ∧
      ∃ opening, (tree.openAt 2).value = .ok opening ∧ opening.path.length = 2 ∧
        opening.path[0]? = some Hasher.fnv.zero ∧
        opening.path[1]? = some (rootOver Hasher.fnv 1 [first, second]) := by
  intro first second digests tree
  have accepted : Padding.zeros.capacity 3 = .ok 4 := Padding.capacity_eq_ok_iff.mpr (by decide)
  have constructed : tree.Constructed := constructed_arrange accepted
  have deep : tree.depth = 2 := by decide
  -- Three leaves are padded by one zero digest, which stands beside the last of them.
  have padded : tree.paddedDigests = digests ++ [Hasher.fnv.zero] := by
    rw [paddedDigests, leafDigests_arrange (by decide)]
    rfl
  obtain ⟨-, -, slots, opens⟩ := siblingPath_passes_blocks constructed
  obtain ⟨-, bounds, -⟩ := slots 2 (by decide)
  obtain ⟨opening, opened, -, length, passes⟩ := opens 2 (by decide)
  have beside : 7 ∈ siblingSlots 6 := by simp [siblingSlots, sibling]
  rw [deep] at length passes
  rw [padded] at passes
  exact ⟨constructed, by decide, beside, (bounds 7 beside).2, opening, opened, length,
    passes 0 (by decide), passes 1 (by decide)⟩

end Merkle.Tree
