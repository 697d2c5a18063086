import Merkle.Hasher.Standard
import Merkle.Proofs.Tree.Leaves

/-!
The recursive root of a list of digests. Every slot of a tree holds the one over the block of leaf
slots below it.
-/

namespace Merkle

/-- The root over all slots of a level, merged from the roots over both halves. -/
def rootOver (H : Hasher D) : (depth : Nat) → List D → D
  -- A single digest is its own root.
  | 0, digests => digests.headD H.zero
  | depth + 1, digests =>
    H.merge (rootOver H depth (digests.take (levelWidth depth)))
      (rootOver H depth (digests.drop (levelWidth depth)))

/-- The slots of a level below one slot, by the number of levels between and the slot's place. -/
def block (depth place : Nat) (digests : List D) : List D :=
  -- The blocks of one level lie side by side and have the same width.
  (digests.drop (place * levelWidth depth)).take (levelWidth depth)

/-- The digests of all leaf slots of a tree, those of the leaves first. -/
def Tree.paddedDigests {H : Hasher D} (tree : Tree H) : List D :=
  -- Unused slots hold the zero digest, whatever the tree was built from.
  padded H tree.capacity tree.leafDigests

/-- A single digest is its own root. -/
@[simp] theorem rootOver_singleton (H : Hasher D) (digest : D) : rootOver H 0 [digest] = digest :=
  -- Nothing is merged on the level of the leaves.
  rfl

/-- The root over two halves is the merge of their roots. -/
theorem rootOver_append (H : Hasher D) {depth : Nat} {left : List D}
    (half : left.length = levelWidth depth) (right : List D) :
    rootOver H (depth + 1) (left ++ right) =
      H.merge (rootOver H depth left) (rootOver H depth right) := by
  -- The left half has the width of a level, so the digests are split where it ends.
  rw [rootOver, List.take_left' half, List.drop_left' half]

/-- A block of one slot is the digest in the slot. -/
theorem block_zero {place : Nat} {digests : List D} {digest : D}
    (found : digests[place]? = some digest) : block 0 place digests = [digest] := by
  -- What is dropped ends at the slot, and one digest is taken from there.
  obtain ⟨inside, rfl⟩ := List.getElem?_eq_some_iff.mp found
  rw [block, levelWidth_zero, Nat.mul_one, List.drop_eq_getElem_cons inside]
  rfl

/-- A block consists of the two blocks of half its width at twice its place. -/
theorem block_succ (depth place : Nat) (digests : List D) :
    block (depth + 1) place digests =
      block depth (2 * place) digests ++ block depth (2 * place + 1) digests := by
  -- The second half starts where the first one ends.
  have start : place * (2 * levelWidth depth) = 2 * place * levelWidth depth := by
    rw [Nat.mul_left_comm, Nat.mul_assoc]
  have middle : (2 * place + 1) * levelWidth depth =
      2 * place * levelWidth depth + levelWidth depth := by rw [Nat.succ_mul]
  simp only [block, levelWidth_succ]
  rw [start, middle, ← List.drop_drop, Nat.two_mul (levelWidth depth), List.take_add]

/-- A block that ends within the digests has the width of its level. -/
theorem length_block {depth place : Nat} {digests : List D}
    (inside : (place + 1) * levelWidth depth ≤ digests.length) :
    (block depth place digests).length = levelWidth depth := by
  -- Enough digests are left behind those that are dropped.
  rw [Nat.succ_mul] at inside
  simp only [block, List.length_take, List.length_drop]
  omega

/-- The block below the root is the whole level of leaf slots. -/
theorem block_whole {depth : Nat} {digests : List D} (length : digests.length = levelWidth depth) :
    block depth 0 digests = digests := by
  -- Nothing is dropped, and everything is taken.
  rw [block, Nat.zero_mul, List.drop_zero, ← length, List.take_length]

/--
Where slots hold the merge of the slots below them, each of them holds the root over the block of
leaf slots below it.
-/
theorem node_eq_rootOver {H : Hasher D} {node : Nat → D} {depth : Nat} {digests : List D}
    (merged : ParentsMerge H node (levelWidth depth))
    (length : digests.length = levelWidth depth)
    (leaves : ∀ place, place < levelWidth depth →
      digests[place]? = some (node (levelWidth depth + place)))
    {height level place : Nat} (levels : level + height = depth)
    (inside : place < levelWidth level) :
    node (levelWidth level + place) = rootOver H height (block height place digests) := by
  -- The induction goes up from the leaf slots, which are the blocks of one slot each.
  induction height generalizing level place with
  | zero =>
    obtain rfl : level = depth := levels
    rw [block_zero (leaves place inside), rootOver_singleton]
  | succ height ih =>
    subst levels
    have wide := levelWidth_succ level
    have below : levelWidth (level + 1) ≤ levelWidth (level + (height + 1)) :=
      levelWidth_le_levelWidth (by omega)
    have positive := levelWidth_pos level
    -- The children are neighbours on the next level, at twice the place.
    have left : 2 * (levelWidth level + place) = levelWidth (level + 1) + 2 * place := by omega
    rw [merged _ (by omega) (by omega), left, Nat.add_assoc (levelWidth (level + 1)),
      ih (by omega) (by omega), ih (by omega) (by omega), block_succ, rootOver_append]
    -- The left block ends within the leaf slots, so it has its full width.
    apply length_block
    rw [length, show level + (height + 1) = level + 1 + height by omega, levelWidth_add]
    exact Nat.mul_le_mul_right _ (by omega)

namespace Tree

variable {H : Hasher D}

/-- Every slot of an arranged tree holds the root over the padded digests below it. -/
theorem node_arrange_eq_rootOver {padding : Padding} {digests : List D} {capacity : Nat}
    (accepted : padding.capacity digests.length = .ok capacity) {level place : Nat}
    (above : level ≤ capacity.log2) (inside : place < levelWidth level) :
    (arrange H capacity digests).node (levelWidth level + place) =
      rootOver H (capacity.log2 - level)
        (block (capacity.log2 - level) place (padded H capacity digests)) := by
  -- The tree is perfect, so it suffices that its leaf slots hold the padded digests.
  have perfect := perfect_arrange (H := H) accepted
  have room : digests.length ≤ capacity := perfect.leafCount_le
  obtain ⟨depth, rfl⟩ : ∃ depth, capacity = levelWidth depth := ⟨_, perfect.capacity_eq⟩
  rw [log2_levelWidth] at above ⊢
  apply node_eq_rootOver perfect.merged (length_padded room)
  · intro place leaf
    rw [getElem?_padded leaf, node_arrange_leaf leaf]
  · exact Nat.add_sub_cancel' above
  · exact inside

/-- There is a digest for every slot of the lowest level. -/
theorem Constructed.length_paddedDigests {tree : Tree H} (constructed : tree.Constructed) :
    tree.paddedDigests.length = levelWidth tree.depth := by
  -- The lowest level is as wide as the capacity, to which the digests are padded.
  have perfect := constructed.perfect
  obtain ⟨_, capacity, digests, _, rfl⟩ := constructed.eq_arrange
  have room : digests.length ≤ capacity := perfect.leafCount_le
  rw [paddedDigests, leafDigests_arrange room, ← perfect.capacity_eq]
  exact length_padded room

/-- Every slot of a tree that can be built holds the root over the leaf slots below it. -/
theorem Constructed.node_eq_rootOver {tree : Tree H} (constructed : tree.Constructed)
    {level place : Nat} (above : level ≤ tree.depth) (inside : place < levelWidth level) :
    tree.node (levelWidth level + place) =
      rootOver H (tree.depth - level) (block (tree.depth - level) place tree.paddedDigests) := by
  obtain ⟨_, capacity, digests, accepted, rfl⟩ := constructed.eq_arrange
  have room : digests.length ≤ capacity := (perfect_arrange (H := H) accepted).leafCount_le
  -- The leaf digests of the tree are the ones it was arranged over.
  rw [paddedDigests, leafDigests_arrange room]
  exact node_arrange_eq_rootOver accepted above inside

/--
A tree over leaf digests holds the recursively defined tree over the padded digests, level by
level in one array.
-/
theorem ofDigests_holds_recursive_tree {padding : Padding} {digests : List D} {tree : Tree H}
    (built : (ofDigests H padding digests).value = .ok tree) :
    tree.nodes.size = 2 * tree.capacity ∧
      tree.capacity = levelWidth tree.depth ∧ digests.length ≤ tree.capacity ∧
      (∀ depth, digests.length ≤ levelWidth depth → tree.capacity ≤ levelWidth depth) ∧
      tree.nodes.toList.drop tree.capacity =
        digests ++ List.replicate (tree.capacity - digests.length) H.zero ∧
      (∀ slot, 1 ≤ slot → slot < tree.capacity →
        tree.node slot = H.merge (tree.node (2 * slot)) (tree.node (2 * slot + 1))) ∧
      (∀ level place, level ≤ tree.depth → place < levelWidth level →
        tree.node (levelWidth level + place) =
          rootOver H (tree.depth - level)
            (block (tree.depth - level) place (padded H tree.capacity digests))) ∧
      tree.root = rootOver H tree.depth (padded H tree.capacity digests) ∧
      tree.leafDigests = digests ∧
      ∀ index, digests.length ≤ index → tree.leafDigest? index = none := by
  obtain ⟨capacity, accepted, rfl⟩ := ofDigests_value_eq_ok_iff.mp built
  -- The tree is the one arranged over the digests, of which all parts are known.
  have perfect := perfect_arrange (H := H) accepted
  have room : digests.length ≤ capacity := perfect.leafCount_le
  have width : capacity = levelWidth capacity.log2 := perfect.capacity_eq
  obtain ⟨-, -, -, least⟩ := Padding.capacity_eq_ok_iff.mp accepted
  have leaves := leafDigests_arrange (H := H) room
  refine ⟨size_nodes_arrange room, width, room, ?_, drop_nodes_arrange room, perfect.merged,
    ?_, ?_, leaves, ?_⟩
  · intro depth fits
    exact least ▸ leastCapacity_le fits
  · intro level place above inside
    exact node_arrange_eq_rootOver accepted above inside
  · -- The root is the only slot of the top level, and all leaf slots are below it.
    have top := node_arrange_eq_rootOver (H := H) accepted (Nat.zero_le _) (levelWidth_pos 0)
    rwa [Nat.sub_zero, block_whole ((length_padded room).trans width)] at top
  · intro index past
    rw [leafDigest?, leaves, List.getElem?_eq_none past]

/-- Three digests are followed by one zero digest, and the right half is merged from both. -/
theorem ofDigests_holds_recursive_tree_padded :
    let third := Hasher.fnv.leaf [3]
    let digests := [Hasher.fnv.leaf [1], Hasher.fnv.leaf [2], third]
    let tree := arrange Hasher.fnv 4 digests
    (ofDigests Hasher.fnv .zeros digests).value = .ok tree ∧ tree.nodes.size = 8 ∧
      tree.root = rootOver Hasher.fnv 2 (digests ++ [Hasher.fnv.zero]) ∧
      tree.node 3 = Hasher.fnv.merge third Hasher.fnv.zero ∧
      tree.leafDigest? 3 = none := by
  intro third digests tree
  have accommodated : Padding.zeros.capacity 3 = .ok 4 :=
    Padding.capacity_eq_ok_iff.mpr (by decide)
  have built : (ofDigests Hasher.fnv .zeros digests).value = .ok tree :=
    ofDigests_value_eq_ok_iff.mpr ⟨4, accommodated, rfl⟩
  have deep : tree.depth = 2 := by decide
  obtain ⟨size, -, -, -, -, -, blocks, root, -, past⟩ := ofDigests_holds_recursive_tree built
  -- The third slot is the root over the last two of the padded digests.
  have right := blocks 1 1 (by decide) (by decide)
  rw [deep] at root right
  exact ⟨built, size, root, right, past 3 (by decide)⟩

end Tree

end Merkle
