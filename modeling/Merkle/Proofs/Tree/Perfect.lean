import Merkle.Proofs.Path.Siblings
import Merkle.Proofs.Tree.Capacity
import Merkle.Tree.Build

/-! The shape that every tree over leaf digests has, whatever its hasher. -/

namespace Merkle.Tree

variable {H : Hasher D}

/-- A tree whose leaf slots fill one level, where leaves come first and slots above are merges. -/
structure Perfect (tree : Tree H) : Prop where
  /-- The leaf slots are all slots of one level. -/
  capacity_eq : tree.capacity = levelWidth tree.depth
  /-- The level is not too deep for its slots to be numbered. -/
  depth_lt : tree.depth < maxDepth
  /-- There is a leaf. -/
  leafCount_pos : 0 < tree.leafCount
  /-- There is a slot for every leaf. -/
  leafCount_le : tree.leafCount ≤ tree.capacity
  /-- A slot above the leaves holds the merge of the slots below it. -/
  merged : ParentsMerge H tree.node tree.capacity
  /-- A slot that no leaf uses holds the zero digest. -/
  node_vacant : ∀ index, tree.leafCount ≤ index → index < tree.capacity →
    tree.node (tree.capacity + index) = H.zero
  /-- The leaves are in the first leaf slots. -/
  leafDigest?_eq : ∀ index, index < tree.leafCount →
    tree.leafDigest? index = some (tree.node (tree.capacity + index))

namespace Perfect

variable {tree : Tree H}

/-- As many levels lie above a leaf slot as the tree is deep. -/
theorem log2_slot (perfect : tree.Perfect) {index : Nat} (inside : index < tree.capacity) :
    (tree.capacity + index).log2 = tree.depth := by
  -- Leaf slots lie between the capacity and its double.
  rw [perfect.capacity_eq] at inside ⊢
  exact log2_levelWidth_add inside

/-- The path beside a leaf slot has one sibling for each level of the tree. -/
theorem length_siblingPath (perfect : tree.Perfect) {index : Nat} (inside : index < tree.capacity) :
    (tree.siblingPath index).length = tree.depth := by
  -- There is a sibling for each level above the slot.
  rw [siblingPath, List.length_map, length_siblingSlots, perfect.log2_slot inside]

/-- A path no longer than the tree is deep is climbed from an index as from its leaf slot. -/
theorem climb_slot (perfect : tree.Perfect) (digest : D) (index : Nat) {path : List D}
    (within : path.length ≤ tree.depth) :
    climb H digest (tree.capacity + index) path = climb H digest index path := by
  -- The first leaf slot is a multiple of any width that the path has a say in.
  apply climb_congr
  rw [perfect.capacity_eq, ← Nat.sub_add_cancel within, levelWidth_add, Nat.mul_add_mod']

/-- The first levels of the path beside a leaf slot lead from its digest to its ancestor's. -/
theorem climb_take_siblingPath (perfect : tree.Perfect) {index level : Nat}
    (inside : index < tree.capacity) (within : level ≤ tree.depth) :
    climb H (tree.node (tree.capacity + index)) index ((tree.siblingPath index).take level) =
      tree.node ((tree.capacity + index) >>> level) := by
  have short : ((tree.siblingPath index).take level).length ≤ tree.depth :=
    Nat.le_trans (List.length_take_le _ _) within
  rw [← perfect.climb_slot _ _ short, siblingPath, ← List.map_take]
  -- The slots on the way are those of the tree, from the leaf slot up.
  exact climb_take_siblingSlots perfect.merged (perfect.log2_slot inside ▸ within) (by omega)

/-- The path beside a leaf slot leads from the digest in the slot to the root. -/
theorem climb_siblingPath (perfect : tree.Perfect) {index : Nat} (inside : index < tree.capacity) :
    climb H (tree.node (tree.capacity + index)) index (tree.siblingPath index) = tree.root := by
  -- From the slot, the path climbs along the siblings of the way, which end at the root.
  have length := perfect.length_siblingPath inside
  rw [← perfect.climb_slot _ _ (Nat.le_of_eq length)]
  exact climb_siblingSlots perfect.merged (by omega) (by omega)

/-- The ancestor of a leaf slot is on the level that the halvings lead to. -/
theorem shiftRight_slot (perfect : tree.Perfect) {level : Nat} (within : level ≤ tree.depth)
    (index : Nat) : (tree.capacity + index) >>> level =
      levelWidth (tree.depth - level) + index >>> level := by
  -- The capacity is a power of two, which is halved apart from the index.
  rw [perfect.capacity_eq, ← levelWidth_add_shiftRight, Nat.add_sub_cancel' within]

/-- The slots beside the way from a leaf slot are one on each level, at the place that is the
sibling of the ancestor's. -/
theorem siblingSlots_capacity_add (perfect : tree.Perfect) {index : Nat}
    (inside : index < tree.capacity) :
    siblingSlots (tree.capacity + index) = (List.range tree.depth).map fun level =>
      levelWidth (tree.depth - level) + sibling (index >>> level) := by
  rw [siblingSlots_eq_map, perfect.log2_slot inside]
  apply List.map_congr_left
  intro level ranged
  have below : level < tree.depth := List.mem_range.mp ranged
  -- The ancestor is below the root, where siblings are on one level.
  rw [perfect.shiftRight_slot (Nat.le_of_lt below), sibling_levelWidth_add (by omega)]

/-- The path beside a leaf slot passes the digest beside the ancestor on each level. -/
theorem getElem?_siblingPath (perfect : tree.Perfect) {index level : Nat}
    (inside : index < tree.capacity) (below : level < tree.depth) :
    (tree.siblingPath index)[level]? =
      some (tree.node (levelWidth (tree.depth - level) + sibling (index >>> level))) := by
  -- The sibling on a level is that of the ancestor there, which is found by halving.
  rw [siblingPath, perfect.siblingSlots_capacity_add inside, List.getElem?_map, List.getElem?_map,
    List.getElem?_range below]
  rfl

/-- The place beside the ancestor of a leaf slot is one of the ancestor's level. -/
theorem sibling_shiftRight_lt (perfect : tree.Perfect) {index level : Nat}
    (inside : index < tree.capacity) (below : level < tree.depth) :
    sibling (index >>> level) < levelWidth (tree.depth - level) := by
  -- The ancestor is on the level, and the level is not that of the root.
  apply sibling_lt_levelWidth (by omega)
  apply shiftRight_lt_levelWidth
  rw [Nat.add_sub_cancel' (Nat.le_of_lt below), ← perfect.capacity_eq]
  exact inside

/-- Leaf slots with the same ancestor have the same path from there on. -/
theorem drop_siblingPath_congr (perfect : tree.Perfect) {index other level : Nat}
    (within : level ≤ tree.depth) (shared : other >>> level = index >>> level) :
    (tree.siblingPath other).drop level = (tree.siblingPath index).drop level := by
  -- From the ancestor on, the way depends on the ancestor alone.
  have ancestor : (tree.capacity + other) >>> level = (tree.capacity + index) >>> level := by
    rw [perfect.shiftRight_slot within, perfect.shiftRight_slot within, shared]
  rw [siblingPath, siblingPath, ← List.map_drop, ← List.map_drop, drop_siblingSlots,
    drop_siblingSlots, ancestor]

/-- From the ancestor of a leaf slot, the rest of the path beside the slot leads to the root. -/
theorem climb_drop_siblingPath (perfect : tree.Perfect) {index level : Nat}
    (inside : index < tree.capacity) (within : level ≤ tree.depth) :
    climb H (tree.node ((tree.capacity + index) >>> level)) (index >>> level)
      ((tree.siblingPath index).drop level) = tree.root := by
  have length : ((tree.siblingPath index).drop level).length = tree.depth - level := by
    rw [List.length_drop, perfect.length_siblingPath inside]
  rw [← climb_levelWidth_add, length, ← perfect.shiftRight_slot within, siblingPath,
    ← List.map_drop, drop_siblingSlots]
  -- The ancestor is a slot of the tree, and no lower than the slot itself.
  have named : 1 ≤ (tree.capacity + index) >>> level :=
    one_le_shiftRight (by omega) (perfect.log2_slot inside ▸ within)
  have above : (tree.capacity + index) >>> level ≤ tree.capacity + index := Nat.shiftRight_le _ _
  exact climb_siblingSlots perfect.merged named (by omega)

/-- An index of the tree fits the word that openings keep it in. -/
theorem toNat_ofNat_index (perfect : tree.Perfect) {index : Nat} (inside : index < tree.capacity) :
    (UInt64.ofNat index).toNat = index := by
  -- Even the slots are numbered in words, and the index is smaller.
  have room := twice_levelWidth_lt_iff.mpr perfect.depth_lt
  rw [← perfect.capacity_eq] at room
  exact UInt64.toNat_ofNat_of_lt' (by omega)

end Perfect

/-- A tree is arranged with the leaf slots that were asked for. -/
@[simp] theorem capacity_arrange (capacity : Nat) (digests : List D) :
    (arrange H capacity digests).capacity = capacity := rfl

/-- A tree is arranged with a leaf for every digest. -/
@[simp] theorem leafCount_arrange (capacity : Nat) (digests : List D) :
    (arrange H capacity digests).leafCount = digests.length := rfl

/-- There are as many padded digests as leaf slots. -/
@[simp] theorem length_padded {capacity : Nat} {digests : List D}
    (room : digests.length ≤ capacity) : (padded H capacity digests).length = capacity := by
  -- As many zeros are added as slots are left.
  simp only [padded, List.length_append, List.length_replicate]
  omega

/-- Behind the digests themselves, padded digests are zero. -/
theorem getElem?_padded {capacity index : Nat} {digests : List D} (inside : index < capacity) :
    (padded H capacity digests)[index]? = some (digests[index]?.getD H.zero) := by
  -- The index lies among the digests or among the zeros behind them.
  rw [padded]
  by_cases leaf : index < digests.length
  · rw [List.getElem?_append_left leaf, List.getElem?_eq_getElem leaf, Option.getD_some]
  · rw [List.getElem?_append_right (by omega), List.getElem?_replicate, if_pos (by omega),
      List.getElem?_eq_none (by omega), Option.getD_none]

/-- An arranged tree has two slots for each leaf slot. -/
theorem size_nodes_arrange {capacity : Nat} {digests : List D} (room : digests.length ≤ capacity) :
    (arrange H capacity digests).nodes.size = 2 * capacity := by
  -- Filling keeps the number of slots, which are those of both halves.
  simp only [arrange, size_fillParents, List.size_toArray, List.length_append,
    List.length_replicate, length_padded room]
  omega

/-- Filling leaves a leaf slot with its padded digest. -/
theorem node_arrange_leaf {capacity index : Nat} (inside : index < capacity) (digests : List D) :
    (arrange H capacity digests).node (capacity + index) = digests[index]?.getD H.zero := by
  simp only [node, arrange]
  rw [fillParents_outside (by omega)]
  simp only [Array.getD_eq_getD_getElem?, List.getElem?_toArray]
  -- The leaf slots follow as many slots of parents.
  rw [List.getElem?_append_right (by simp), List.length_replicate, Nat.add_sub_cancel_left,
    getElem?_padded inside, Option.getD_some]

/-- The slot that is never used holds the zero digest. -/
theorem node_arrange_zero {capacity : Nat} (some : 0 < capacity) (digests : List D) :
    (arrange H capacity digests).node 0 = H.zero := by
  simp only [node, arrange]
  rw [fillParents_outside (.inl rfl)]
  simp only [Array.getD_eq_getD_getElem?, List.getElem?_toArray]
  -- It is the first of the slots in front of the leaf slots.
  rw [List.getElem?_append_left (by simpa using some), List.getElem?_replicate, if_pos some,
    Option.getD_some]

/-- The leaf slots of an arranged tree hold the padded digests. -/
theorem drop_nodes_arrange {capacity : Nat} {digests : List D}
    (room : digests.length ≤ capacity) :
    (arrange H capacity digests).nodes.toList.drop capacity = padded H capacity digests := by
  have size := size_nodes_arrange (H := H) room
  apply List.ext_getElem?
  intro index
  rw [List.getElem?_drop, Array.getElem?_toList]
  by_cases inside : index < capacity
  · -- Within the array, reading a slot and looking into its list are the same.
    have read := node_arrange_leaf (H := H) inside digests
    rw [node, Array.getD_eq_getD_getElem?, Array.getElem?_eq_getElem (by omega),
      Option.getD_some] at read
    rw [Array.getElem?_eq_getElem (by omega), read, getElem?_padded inside]
  · rw [Array.getElem?_eq_none (by omega),
      List.getElem?_eq_none (by rw [length_padded room]; omega)]

/-- The leaf digests of an arranged tree are those it was arranged over. -/
theorem leafDigests_arrange {capacity : Nat} {digests : List D}
    (room : digests.length ≤ capacity) : (arrange H capacity digests).leafDigests = digests := by
  -- The leaf slots hold the padded digests, and the leaves are the front of them.
  rw [leafDigests, capacity_arrange, leafCount_arrange, drop_nodes_arrange room, padded,
    List.take_left]

/-- A tree arranged with the least capacity for an accepted number of leaves is perfect. -/
theorem perfect_arrange {padding : Padding} {digests : List D} {capacity : Nat}
    (accepted : padding.capacity digests.length = .ok capacity) :
    (arrange H capacity digests).Perfect := by
  obtain ⟨some, allowed, shallow, least⟩ := Padding.capacity_eq_ok_iff.mp accepted
  have room : digests.length ≤ capacity := least ▸ le_leastCapacity digests.length
  have level : (arrange H capacity digests).depth = ceilLog2 digests.length := by
    rw [depth, arrange, least, log2_leastCapacity]
  have size := size_nodes_arrange (H := H) room
  refine ⟨?_, level ▸ shallow, some, room, ?_, ?_, ?_⟩
  · -- The least capacity is a width by its definition.
    rw [level]
    exact least
  · intro slot named inside
    -- Filling covers every slot in front of the leaf slots.
    have filled : slot ≤ capacity - 1 := Nat.le_sub_one_of_lt inside
    simp only [arrange, size_fillParents] at size
    exact fillParents_parent named filled _ (by omega)
  · intro index vacant inside
    have slot : index < capacity := inside
    rw [capacity_arrange, node_arrange_leaf slot, List.getElem?_eq_none vacant, Option.getD_none]
  · intro index leaf
    rw [leafDigest?, leafDigests_arrange room, capacity_arrange,
      node_arrange_leaf (Nat.lt_of_lt_of_le leaf room), List.getElem?_eq_getElem leaf,
      Option.getD_some]

end Merkle.Tree
