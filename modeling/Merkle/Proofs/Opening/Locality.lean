import Merkle.Hasher.Standard
import Merkle.Proofs.Opening.Completeness
import Merkle.Proofs.Path.Meeting

/-! What a change of one leaf changes: the slots on its way to the root, and nothing beside it. -/

namespace Merkle.Tree

variable {H : Hasher D} {tree opposite : Tree H} {changed : Nat}

/-- Two perfect trees with as many slots, whose leaf slots hold the same digests but for one. -/
structure DiffersAt (tree opposite : Tree H) (changed : Nat) : Prop where
  /-- The first tree has the shape that every tree has. -/
  perfect : tree.Perfect
  /-- So has the second one. -/
  perfectOther : opposite.Perfect
  /-- There are equally many leaf slots. -/
  capacity_eq : tree.capacity = opposite.capacity
  /-- Every other leaf slot holds the same digest in both trees. -/
  node_leaf : ∀ leaf, leaf < tree.capacity → leaf ≠ changed →
    tree.node (tree.capacity + leaf) = opposite.node (tree.capacity + leaf)

/-- Trees with as many leaf slots are equally deep. -/
theorem DiffersAt.depth_eq (differs : tree.DiffersAt opposite changed) :
    tree.depth = opposite.depth := by
  -- The depth is computed from the number of leaf slots.
  rw [depth, depth, differs.capacity_eq]

/-- A slot that the changed leaf is not below holds the same digest in both trees. -/
theorem DiffersAt.node_place (differs : tree.DiffersAt opposite changed) {level place : Nat}
    (within : level ≤ tree.depth) (inside : place < levelWidth (tree.depth - level))
    (apart : place ≠ changed >>> level) :
    tree.node (levelWidth (tree.depth - level) + place) =
      opposite.node (levelWidth (tree.depth - level) + place) := by
  have merged := differs.perfect.merged
  have mergedOther := differs.perfectOther.merged
  have wide := differs.perfect.capacity_eq
  rw [← differs.capacity_eq, wide] at mergedOther
  rw [wide] at merged
  -- Both trees merge the slot from the leaf slots below it, which do not include the changed one.
  apply merged.congr mergedOther (Nat.sub_add_cancel within) inside
  intro leaf ranged below
  rw [← wide] at ranged ⊢
  apply differs.node_leaf leaf ranged
  rintro rfl
  exact apart below.symm

/-- A slot that is neither the changed leaf slot nor above it holds one digest in both trees. -/
theorem DiffersAt.node_slot (differs : tree.DiffersAt opposite changed) {slot : Nat}
    (named : 1 ≤ slot) (inside : slot < 2 * tree.capacity)
    (apart : ∀ level, level ≤ tree.depth → slot ≠ (tree.capacity + changed) >>> level) :
    tree.node slot = opposite.node slot := by
  obtain ⟨place, ranged, level⟩ := exists_eq_levelWidth_add named
  -- The slots of the tree end with the leaf slots, so the level is one of the tree.
  have within : slot.log2 ≤ tree.depth := by
    rw [differs.perfect.capacity_eq, ← levelWidth_succ] at inside
    have above : levelWidth slot.log2 < levelWidth (tree.depth + 1) := by omega
    exact Nat.le_of_lt_succ (levelWidth_lt_iff.mp above)
  have height : tree.depth - (tree.depth - slot.log2) = slot.log2 := Nat.sub_sub_self within
  -- On that level, only the ancestor of the changed leaf slot has the changed leaf below it.
  have other := apart (tree.depth - slot.log2) (Nat.sub_le _ _)
  rw [differs.perfect.shiftRight_slot (Nat.sub_le _ _), height] at other
  have same := differs.node_place (Nat.sub_le tree.depth slot.log2) (height.symm ▸ ranged)
    (fun place => other (place ▸ level))
  rwa [height, ← level] at same

/-- On a level where the changed leaf is not beside the way, two paths pass the same digest. -/
theorem DiffersAt.getElem?_siblingPath (differs : tree.DiffersAt opposite changed) {index : Nat}
    (inside : index < tree.capacity) {level : Nat}
    (apart : changed >>> level ≠ sibling (index >>> level)) :
    (tree.siblingPath index)[level]? = (opposite.siblingPath index)[level]? := by
  have insideOther : index < opposite.capacity := differs.capacity_eq ▸ inside
  by_cases below : level < tree.depth
  · -- Both paths pass the slot at one place, which the changed leaf is not below.
    rw [differs.perfect.getElem?_siblingPath inside below,
      differs.perfectOther.getElem?_siblingPath insideOther (differs.depth_eq ▸ below),
      ← differs.depth_eq]
    exact congrArg some (differs.node_place (Nat.le_of_lt below)
      (differs.perfect.sibling_shiftRight_lt inside below) apart.symm)
  · -- Both paths have ended below the root.
    have length := differs.perfect.length_siblingPath inside
    have lengthOther := differs.perfectOther.length_siblingPath insideOther
    rw [← differs.depth_eq] at lengthOther
    rw [List.getElem?_eq_none (by omega), List.getElem?_eq_none (by omega)]

/-- The changed leaf is never beside its own way, so the path there stays the same. -/
theorem DiffersAt.siblingPath_changed (differs : tree.DiffersAt opposite changed)
    (inside : changed < tree.capacity) :
    tree.siblingPath changed = opposite.siblingPath changed := by
  -- On no level is a slot of the way its own sibling.
  apply List.ext_getElem?
  intro level
  exact differs.getElem?_siblingPath inside (sibling_ne _).symm

/-- The changed digest climbs to the changed root along the path of the tree before the change. -/
theorem DiffersAt.climb_changed (differs : tree.DiffersAt opposite changed)
    (inside : changed < tree.capacity) :
    climb H (opposite.node (tree.capacity + changed)) changed (tree.siblingPath changed) =
      opposite.root := by
  -- The path is also that of the tree after the change, where the digest is in the slot.
  rw [differs.siblingPath_changed inside, differs.capacity_eq]
  exact differs.perfectOther.climb_siblingPath (differs.capacity_eq ▸ inside)

/-- Equally many digests that agree but for one are arranged in trees that agree but for one leaf
slot. -/
theorem differsAt_arrange {padding paddingOther : Padding} {digests others : List D}
    {capacity : Nat} (accepted : padding.capacity digests.length = .ok capacity)
    (acceptedOther : paddingOther.capacity others.length = .ok capacity)
    (agree : ∀ place, place ≠ changed → digests[place]? = others[place]?) :
    (arrange H capacity digests).DiffersAt (arrange H capacity others) changed where
  -- Both trees are perfect for themselves, and a leaf slot shows its own digest.
  perfect := perfect_arrange accepted
  perfectOther := perfect_arrange acceptedOther
  capacity_eq := rfl
  node_leaf leaf inside apart := by
    rw [capacity_arrange] at inside ⊢
    rw [node_arrange_leaf inside, node_arrange_leaf inside, agree leaf apart]

/--
A change of one leaf digest stays on the way from its slot to the root.

All other slots hold the same digests, and the changed leaf has the same opening, along which its
new digest climbs to the new root. The path of any other leaf may change on a single level, the one
where the changed leaf is below the slot beside the way.
-/
theorem leaf_change_stays_on_way {padding paddingOther : Padding} {digests others : List D}
    (built : (ofDigests H padding digests).value = .ok tree)
    (builtOther : (ofDigests H paddingOther others).value = .ok opposite)
    (length : digests.length = others.length)
    (agree : ∀ place, place ≠ changed → digests[place]? = others[place]?) {digest : D}
    (found : others[changed]? = some digest) :
    tree.capacity = opposite.capacity ∧
      (∀ slot, slot < 2 * tree.capacity →
        (∀ level, level ≤ tree.depth → slot ≠ (tree.capacity + changed) >>> level) →
        tree.node slot = opposite.node slot) ∧
      (∃ opening, (tree.openAt changed).value = .ok opening ∧
        (opposite.openAt changed).value = .ok opening ∧ opening.index.toNat = changed ∧
        opposite.root = climb H digest changed opening.path) ∧
      ∀ index, index < digests.length → index ≠ changed → ∃ single opening changedOpening,
        (tree.openAt index).value = .ok opening ∧
          (opposite.openAt index).value = .ok changedOpening ∧
          (∀ level, sibling (index >>> level) = changed >>> level ↔ level = single) ∧
          ∀ level, level ≠ single → opening.path[level]? = changedOpening.path[level]? := by
  obtain ⟨capacity, accepted, rfl⟩ := ofDigests_value_eq_ok_iff.mp built
  obtain ⟨same, acceptedOther, rfl⟩ := ofDigests_value_eq_ok_iff.mp builtOther
  -- The number of leaves alone decides how many leaf slots there are.
  obtain rfl : capacity = same := by
    obtain ⟨-, -, -, least⟩ := Padding.capacity_eq_ok_iff.mp accepted
    obtain ⟨-, -, -, leastOther⟩ := Padding.capacity_eq_ok_iff.mp acceptedOther
    rw [least, leastOther, length]
  have differs : (arrange H capacity digests).DiffersAt (arrange H capacity others) changed :=
    differsAt_arrange accepted acceptedOther agree
  have room : digests.length ≤ capacity := differs.perfect.leafCount_le
  have leaf : changed < others.length := (List.getElem?_eq_some_iff.mp found).1
  have slot : changed < capacity := by omega
  refine ⟨rfl, ?_, ?_, ?_⟩
  · intro slot inside apart
    rcases Nat.eq_zero_or_pos slot with rfl | named
    · -- The unused slot is on no level, and holds the zero digest in every tree.
      rw [node_arrange_zero (by omega), node_arrange_zero (by omega)]
    · exact differs.node_slot named inside apart
  · have held : changed < digests.length := by omega
    refine ⟨_, openAt_of_lt held, ?_, differs.perfect.toNat_ofNat_index slot, ?_⟩
    · rw [openAt_of_lt (show changed < (arrange H capacity others).leafCount from leaf),
        differs.siblingPath_changed slot]
    · rw [← differs.climb_changed slot, capacity_arrange, node_arrange_leaf slot, found,
        Option.getD_some]
  · -- The ways from two leaves run beside each other on exactly one level.
    intro index ranged apart
    have rangedOther : index < others.length := by omega
    have wide := differs.perfect.capacity_eq
    rw [capacity_arrange] at wide
    obtain ⟨single, -, beside⟩ := exists_shiftRight_eq_sibling_iff
      (show changed < levelWidth (arrange H capacity digests).depth by omega)
      (show index < levelWidth (arrange H capacity digests).depth by omega) apart.symm
    refine ⟨single, _, _, openAt_of_lt ranged, openAt_of_lt rangedOther,
      fun level => eq_comm.trans (beside level), ?_⟩
    intro level other
    exact differs.getElem?_siblingPath (show index < capacity by omega)
      (fun meets => other ((beside level).mp meets))

/-- A change of the second of three leaves leaves the right half alone, and with it the sibling of
the third leaf. -/
theorem leaf_change_stays_on_way_second :
    let digests := [[1], [2], [3]].map Hasher.fnv.leaf
    let others := [[1], [9], [3]].map Hasher.fnv.leaf
    let tree := arrange Hasher.fnv 4 digests
    let opposite := arrange Hasher.fnv 4 others
    (ofDigests Hasher.fnv .zeros digests).value = .ok tree ∧
      (ofDigests Hasher.fnv .zeros others).value = .ok opposite ∧
      digests.length = others.length ∧ (∀ place, place ≠ 1 → digests[place]? = others[place]?) ∧
      others[1]? = some (Hasher.fnv.leaf [9]) ∧ tree.node 3 = opposite.node 3 ∧
      (∃ opening, (tree.openAt 1).value = .ok opening ∧
        opposite.root = climb Hasher.fnv (Hasher.fnv.leaf [9]) 1 opening.path) ∧
      ∃ opening changedOpening, (tree.openAt 2).value = .ok opening ∧
        (opposite.openAt 2).value = .ok changedOpening ∧
        opening.path[0]? = changedOpening.path[0]? := by
  intro digests others tree opposite
  have accepted : Padding.zeros.capacity 3 = .ok 4 := Padding.capacity_eq_ok_iff.mpr (by decide)
  have built : (ofDigests Hasher.fnv .zeros digests).value = .ok tree :=
    ofDigests_value_eq_ok_iff.mpr ⟨4, accepted, rfl⟩
  have builtOther : (ofDigests Hasher.fnv .zeros others).value = .ok opposite :=
    ofDigests_value_eq_ok_iff.mpr ⟨4, accepted, rfl⟩
  have agree : ∀ place, place ≠ 1 → digests[place]? = others[place]? := by
    intro place apart
    match place with
    | 0 => rfl
    | 1 => exact absurd rfl apart
    | place + 2 => rfl
  have found : others[1]? = some (Hasher.fnv.leaf [9]) := rfl
  obtain ⟨-, slots, own, paths⟩ := leaf_change_stays_on_way built builtOther rfl agree found
  obtain ⟨opening, opened, -, -, root⟩ := own
  obtain ⟨single, path, changedPath, opens, opensOther, beside, same⟩ :=
    paths 2 (by decide) (by decide)
  -- The second leaf is not beside the third one.
  have apart : 0 ≠ single := fun first => absurd ((beside 0).mpr first) (by decide)
  exact ⟨built, builtOther, rfl, agree, found, slots 3 (by decide) (by decide),
    ⟨opening, opened, root⟩, path, changedPath, opens, opensOther, same 0 apart⟩

end Merkle.Tree
