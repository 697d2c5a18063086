import Merkle.Proofs.Opening.Completeness
import Merkle.Proofs.Path.Binding

/-! What a root says of the digests in the leaf slots, where padding looks like zero digests. -/

namespace Merkle.Tree

variable {H : Hasher D}

/-- Zero digests at the end are what padding would add. -/
theorem padded_append_zeros {capacity count : Nat} {digests : List D}
    (room : digests.length + count ≤ capacity) :
    padded H capacity (digests ++ List.replicate count H.zero) = padded H capacity digests := by
  -- The appended zeros and those of padding are as many as padding alone would add.
  have rest : count + (capacity - (digests.length + count)) = capacity - digests.length := by omega
  rw [padded, padded, List.length_append, List.length_replicate, List.append_assoc,
    List.replicate_append_replicate, rest]

/-- The slots of an arranged tree are determined by the padded digests. -/
theorem node_arrange_congr {capacity : Nat} {digests others : List D}
    (same : padded H capacity digests = padded H capacity others) :
    (arrange H capacity digests).node = (arrange H capacity others).node := by
  -- The slots are filled from the padded digests, and the number of leaves plays no part.
  funext slot
  simp only [node, arrange, same]

/-- Below some slot, two trees hold different digests, and yet merge them to the same one. -/
def SlotCollision (tree opposite : Tree H) : Prop :=
  -- The trees have as many slots, so the same slot is compared in both.
  ∃ slot, 1 ≤ slot ∧ slot < tree.capacity ∧ tree.children slot ≠ opposite.children slot ∧
    H.merge (tree.children slot).1 (tree.children slot).2 =
      H.merge (opposite.children slot).1 (opposite.children slot).2

/-- Trees of one capacity have one root only over the same padded digests, unless they collide. -/
theorem padded_binding {padding paddingOther : Padding} {digests others : List D} {capacity : Nat}
    (accepted : padding.capacity digests.length = .ok capacity)
    (acceptedOther : paddingOther.capacity others.length = .ok capacity)
    (root : (arrange H capacity digests).root = (arrange H capacity others).root) :
    padded H capacity digests = padded H capacity others ∨
      SlotCollision (arrange H capacity digests) (arrange H capacity others) := by
  -- Both trees are perfect, so equal roots bind all slots or there is a collision.
  have perfect := perfect_arrange (H := H) accepted
  have perfectOther := perfect_arrange (H := H) acceptedOther
  have room : digests.length ≤ capacity := perfect.leafCount_le
  have roomOther : others.length ≤ capacity := perfectOther.leafCount_le
  rcases nodes_binding perfect.merged perfectOther.merged root with agree | collide
  · left
    -- The padded digests are in the leaf slots, which are the last ones that agree.
    apply List.ext_getElem?
    intro index
    by_cases inside : index < capacity
    · have slot := agree (capacity + index) (by omega) (by rw [capacity_arrange]; omega)
      rw [node_arrange_leaf inside, node_arrange_leaf inside] at slot
      rw [getElem?_padded inside, getElem?_padded inside, slot]
    · rw [List.getElem?_eq_none (by rw [length_padded room]; omega),
        List.getElem?_eq_none (by rw [length_padded roomOther]; omega)]
  · exact .inr collide

/--
At one capacity, the root binds the leaf digests up to zero digests at the end.

Trees over digests that are padded to the same list agree in all slots. Trees that agree in the
root are over such digests, or some slot of both is a collision. Zero digests can be appended in
place of padding without a change of the root, but they count as leaves and can be opened.
-/
theorem root_binds_padded {padding paddingOther : Padding} {digests others : List D}
    {tree opposite : Tree H} (built : (ofDigests H padding digests).value = .ok tree)
    (builtOther : (ofDigests H paddingOther others).value = .ok opposite)
    (capacity : tree.capacity = opposite.capacity) :
    (padded H tree.capacity digests = padded H tree.capacity others →
      (∀ slot, 1 ≤ slot → slot < 2 * tree.capacity → tree.node slot = opposite.node slot) ∧
        tree.root = opposite.root) ∧
      (∀ count, digests.length + count ≤ tree.capacity →
        ∃ longer, (ofDigests H .zeros (digests ++ List.replicate count H.zero)).value = .ok longer ∧
          longer.capacity = tree.capacity ∧ longer.root = tree.root ∧
          tree.leafCount = digests.length ∧ longer.leafCount = digests.length + count ∧
          (∀ index, (∃ opening, (tree.openAt index).value = .ok opening) ↔
            index < digests.length) ∧
          ∀ index, (∃ opening, (longer.openAt index).value = .ok opening) ↔
            index < digests.length + count) ∧
      (tree.root = opposite.root →
        padded H tree.capacity digests = padded H tree.capacity others ∨
          SlotCollision tree opposite) := by
  -- Both trees are arranged over their digests, with the same number of leaf slots.
  obtain ⟨slots, accepted, rfl⟩ := ofDigests_value_eq_ok_iff.mp built
  obtain ⟨same, acceptedOther, rfl⟩ := ofDigests_value_eq_ok_iff.mp builtOther
  obtain rfl : slots = same := capacity
  refine ⟨?_, ?_, padded_binding accepted acceptedOther⟩
  · intro equal
    -- Equal padded digests fill all slots alike, and the root is one of them.
    have nodes : (arrange H slots digests).node = (arrange H slots others).node :=
      node_arrange_congr equal
    exact ⟨fun slot _ _ => congrFun nodes slot, congrFun nodes 1⟩
  · intro count room
    let longer := arrange H slots (digests ++ List.replicate count H.zero)
    have length : longer.leafCount = digests.length + count := by simp [longer]
    -- The appended zeros take the place of padding, so the capacity stays the same.
    have acceptedLonger : Padding.zeros.capacity (digests ++ List.replicate count H.zero).length =
        .ok slots := by
      apply Padding.capacity_zeros_of_le accepted (by simp)
      simpa using room
    have nodes : longer.node = (arrange H slots digests).node :=
      node_arrange_congr (padded_append_zeros room)
    -- Only the numbers of leaves tell the two trees apart, and with them what can be opened.
    refine ⟨longer, ofDigests_value_eq_ok_iff.mpr ⟨slots, acceptedLonger, rfl⟩, rfl,
      congrFun nodes 1, rfl, length, fun index => openAt_isOk_iff, fun index => ?_⟩
    rw [openAt_isOk_iff, length]

/-- Three digests and the same three with a zero digest behind them have one root. -/
theorem root_binds_padded_zero :
    let digests := [[1], [2], [3]].map Hasher.fnv.leaf
    let others := digests ++ [Hasher.fnv.zero]
    let tree := arrange Hasher.fnv 4 digests
    let opposite := arrange Hasher.fnv 4 others
    (ofDigests Hasher.fnv .zeros digests).value = .ok tree ∧
      (ofDigests Hasher.fnv .refused others).value = .ok opposite ∧
      tree.capacity = opposite.capacity ∧
      padded Hasher.fnv 4 digests = padded Hasher.fnv 4 others ∧ tree.root = opposite.root := by
  intro digests others tree opposite
  have built : (ofDigests Hasher.fnv .zeros digests).value = .ok tree :=
    ofDigests_value_eq_ok_iff.mpr ⟨4, Padding.capacity_eq_ok_iff.mpr (by decide), rfl⟩
  have builtOther : (ofDigests Hasher.fnv .refused others).value = .ok opposite :=
    ofDigests_value_eq_ok_iff.mpr ⟨4, Padding.capacity_eq_ok_iff.mpr (by decide), rfl⟩
  -- Neither list needs more than four slots, and the second one fills them all.
  have same : padded Hasher.fnv 4 digests = padded Hasher.fnv 4 others := rfl
  obtain ⟨agree, -, -⟩ := root_binds_padded built builtOther rfl
  exact ⟨built, builtOther, rfl, same, (agree same).2⟩

end Merkle.Tree
