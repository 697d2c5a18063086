import Merkle.Hasher.Standard
import Merkle.Proofs.Tree.Leaves

/-! What the parts of a path lead to: the slots between a leaf slot and the root. -/

namespace Merkle.Tree

variable {H : Hasher D}

/--
The path beside a leaf slot leads to every ancestor of the slot, and on from each of them to the
root.

Climbing some levels from the digest in the slot yields the digest of the ancestor there, whether or
not a leaf uses the slot. Another slot with the same ancestor has the same path from there on, which
is climbed from the ancestor's digest at the ancestor's place.
-/
theorem partial_climbs_reach_ancestors {tree : Tree H} (constructed : tree.Constructed)
    {index : Nat} (inside : index < tree.capacity) {level : Nat} (within : level ≤ tree.depth) :
    let ancestor := tree.node ((tree.capacity + index) >>> level)
    (UInt64.ofNat index).toNat = index ∧ (tree.siblingPath index).length = tree.depth ∧
      climb H (tree.node (tree.capacity + index)) index ((tree.siblingPath index).take level) =
        ancestor ∧
      ∀ other, other >>> level = index >>> level →
        (tree.siblingPath other).drop level = (tree.siblingPath index).drop level ∧
          climb H ancestor (index >>> level) ((tree.siblingPath other).drop level) = tree.root := by
  intro ancestor
  -- The path is cut in two at the level of the ancestor, and each part is climbed alone.
  have perfect := constructed.perfect
  refine ⟨perfect.toNat_ofNat_index inside, perfect.length_siblingPath inside,
    perfect.climb_take_siblingPath inside within, fun other shared => ?_⟩
  -- Another slot below the ancestor has the same upper part, so the same climb follows.
  have same := perfect.drop_siblingPath_congr within shared
  exact ⟨same, same ▸ perfect.climb_drop_siblingPath inside within⟩

/-- In a tree over five leaves, the last slot climbs to the same slot of the second level as the
sixth one, neither of which a leaf uses. -/
theorem partial_climbs_reach_ancestors_vacant :
    let leaf := fun byte : UInt8 => Hasher.fnv.leaf [byte]
    let tree := arrange Hasher.fnv 8 [leaf 1, leaf 2, leaf 3, leaf 4, leaf 5]
    tree.Constructed ∧ 7 < tree.capacity ∧ 2 ≤ tree.depth ∧ tree.leafCount = 5 ∧
      climb Hasher.fnv Hasher.fnv.zero 7 ((tree.siblingPath 7).take 2) = tree.node 3 ∧
      (tree.siblingPath 5).drop 2 = (tree.siblingPath 7).drop 2 ∧
      climb Hasher.fnv (tree.node 3) 1 ((tree.siblingPath 5).drop 2) = tree.root := by
  intro leaf tree
  have accepted : Padding.zeros.capacity 5 = .ok 8 := Padding.capacity_eq_ok_iff.mpr (by decide)
  have constructed : tree.Constructed := constructed_arrange accepted
  have inside : 7 < tree.capacity := by decide
  have within : 2 ≤ tree.depth := by decide
  have ancestor : (tree.capacity + 7) >>> 2 = 3 := by decide
  have place : 7 >>> 2 = 1 := by decide
  have vacant : tree.node (tree.capacity + 7) = Hasher.fnv.zero :=
    constructed.perfect.node_vacant 7 (by decide) inside
  obtain ⟨-, -, climbed, shared⟩ := partial_climbs_reach_ancestors constructed inside within
  -- The sixth and the eighth slot share their ancestors from the second level on.
  obtain ⟨same, reaches⟩ := shared 5 (by decide)
  rw [vacant, ancestor] at climbed
  rw [ancestor, place] at reaches
  exact ⟨constructed, inside, within, rfl, climbed, same, reaches⟩

end Merkle.Tree
