import Merkle.Proofs.Path.Siblings

/-! Climbs that end at one digest agree all the way, unless they merge a collision. -/

namespace Merkle

/-- At some level, two climbs merge different pairs to the same digest. -/
def PairsCollide (H : Hasher D) (pairs others : List (D × D)) : Prop :=
  -- The level is the same in both climbs, counted from the first pair of each.
  ∃ (level : Nat) (pair other : D × D),
    pairs[level]? = some pair ∧ others[level]? = some other ∧
      pair ≠ other ∧ H.merge pair.1 pair.2 = H.merge other.1 other.2

/-- A climb merges one pair for each sibling. -/
@[simp] theorem length_climbPairs (H : Hasher D) (running : D) (position : Nat) (path : List D) :
    (climbPairs H running position path).length = path.length := by
  -- The pairs follow the recursion over the siblings.
  induction path generalizing running position with
  | nil => rfl
  | cons beside rest ih => rw [climbPairs, List.length_cons, List.length_cons, ih]

/-- A collision above the first level is one of the whole climbs. -/
theorem PairsCollide.above {H : Hasher D} {pairs others : List (D × D)} (pair other : D × D)
    (collide : PairsCollide H pairs others) :
    PairsCollide H (pair :: pairs) (other :: others) := by
  -- One more pair in front moves the level up by one.
  obtain ⟨level, found, opposite, hit, hitOther, differ, same⟩ := collide
  exact ⟨level + 1, found, opposite, hit, hitOther, differ, same⟩

/-- Equally long climbs from one position to one digest start alike and pass the same siblings. -/
theorem climb_binding {H : Hasher D} {first second : D} {position : Nat} {path other : List D}
    (length : path.length = other.length)
    (meet : climb H first position path = climb H second position other) :
    (first = second ∧ path = other) ∨
      PairsCollide H (climbPairs H first position path) (climbPairs H second position other) := by
  induction path generalizing first second position other with
  | nil =>
    -- Climbs without a sibling end where they start.
    obtain rfl := List.length_eq_zero_iff.mp length.symm
    exact .inl ⟨meet, rfl⟩
  | cons beside rest ih =>
    obtain ⟨opposite, others, rfl⟩ := List.exists_cons_of_length_eq_add_one length.symm
    -- The climbs agree above the first level, or collide there.
    rcases ih (Nat.succ.inj length) meet with ⟨joined, rfl⟩ | collide
    · by_cases pairs : ordered position first beside = ordered position second opposite
      · obtain ⟨rfl, rfl⟩ := ordered_inj.mp pairs
        exact .inl ⟨rfl, rfl⟩
      · -- Different pairs with one parent are themselves the collision.
        exact .inr ⟨0, _, _, rfl, rfl, pairs, joined⟩
    · exact .inr (collide.above _ _)

/-- A path that leads to the root is the path beside the slot, unless it merges a collision. -/
theorem climb_root_binding {H : Hasher D} {node : Nat → D} {bound : Nat}
    (merged : ParentsMerge H node bound) {slot : Nat} (named : 1 ≤ slot)
    (inside : slot / 2 < bound) {digest : D} {path : List D} (length : path.length = slot.log2)
    (reaches : climb H digest slot path = node 1) :
    (digest = node slot ∧ path = (siblingSlots slot).map node) ∨
      ∃ level pair, level < slot.log2 ∧ (climbPairs H digest slot path)[level]? = some pair ∧
        childPair node (slot >>> (level + 1)) ≠ pair ∧
        H.merge (childPair node (slot >>> (level + 1))).1
          (childPair node (slot >>> (level + 1))).2 = H.merge pair.1 pair.2 := by
  have honest := climb_siblingSlots merged named inside
  rcases climb_binding (by simp [length]) (reaches.trans honest.symm) with agree | collide
  · exact .inl agree
  · -- The honest climb merges the digests below the ancestors of the slot.
    obtain ⟨level, pair, other, found, foundHonest, differ, same⟩ := collide
    rw [climbPairs_siblingSlots merged inside, List.getElem?_map] at foundHonest
    obtain ⟨reached, ranged, rfl⟩ := Option.map_eq_some_iff.mp foundHonest
    obtain ⟨crossed, value⟩ := List.getElem?_eq_some_iff.mp ranged
    rw [List.getElem_range] at value
    rw [List.length_range] at crossed
    subst value
    exact .inr ⟨level, pair, crossed, found, differ.symm, same.symm⟩

/-- A path in two parts merges the pairs of the first part and then those of the second. -/
theorem climbPairs_append (H : Hasher D) (running : D) (position : Nat) (low high : List D) :
    climbPairs H running position (low ++ high) =
      climbPairs H running position low ++
        climbPairs H (climb H running position low) (position >>> low.length) high := by
  induction low generalizing running position with
  | nil => rfl
  | cons beside rest ih =>
    -- One sibling fewer in the first part halves the position once less.
    rw [List.cons_append, climbPairs, ih, climbPairs, climb, List.length_cons,
      Nat.shiftRight_succ_inside]
    rfl

/-- A path of at least one sibling leads to the merge of one of its pairs. -/
theorem exists_climb_eq_merge (H : Hasher D) (running : D) (position : Nat) {path : List D}
    (nonempty : path ≠ []) :
    ∃ pair ∈ climbPairs H running position path,
      climb H running position path = H.merge pair.1 pair.2 := by
  induction path generalizing running position with
  | nil => exact absurd rfl nonempty
  | cons beside rest ih =>
    cases rest with
    | nil => exact ⟨ordered position running beside, List.mem_singleton_self _, rfl⟩
    | cons next others =>
      -- The last pair of a longer path is among those above its first level.
      obtain ⟨pair, member, merged⟩ := ih (join H position running beside) (position / 2) (by simp)
      exact ⟨pair, List.mem_cons_of_mem _ member, merged⟩

/-- Trees with one root agree in every slot, unless they hold a collision below some slot. -/
theorem nodes_binding {H : Hasher D} {node other : Nat → D} {bound : Nat}
    (merged : ParentsMerge H node bound) (mergedOther : ParentsMerge H other bound)
    (root : node 1 = other 1) :
    (∀ slot, 1 ≤ slot → slot < 2 * bound → node slot = other slot) ∨
      ∃ slot, 1 ≤ slot ∧ slot < bound ∧ childPair node slot ≠ childPair other slot ∧
        H.merge (childPair node slot).1 (childPair node slot).2 =
          H.merge (childPair other slot).1 (childPair other slot).2 := by
  -- Either equal slots always have equal children, or some slot is the first exception.
  by_cases agree : ∀ slot, 1 ≤ slot → slot < bound → node slot = other slot →
      childPair node slot = childPair other slot
  · left
    intro slot named inside
    -- Slots agree from the root downwards, because equal parents have equal children.
    induction slot using Nat.strongRecOn with
    | ind slot ih =>
      by_cases top : slot = 1
      · rw [top, root]
      · have parent := ih (slot / 2) (by omega) (by omega) (by omega)
        have below := agree (slot / 2) (by omega) (by omega) parent
        obtain ⟨left, right⟩ := Prod.mk.inj below
        rcases Nat.mod_two_eq_zero_or_one slot with even | odd
        · have side : 2 * (slot / 2) = slot := by omega
          rwa [side] at left
        · have side : 2 * (slot / 2) + 1 = slot := by omega
          rwa [side] at right
  · -- The slot where the children first differ holds one digest for both pairs.
    right
    simp only [Classical.not_forall] at agree
    obtain ⟨slot, named, inside, same, differ⟩ := agree
    rw [merged slot named inside, mergedOther slot named inside] at same
    exact ⟨slot, named, inside, differ, same⟩

end Merkle
