import Merkle.Path
import Merkle.Proofs.Level

/-! The slots beside the way to the root, and the climb along the digests they hold. -/

namespace Merkle

/-- Siblings have the same parent. -/
theorem sibling_div_two (slot : Nat) : sibling slot / 2 = slot / 2 := by
  -- Only the last binary digit tells siblings apart, and halving drops it.
  rw [sibling, Nat.xor_div_two]
  exact Nat.xor_zero _

/-- One of two siblings is even and the other one is odd. -/
theorem sibling_mod_two (slot : Nat) : sibling slot % 2 = 1 - slot % 2 := by
  -- The last binary digit is the one that is flipped.
  have parity : sibling slot % 2 = 1 ↔ ¬(slot % 2 = 1 ↔ 1 % 2 = 1) := Nat.xor_mod_two_eq_one
  omega

/-- No slot is its own sibling. -/
theorem sibling_ne (slot : Nat) : sibling slot ≠ slot := by
  -- Their parities differ.
  have parity := sibling_mod_two slot
  omega

/-- Below the root, siblings are on one level, and their places there are siblings. -/
theorem sibling_levelWidth_add {depth : Nat} (below : 0 < depth) (place : Nat) :
    sibling (levelWidth depth + place) = levelWidth depth + sibling place := by
  obtain ⟨above, rfl⟩ := Nat.exists_eq_add_one_of_ne_zero (Nat.ne_of_gt below)
  -- Both sides have the same half and the same parity.
  have half := sibling_div_two (levelWidth (above + 1) + place)
  have parity := sibling_mod_two (levelWidth (above + 1) + place)
  have halfPlace := sibling_div_two place
  have parityPlace := sibling_mod_two place
  have wide := levelWidth_succ above
  omega

/-- Below the root, a level has a slot at the sibling of every place it has. -/
theorem sibling_lt_levelWidth {depth place : Nat} (below : 0 < depth)
    (inside : place < levelWidth depth) : sibling place < levelWidth depth := by
  obtain ⟨above, rfl⟩ := Nat.exists_eq_add_one_of_ne_zero (Nat.ne_of_gt below)
  -- The places of a level are those whose halves are places of the level above.
  have half := sibling_div_two place
  rw [levelWidth_succ] at inside ⊢
  omega

/-- No slot lies beside the way from the root. -/
theorem siblingSlots_of_le_one {slot : Nat} (top : slot ≤ 1) : siblingSlots slot = [] := by
  -- The walk ends at the root, and it also ends at the slot that is never used.
  rw [siblingSlots, if_pos top]

/-- Below the root, the way begins beside the slot and goes on from its parent. -/
theorem siblingSlots_of_one_lt {slot : Nat} (below : 1 < slot) :
    siblingSlots slot = sibling slot :: siblingSlots (slot / 2) := by
  -- Only the root and the unused slot have no parent.
  rw [siblingSlots, if_neg (by omega)]

/-- The slots beside the way are the siblings of the slot and of its ancestors below the root. -/
theorem siblingSlots_eq_map (slot : Nat) :
    siblingSlots slot = (List.range slot.log2).map fun level => sibling (slot >>> level) := by
  -- The way and the logarithm both halve the slot until they meet the root.
  induction slot using siblingSlots.induct with
  | case1 slot top =>
    rw [siblingSlots_of_le_one top, Nat.log2_def, if_neg (by omega)]
    rfl
  | case2 slot below ih =>
    -- The ancestors of the parent are those of the slot, one level higher.
    rw [siblingSlots_of_one_lt (by omega), Nat.log2_def, if_pos (by omega), ih,
      List.range_succ_eq_map, List.map_cons, List.map_map]
    simp only [Nat.shiftRight_succ_inside, Nat.shiftRight_zero, Function.comp_def,
      Nat.succ_eq_add_one]

/-- There is one sibling on every level below the root. -/
@[simp] theorem length_siblingSlots (slot : Nat) : (siblingSlots slot).length = slot.log2 := by
  -- The logarithm of a slot is its distance from the root.
  rw [siblingSlots_eq_map, List.length_map, List.length_range]

/-- The rest of the way is the way from an ancestor. -/
theorem drop_siblingSlots (level slot : Nat) :
    (siblingSlots slot).drop level = siblingSlots (slot >>> level) := by
  induction level generalizing slot with
  | zero => rfl
  | succ level ih =>
    by_cases top : slot ≤ 1
    · -- Halving the root or the unused slot does not lead back below the root.
      have half : slot / 2 ≤ 1 := by omega
      rw [Nat.shiftRight_succ_inside, ← ih, siblingSlots_of_le_one top, siblingSlots_of_le_one half,
        List.drop_nil, List.drop_nil]
    · rw [siblingSlots_of_one_lt (by omega), List.drop_succ_cons, ih, Nat.shiftRight_succ_inside]

/-- Two ordered pairs from one position have equal running digests and equal siblings. -/
theorem ordered_inj {position : Nat} {running beside other opposite : D} :
    ordered position running beside = ordered position other opposite ↔
      running = other ∧ beside = opposite := by
  -- The position puts the running digest on the same side of both pairs.
  unfold ordered
  split
  · rw [Prod.mk.injEq]
  · rw [Prod.mk.injEq, and_comm]

/-- Positions with the same last binary digit order digests alike. -/
theorem ordered_congr {position other : Nat} (turn : position % 2 = other % 2)
    (running beside : D) : ordered position running beside = ordered other running beside := by
  -- The order is chosen by that digit alone.
  rw [ordered, ordered, turn]

/-- Positions with different last digits order digests alike when each has the other's running
digest beside its own. -/
theorem ordered_swap_inj {position other : Nat} (turn : position % 2 ≠ other % 2)
    {running beside second opposite : D} :
    ordered position running beside = ordered other second opposite ↔
      running = opposite ∧ beside = second := by
  -- The running digests are on different sides of their pairs.
  unfold ordered
  rcases Nat.mod_two_eq_zero_or_one position with even | odd
  · -- The first pair begins with its running digest, and the second one with its sibling.
    rw [if_pos even, if_neg (by omega), Prod.mk.injEq]
  · -- It is the other way around.
    rw [if_neg (by omega), if_pos (by omega), Prod.mk.injEq, and_comm]

/-- The digests in the two slots below a slot, left one first. -/
def childPair (node : Nat → D) (slot : Nat) : D × D :=
  -- The function stands for any assignment of digests to slots, as that of a tree.
  (node (2 * slot), node (2 * slot + 1))

/-- A slot and its sibling are the two slots below their parent. -/
theorem ordered_sibling (node : Nat → D) (slot : Nat) :
    ordered slot (node slot) (node (sibling slot)) = childPair node (slot / 2) := by
  have half := sibling_div_two slot
  have parity := sibling_mod_two slot
  unfold ordered childPair
  split
  · -- An even slot is the left one of the two.
    have left : 2 * (slot / 2) = slot := by omega
    have right : 2 * (slot / 2) + 1 = sibling slot := by omega
    rw [left, ← right, left]
  · -- An odd slot is the right one.
    have left : 2 * (slot / 2) = sibling slot := by omega
    have right : 2 * (slot / 2) + 1 = slot := by omega
    rw [right, left]

/-- Every slot from the root to the one before the bound holds the merge of the slots below it. -/
def ParentsMerge (H : Hasher D) (node : Nat → D) (bound : Nat) : Prop :=
  -- The slot that is never used has no digest to agree with.
  ∀ slot, 1 ≤ slot → slot < bound → node slot = H.merge (node (2 * slot)) (node (2 * slot + 1))

/-- A digest joined with its sibling is the digest of their parent. -/
theorem join_sibling {H : Hasher D} {node : Nat → D} {bound : Nat}
    (merged : ParentsMerge H node bound) {slot : Nat} (below : 1 < slot)
    (inside : slot / 2 < bound) :
    join H slot (node slot) (node (sibling slot)) = node (slot / 2) := by
  -- The parent is no leaf slot, so it holds the merge of what is joined.
  rw [merged (slot / 2) (by omega) inside, join, ordered_sibling]
  rfl

/-- Climbing some levels along the siblings of a slot leads to its ancestor on the last of them. -/
theorem climb_take_siblingSlots {H : Hasher D} {node : Nat → D} {bound : Nat}
    (merged : ParentsMerge H node bound) {level slot : Nat} (reached : level ≤ slot.log2)
    (inside : slot / 2 < bound) :
    climb H (node slot) slot (((siblingSlots slot).take level).map node) =
      node (slot >>> level) := by
  induction level generalizing slot with
  | zero => rfl
  | succ level ih =>
    -- A slot with a level above it is not the root.
    rw [Nat.log2_def] at reached
    have below : 1 < slot := by
      split at reached <;> omega
    rw [if_pos (by omega)] at reached
    rw [siblingSlots_of_one_lt below, List.take_succ_cons, List.map_cons, climb,
      join_sibling merged below inside, ih (by omega) (by omega), Nat.shiftRight_succ_inside]

/-- Climbing along all siblings of a slot leads to the root. -/
theorem climb_siblingSlots {H : Hasher D} {node : Nat → D} {bound : Nat}
    (merged : ParentsMerge H node bound) {slot : Nat} (named : 1 ≤ slot)
    (inside : slot / 2 < bound) :
    climb H (node slot) slot ((siblingSlots slot).map node) = node 1 := by
  -- As many levels lie above the slot as the climb crosses.
  have climbed := climb_take_siblingSlots merged (Nat.le_refl slot.log2) inside
  rwa [List.take_of_length_le (by simp), shiftRight_log2 named] at climbed

/-- The pairs merged along the siblings of a slot are the ones below its ancestors. -/
theorem climbPairs_siblingSlots {H : Hasher D} {node : Nat → D} {bound : Nat}
    (merged : ParentsMerge H node bound) {slot : Nat} (inside : slot / 2 < bound) :
    climbPairs H (node slot) slot ((siblingSlots slot).map node) =
      (List.range slot.log2).map fun level => childPair node (slot >>> (level + 1)) := by
  induction slot using siblingSlots.induct with
  | case1 slot top =>
    rw [siblingSlots_of_le_one top, Nat.log2_def, if_neg (by omega)]
    rfl
  | case2 slot below ih =>
    -- The first pair lies below the parent, and the other ones are those of the parent's way.
    rw [siblingSlots_of_one_lt (by omega), Nat.log2_def, if_pos (by omega),
      List.range_succ_eq_map, List.map_cons, List.map_cons, List.map_map, climbPairs,
      join_sibling merged (by omega) inside, ordered_sibling, ih (by omega)]
    simp only [Nat.shiftRight_succ_inside, Nat.shiftRight_zero, Function.comp_def,
      Nat.succ_eq_add_one]

/-- A slot among slots that hold merges is determined by the slots of the last level below it. -/
theorem ParentsMerge.congr {H : Hasher D} {node other : Nat → D} {depth : Nat}
    (merged : ParentsMerge H node (levelWidth depth))
    (mergedOther : ParentsMerge H other (levelWidth depth)) {level height place : Nat}
    (levels : level + height = depth) (inside : place < levelWidth level)
    (leaves : ∀ leaf, leaf < levelWidth depth → leaf >>> height = place →
      node (levelWidth depth + leaf) = other (levelWidth depth + leaf)) :
    node (levelWidth level + place) = other (levelWidth level + place) := by
  -- The induction goes up from the last level, where a slot is only below itself.
  induction height generalizing level place with
  | zero =>
    obtain rfl : level = depth := levels
    exact leaves place inside rfl
  | succ height ih =>
    subst levels
    have wide := levelWidth_succ level
    have below : levelWidth (level + 1) ≤ levelWidth (level + (height + 1)) :=
      levelWidth_le_levelWidth (by omega)
    have positive := levelWidth_pos level
    have left : 2 * (levelWidth level + place) = levelWidth (level + 1) + 2 * place := by omega
    rw [merged _ (by omega) (by omega), mergedOther _ (by omega) (by omega), left,
      Nat.add_assoc (levelWidth (level + 1))]
    -- What is below a child is below the slot.
    rw [ih (by omega) (by omega) fun leaf ranged reached => leaves leaf ranged (by
        rw [Nat.shiftRight_succ, reached]; omega),
      ih (by omega) (by omega) fun leaf ranged reached => leaves leaf ranged (by
        rw [Nat.shiftRight_succ, reached]; omega)]

/-- A position has no say in a climb but by as many binary digits as the path crosses levels. -/
theorem climb_congr (H : Hasher D) (running : D) {position other : Nat} {path : List D}
    (turns : position % levelWidth path.length = other % levelWidth path.length) :
    climb H running position path = climb H running other path := by
  induction path generalizing running position other with
  | nil => rfl
  | cons beside rest ih =>
    -- Both positions turn the same way, and so do their halves above.
    obtain ⟨turn, above⟩ := mod_levelWidth_succ turns
    rw [climb, climb, ih _ above, join, ordered_congr turn]
    rfl

/-- A position has no say in the pairs that are merged but by as many binary digits. -/
theorem climbPairs_congr (H : Hasher D) (running : D) {position other : Nat} {path : List D}
    (turns : position % levelWidth path.length = other % levelWidth path.length) :
    climbPairs H running position path = climbPairs H running other path := by
  induction path generalizing running position other with
  | nil => rfl
  | cons beside rest ih =>
    -- The first pair is ordered alike, and so are those above it.
    obtain ⟨turn, above⟩ := mod_levelWidth_succ turns
    rw [climbPairs, climbPairs, ih _ above, join, ordered_congr turn]
    rfl

/-- A slot above the levels that a path crosses has no say in where the path turns. -/
theorem climb_levelWidth_add (H : Hasher D) (running : D) (position : Nat) (path : List D) :
    climb H running (levelWidth path.length + position) path = climb H running position path :=
  -- The path turns by the digits below the added one.
  climb_congr H running (Nat.add_mod_left _ _)

/-- A slot above the levels that a path crosses does not change the pairs that are merged. -/
theorem climbPairs_levelWidth_add (H : Hasher D) (running : D) (position : Nat) (path : List D) :
    climbPairs H running (levelWidth path.length + position) path =
      climbPairs H running position path :=
  -- The path turns by the digits below the added one.
  climbPairs_congr H running (Nat.add_mod_left _ _)

end Merkle
