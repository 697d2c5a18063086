import Merkle.Proofs.Path.Binding

/-! Climbs from different positions to one digest, which meet where their positions do. -/

namespace Merkle

/-- The digest that a path leads to within the given number of levels. -/
def reached (H : Hasher D) (running : D) (position : Nat) (path : List D) (level : Nat) : D :=
  -- More levels than the path has lead to its end.
  climb H running position (path.take level)

/-- A further level joins what was reached with the sibling there. -/
theorem reached_succ (H : Hasher D) (running : D) (position : Nat) {path : List D} {level : Nat}
    {beside : D} (found : path[level]? = some beside) :
    reached H running position path (level + 1) =
      join H (position >>> level) (reached H running position path level) beside := by
  -- The siblings so far are as many as the levels that were climbed.
  have inside := (List.getElem?_eq_some_iff.mp found).1
  have length : (path.take level).length = level := List.length_take_of_le (by omega)
  rw [reached, List.take_add_one, found, climb_append, length]
  rfl

/-- The pair merged on a level consists of what was reached there and the sibling. -/
theorem getElem?_climbPairs (H : Hasher D) (running : D) (position : Nat) {path : List D}
    {level : Nat} {beside : D} (found : path[level]? = some beside) :
    (climbPairs H running position path)[level]? =
      some (ordered (position >>> level) (reached H running position path level) beside) := by
  induction path generalizing running position level with
  | nil => cases found
  | cons first rest ih =>
    cases level with
    | zero =>
      cases found
      rfl
    | succ level =>
      -- The remaining levels are climbed from the position of the parent.
      rw [climbPairs, List.getElem?_cons_succ, ih _ _ found, Nat.shiftRight_succ_inside]
      rfl

/-- A collision behind equally many pairs is one of the whole climbs. -/
theorem PairsCollide.append {H : Hasher D} {pairs others : List (D × D)}
    {front opposite : List (D × D)} (length : front.length = opposite.length)
    (collide : PairsCollide H pairs others) :
    PairsCollide H (front ++ pairs) (opposite ++ others) := by
  -- The fronts are removed pair by pair, as long as both have one.
  induction front generalizing opposite with
  | nil =>
    obtain rfl := List.length_eq_zero_iff.mp length.symm
    exact collide
  | cons pair front ih =>
    obtain ⟨other, opposite, rfl⟩ := List.exists_cons_of_length_eq_add_one length.symm
    exact (ih (Nat.succ.inj length)).above pair other

/-- Two positions have the same half, and are not the same, exactly when they are siblings. -/
theorem eq_sibling_iff {position other : Nat} :
    position = sibling other ↔ position / 2 = other / 2 ∧ position ≠ other := by
  -- A sibling has the same half and the other parity, and these two determine a number.
  have half := sibling_div_two other
  have parity := sibling_mod_two other
  omega

/-- Different positions below a level's width become siblings on one of the levels above. -/
theorem exists_shiftRight_eq_sibling {depth position other : Nat}
    (inside : position < levelWidth depth) (insideOther : other < levelWidth depth)
    (differ : position ≠ other) :
    ∃ level, level < depth ∧ position >>> level = sibling (other >>> level) := by
  induction depth generalizing position other with
  | zero =>
    rw [levelWidth_zero] at inside insideOther
    omega
  | succ depth ih =>
    rw [levelWidth_succ] at inside insideOther
    by_cases meet : position / 2 = other / 2
    · -- Positions with one parent are siblings right away.
      exact ⟨0, Nat.succ_pos depth, eq_sibling_iff.mpr ⟨meet, differ⟩⟩
    · obtain ⟨level, below, beside⟩ := ih (by omega) (by omega) meet
      refine ⟨level + 1, by omega, ?_⟩
      rwa [Nat.shiftRight_succ_inside, Nat.shiftRight_succ_inside]

/-- Above a level where they are siblings, two positions are the same. -/
theorem shiftRight_eq_of_lt {position other low high : Nat}
    (beside : position >>> low = sibling (other >>> low)) (above : low < high) :
    position >>> high = other >>> high := by
  obtain ⟨rest, rfl⟩ := Nat.exists_eq_add_of_lt above
  -- Siblings have one parent, and both ways go on from there.
  rw [Nat.add_right_comm, Nat.shiftRight_add, Nat.shiftRight_add other, Nat.shiftRight_succ,
    Nat.shiftRight_succ, beside, sibling_div_two]

/-- Different positions below a level's width become siblings on exactly one level. -/
theorem exists_shiftRight_eq_sibling_iff {depth position other : Nat}
    (inside : position < levelWidth depth) (insideOther : other < levelWidth depth)
    (differ : position ≠ other) :
    ∃ single, single < depth ∧
      ∀ level, position >>> level = sibling (other >>> level) ↔ level = single := by
  obtain ⟨single, below, beside⟩ := exists_shiftRight_eq_sibling inside insideOther differ
  refine ⟨single, below, fun level => ⟨fun again => ?_, fun same => same ▸ beside⟩⟩
  -- Of two levels, the positions would be the same on the upper one.
  rcases Nat.lt_trichotomy level single with lower | same | higher
  · have meet := shiftRight_eq_of_lt again lower
    exact absurd (beside.symm.trans meet) (sibling_ne _)
  · exact same
  · have meet := shiftRight_eq_of_lt beside higher
    exact absurd (again.symm.trans meet) (sibling_ne _)

/-- Positions that are siblings on some level are not yet at the root there. -/
theorem lt_of_shiftRight_eq_sibling {depth position other level : Nat}
    (inside : position < levelWidth depth) (insideOther : other < levelWidth depth)
    (beside : position >>> level = sibling (other >>> level)) : level < depth := by
  apply Nat.lt_of_not_le
  intro above
  -- No position is left on the level of the root or above it.
  have none : ∀ {place : Nat}, place < levelWidth depth → place >>> level = 0 := by
    intro place within
    have wide := levelWidth_le_levelWidth above
    have last : place >>> level < levelWidth 0 :=
      shiftRight_lt_levelWidth level (Nat.lt_of_lt_of_le within wide)
    exact Nat.lt_one_iff.mp last
  have differ := (eq_sibling_iff.mp beside).2
  rw [none inside, none insideOther] at differ
  exact differ rfl

section Meeting

variable {H : Hasher D} {first second : D} {position other : Nat} {path opposite : List D}

/--
From a level where their positions are the same, climbs to one digest agree in what they reached
and in the siblings that follow, unless they merge a collision.
-/
theorem reached_eq_of_shiftRight_eq (length : path.length = opposite.length)
    (meet : climb H first position path = climb H second other opposite) {level : Nat}
    (crossed : level ≤ path.length) (shared : position >>> level = other >>> level) :
    (reached H first position path level = reached H second other opposite level ∧
        path.drop level = opposite.drop level) ∨
      PairsCollide H (climbPairs H first position path) (climbPairs H second other opposite) := by
  have low : (path.take level).length = level := List.length_take_of_le crossed
  have lowOther : (opposite.take level).length = level := List.length_take_of_le (by omega)
  rw [← List.take_append_drop level path, ← List.take_append_drop level opposite, climb_append,
    climb_append, low, lowOther, shared] at meet
  -- The rest of both climbs starts at one position.
  rcases climb_binding (by simp [length]) meet with agree | collide
  · exact .inl agree
  · right
    rw [← List.take_append_drop level path, ← List.take_append_drop level opposite,
      climbPairs_append, climbPairs_append, low, lowOther, shared]
    exact collide.append (by rw [length_climbPairs, length_climbPairs, low, lowOther])

/--
On the level where their positions are siblings, each of two climbs to one digest passes what the
other one reached, unless they merge a collision.
-/
theorem reached_eq_of_shiftRight_eq_sibling (length : path.length = opposite.length)
    (meet : climb H first position path = climb H second other opposite) {level : Nat}
    (crossed : level < path.length) (beside : position >>> level = sibling (other >>> level)) :
    (path[level]? = some (reached H second other opposite level) ∧
        opposite[level]? = some (reached H first position path level)) ∨
      PairsCollide H (climbPairs H first position path) (climbPairs H second other opposite) := by
  have crossedOther : level < opposite.length := length ▸ crossed
  have found := List.getElem?_eq_getElem crossed
  have foundOther := List.getElem?_eq_getElem crossedOther
  -- Siblings have one parent, where both climbs have reached the same digest.
  have parent : position >>> (level + 1) = other >>> (level + 1) := by
    rw [Nat.shiftRight_succ, Nat.shiftRight_succ, beside, sibling_div_two]
  rcases reached_eq_of_shiftRight_eq length meet crossed parent with ⟨joined, -⟩ | collide
  · rw [reached_succ H first position found, reached_succ H second other foundOther] at joined
    have pair := getElem?_climbPairs H first position found
    have pairOther := getElem?_climbPairs H second other foundOther
    rw [beside] at joined pair
    by_cases same : ordered (sibling (other >>> level)) (reached H first position path level)
        path[level] =
        ordered (other >>> level) (reached H second other opposite level) opposite[level]
    · have turn := sibling_mod_two (other >>> level)
      obtain ⟨running, sibling⟩ := (ordered_swap_inj (by omega)).mp same
      exact .inl ⟨by rw [found, sibling], by rw [foundOther, running]⟩
    · -- Different pairs with one parent are themselves the collision.
      exact .inr ⟨level, _, _, pair, pairOther, same, joined⟩
  · exact .inr collide

end Meeting

end Merkle
