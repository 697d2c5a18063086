import Merkle.Level

/-! Where the slots of a level are, and how halving a slot leads to the levels above. -/

namespace Merkle

/-- A slot of a lower level is below the slot with half its place, one level higher. -/
theorem levelWidth_add_div_two (depth place : Nat) :
    (levelWidth (depth + 1) + place) / 2 = levelWidth depth + place / 2 := by
  -- The lower level is twice as wide, and halving a sum drops the odd place.
  rw [levelWidth_succ]
  omega

/-- Places that differ by widths of a level are even together, and their halves differ by widths of
the level above. -/
theorem mod_levelWidth_succ {depth place other : Nat}
    (turns : place % levelWidth (depth + 1) = other % levelWidth (depth + 1)) :
    place % 2 = other % 2 ∧ place / 2 % levelWidth depth = other / 2 % levelWidth depth := by
  rw [levelWidth_succ] at turns
  -- Both remainders are determined by the one that is the same.
  have parity := congrArg (fun rest => rest % 2) turns
  have half := congrArg (fun rest => rest / 2) turns
  simp only [Nat.mod_mul_right_mod, Nat.mod_mul_right_div_self] at parity half
  exact ⟨parity, half⟩

/-- The logarithm of a slot is the number of levels above it. -/
theorem log2_levelWidth_add {depth place : Nat} (inside : place < levelWidth depth) :
    (levelWidth depth + place).log2 = depth := by
  induction depth generalizing place with
  | zero =>
    -- The only slot of the top level is the root.
    rw [levelWidth_zero] at inside ⊢
    have root : place = 0 := by omega
    subst root
    rfl
  | succ depth ih =>
    have wide := levelWidth_pos depth
    have halved : place / 2 < levelWidth depth := by
      rw [levelWidth_succ] at inside
      omega
    rw [Nat.log2_def, if_pos (by rw [levelWidth_succ]; omega), levelWidth_add_div_two, ih halved]

/-- The logarithm of the number of slots on a level is the depth of the level. -/
@[simp] theorem log2_levelWidth (depth : Nat) : (levelWidth depth).log2 = depth :=
  -- It is the first slot of its level.
  log2_levelWidth_add (levelWidth_pos depth)

/-- Halving a slot as often as there are levels above it leads to the root. -/
theorem shiftRight_log2 {slot : Nat} (named : 1 ≤ slot) : slot >>> slot.log2 = 1 := by
  -- The induction goes from a slot to its parent, which has a lower number.
  induction slot using Nat.strongRecOn with
  | ind slot ih =>
    rw [Nat.log2_def]
    split
    · -- Below the root, the parent has one level less above it.
      rw [Nat.shiftRight_succ_inside]
      exact ih (slot / 2) (by omega) (by omega)
    · have root : slot = 1 := by omega
      subst root
      rfl

/-- Halving a slot no more often than there are levels above it stays within the tree. -/
theorem one_le_shiftRight {level slot : Nat} (named : 1 ≤ slot) (reached : level ≤ slot.log2) :
    1 ≤ slot >>> level := by
  -- The remaining halvings lead on to the root, which the unused slot would not.
  have top := shiftRight_log2 named
  rw [← Nat.add_sub_cancel' reached, Nat.shiftRight_add] at top
  rcases Nat.eq_zero_or_pos (slot >>> level) with zero | positive
  · rw [zero, Nat.zero_shiftRight] at top
    cases top
  · exact positive

/-- Halving a slot once or more leads no farther than to its parent. -/
theorem shiftRight_succ_le (level slot : Nat) : slot >>> (level + 1) ≤ slot / 2 := by
  -- The first halving leads to the parent, and the others only farther up.
  rw [Nat.shiftRight_succ_inside, Nat.shiftRight_eq_div_pow]
  exact Nat.div_le_self _ _

/-- A lower level has at least as many slots. -/
theorem levelWidth_le_levelWidth {depth lower : Nat} (above : depth ≤ lower) :
    levelWidth depth ≤ levelWidth lower := by
  -- Widths are powers of two, with the depth as the exponent.
  rw [levelWidth, levelWidth, Nat.one_shiftLeft, Nat.one_shiftLeft]
  exact Nat.pow_le_pow_right (by omega) above

/-- Only a lower level has more slots. -/
theorem levelWidth_lt_iff {depth lower : Nat} :
    levelWidth depth < levelWidth lower ↔ depth < lower := by
  -- Powers of two with different exponents are different.
  rw [levelWidth, levelWidth, Nat.one_shiftLeft, Nat.one_shiftLeft]
  exact Nat.pow_lt_pow_iff_right (by omega)

/-- Every slot is on the level that its logarithm names. -/
theorem exists_eq_levelWidth_add {slot : Nat} (named : 1 ≤ slot) :
    ∃ place, place < levelWidth slot.log2 ∧ slot = levelWidth slot.log2 + place := by
  -- A number lies between the power of its logarithm and the next power.
  have first : levelWidth slot.log2 ≤ slot := by
    rw [levelWidth, Nat.one_shiftLeft]
    exact Nat.log2_self_le (Nat.ne_of_gt named)
  have next : slot < levelWidth (slot.log2 + 1) := by
    rw [levelWidth, Nat.one_shiftLeft]
    exact Nat.lt_log2_self
  rw [levelWidth_succ] at next
  exact ⟨slot - levelWidth slot.log2, by omega, by omega⟩

/-- The widths of two levels are multiplied when one is put below the other. -/
theorem levelWidth_add (upper lower : Nat) :
    levelWidth (upper + lower) = levelWidth upper * levelWidth lower := by
  -- Widths are powers of two, so the depths are exponents.
  simp only [levelWidth, Nat.one_shiftLeft, Nat.pow_add]

/-- Halving a place some times divides it by the width of as many levels. -/
theorem shiftRight_eq_div_levelWidth (place depth : Nat) :
    place >>> depth = place / levelWidth depth := by
  -- The width is the power of two that a shift divides by.
  rw [levelWidth, Nat.one_shiftLeft, Nat.shiftRight_eq_div_pow]

/-- Halving the place of a slot as often as there are levels above it leaves none. -/
theorem shiftRight_lt_levelWidth {depth place : Nat} (level : Nat)
    (inside : place < levelWidth (level + depth)) : place >>> level < levelWidth depth := by
  -- Each slot of the upper level has a full width of places below it.
  rw [levelWidth_add] at inside
  rw [shiftRight_eq_div_levelWidth]
  exact Nat.div_lt_of_lt_mul inside

/-- Halving a slot some times leads as many levels up, to the slot over the halved place. -/
theorem levelWidth_add_shiftRight (level depth place : Nat) :
    (levelWidth (level + depth) + place) >>> level = levelWidth depth + place >>> level := by
  -- The first slot of a level is halved to the first slot of the level above.
  rw [shiftRight_eq_div_levelWidth, shiftRight_eq_div_levelWidth, levelWidth_add,
    Nat.mul_add_div (levelWidth_pos level)]

/-- A place within a tree that stands in a slot of another tree has the slot's place above it. -/
theorem shiftRight_mul_levelWidth_add {depth lower : Nat} (inside : lower < levelWidth depth)
    (upper : Nat) : (upper * levelWidth depth + lower) >>> depth = upper := by
  -- What is within the tree does not fill another width.
  rw [shiftRight_eq_div_levelWidth, Nat.mul_comm, Nat.mul_add_div (levelWidth_pos depth),
    Nat.div_eq_of_lt inside, Nat.add_zero]

/-- All digits below those of a width are ones, and dropping some of them leaves the others. -/
theorem pred_levelWidth_shiftRight (upper lower : Nat) :
    (levelWidth (upper + lower) - 1) >>> lower = levelWidth upper - 1 := by
  have wide := levelWidth_pos upper
  have narrow := levelWidth_pos lower
  -- The dropped digits are the predecessor of a width themselves.
  have parts : levelWidth (upper + lower) - 1 =
      (levelWidth upper - 1) * levelWidth lower + (levelWidth lower - 1) := by
    have part := Nat.le_mul_of_pos_left (levelWidth lower) wide
    rw [levelWidth_add, Nat.sub_mul, Nat.one_mul]
    omega
  rw [parts, shiftRight_mul_levelWidth_add (by omega)]

/-- Below the slot's place, it has the place within the tree. -/
theorem mul_levelWidth_add_mod {depth lower : Nat} (inside : lower < levelWidth depth)
    (upper : Nat) : (upper * levelWidth depth + lower) % levelWidth depth = lower := by
  -- The multiple of the width drops out, and the place is below the width.
  rw [Nat.mul_comm, Nat.mul_add_mod, Nat.mod_eq_of_lt inside]

/-- A place within a tree in a slot of another one is a place of the trees put below each other. -/
theorem mul_levelWidth_add_lt {depth height lower upper : Nat} (inside : lower < levelWidth depth)
    (insideUpper : upper < levelWidth height) :
    upper * levelWidth depth + lower < levelWidth (depth + height) := by
  -- The other tree has room for the slot as a whole.
  have room : (upper + 1) * levelWidth depth ≤ levelWidth height * levelWidth depth :=
    Nat.mul_le_mul_right _ insideUpper
  rw [Nat.succ_mul] at room
  rw [levelWidth_add, Nat.mul_comm (levelWidth depth) (levelWidth height)]
  omega

end Merkle
