import Merkle.Proofs.Level
import Merkle.Tree.Padding

/-! Which numbers of leaves are accepted, and with how many slots. -/

namespace Merkle

/-- The logarithm of the least capacity is its exponent. -/
@[simp] theorem log2_leastCapacity (count : Nat) : (leastCapacity count).log2 = ceilLog2 count :=
  -- The capacity is the width of the level with that depth.
  log2_levelWidth (ceilLog2 count)

/-- The slots of a level are themselves the least capacity for their number. -/
theorem leastCapacity_levelWidth (depth : Nat) :
    leastCapacity (levelWidth depth) = levelWidth depth :=
  -- There is a slot for every leaf on the level itself, and the capacity is not below that.
  Nat.le_antisymm (leastCapacity_le (Nat.le_refl _)) (le_leastCapacity _)

/-- The powers of two are the numbers of slots that levels have. -/
theorem isPowerOfTwo_iff {number : Nat} :
    number.isPowerOfTwo ↔ ∃ depth, number = levelWidth depth := by
  -- The exponent is the depth of the level.
  simp only [Nat.isPowerOfTwo, levelWidth, Nat.one_shiftLeft]

/-- Exactly the powers of two need no padding. -/
theorem leastCapacity_eq_self_iff {count : Nat} :
    leastCapacity count = count ↔ count.isPowerOfTwo := by
  -- The least capacity is a power of two itself, so the number is one if they agree.
  rw [isPowerOfTwo_iff]
  constructor
  · exact fun same => ⟨ceilLog2 count, same.symm⟩
  · rintro ⟨depth, rfl⟩
    exact leastCapacity_levelWidth depth

/-- The least capacity is on no lower level than any that has a slot for every leaf. -/
theorem ceilLog2_le_iff {count depth : Nat} :
    ceilLog2 count ≤ depth ↔ count ≤ levelWidth depth := by
  -- The width of a level grows with its depth, strictly, so the depths are compared alike.
  constructor
  · intro above
    exact Nat.le_trans (le_leastCapacity count) (levelWidth_le_levelWidth above)
  · intro room
    have least := leastCapacity_le room
    rw [leastCapacity, ← Nat.not_lt, levelWidth_lt_iff] at least
    exact Nat.not_lt.mp least

/-- The greatest capacity is the number of slots one level above the greatest depth. -/
theorem ceilLog2_lt_maxDepth_iff {count : Nat} :
    ceilLog2 count < maxDepth ↔ count ≤ levelWidth (maxDepth - 1) := by
  -- Being below the greatest depth is being at most the one before it.
  rw [← ceilLog2_le_iff, maxDepth]
  omega

/-- Where a level has a slot for every leaf and the one above it has not, it is the least one. -/
theorem leastCapacity_of_between {count depth : Nat} (more : levelWidth depth < count)
    (room : count ≤ levelWidth (depth + 1)) : leastCapacity count = levelWidth (depth + 1) := by
  -- The exponent is at most the depth with enough slots, and more than the one before.
  have below := ceilLog2_le_iff.mpr room
  have above : ¬ceilLog2 count ≤ depth := by
    rw [ceilLog2_le_iff]
    omega
  rw [leastCapacity, Nat.le_antisymm below (Nat.lt_of_not_le above)]

/-- There are fewer slots than twice as many as leaves. -/
theorem leastCapacity_lt_twice {count : Nat} (some : 0 < count) :
    leastCapacity count < 2 * count := by
  cases level : ceilLog2 count with
  | zero =>
    rw [leastCapacity, level, levelWidth_zero]
    omega
  | succ above =>
    -- The level above has half as many slots, which are not enough for the leaves.
    have narrow : ¬count ≤ levelWidth above := by
      rw [← ceilLog2_le_iff]
      omega
    rw [leastCapacity, level, levelWidth_succ]
    omega

/-- A capacity and its double are numbered in 64 bits exactly below the greatest depth. -/
theorem twice_levelWidth_lt_iff {depth : Nat} :
    2 * levelWidth depth < UInt64.size ↔ depth < maxDepth := by
  -- The double is the width of the next lower level, and the number of words is a width as well.
  have words : UInt64.size = levelWidth (maxDepth + 1) := rfl
  rw [words, ← levelWidth_succ, levelWidth_lt_iff]
  omega

/--
The tests of a number of leaves in their order.

The last one, of the capacity and its double, comes down to the number itself.
-/
theorem Padding.capacity_eq (padding : Padding) (count : Nat) :
    padding.capacity count =
      if count = 0 then .error (.invalidInput .noLeaves)
      else if padding = .refused ∧ ¬count.isPowerOfTwo then
        .error (.invalidInput (.notPowerOfTwo count))
      else if count ≤ levelWidth (maxDepth - 1) then .ok (leastCapacity count)
      else .error (.invalidInput (.tooManyLeaves count)) := by
  have uneven : leastCapacity count ≠ count ↔ ¬count.isPowerOfTwo :=
    not_congr leastCapacity_eq_self_iff
  have room : 2 * leastCapacity count < UInt64.size ↔ ceilLog2 count < maxDepth :=
    twice_levelWidth_lt_iff
  -- A double that fits a word leaves nothing to the test of the depth.
  have few : ceilLog2 count ≤ maxDepth ∧ 2 * leastCapacity count < UInt64.size ↔
      count ≤ levelWidth (maxDepth - 1) := by
    rw [room, ← ceilLog2_lt_maxDepth_iff]
    omega
  simp only [Padding.capacity, log2_leastCapacity, uneven, few]

/-- A number is allowed, because it is even or because it may be padded, unless it is refused. -/
theorem Padding.allows_iff {padding : Padding} {even : Prop} :
    (even ∨ padding = .zeros) ↔ ¬(padding = .refused ∧ ¬even) := by
  -- There are two rules, and only one of them asks what the number is like.
  cases padding <;> simp

/-- A number of leaves is accepted with its least capacity, when the rule and the words allow it. -/
theorem Padding.capacity_eq_ok_iff {padding : Padding} {count capacity : Nat} :
    padding.capacity count = .ok capacity ↔
      0 < count ∧ (padding = .zeros ∨ leastCapacity count = count) ∧
        ceilLog2 count < maxDepth ∧ capacity = leastCapacity count := by
  rw [capacity_eq, leastCapacity_eq_self_iff, or_comm, allows_iff, ceilLog2_lt_maxDepth_iff]
  -- A number is accepted when it passes each of the tests.
  by_cases empty : count = 0
  · simp [empty]
  · have some : 0 < count := Nat.pos_of_ne_zero empty
    by_cases uneven : padding = .refused ∧ ¬count.isPowerOfTwo
    · simp [empty, uneven]
    · by_cases few : count ≤ levelWidth (maxDepth - 1)
      · simp [empty, some, uneven, few, eq_comm]
      · simp [empty, uneven, few]

/-- Some capacity is accepted when there are leaves, and neither too many nor against the rule. -/
theorem Padding.capacity_isOk_iff {padding : Padding} {count : Nat} :
    (∃ capacity, padding.capacity count = .ok capacity) ↔
      1 ≤ count ∧ count ≤ levelWidth (maxDepth - 1) ∧
        (count.isPowerOfTwo ∨ padding = .zeros) := by
  -- The capacity is determined by the number, so only the conditions on it are left.
  simp only [capacity_eq_ok_iff, exists_and_left, exists_eq, and_true, leastCapacity_eq_self_iff,
    ceilLog2_lt_maxDepth_iff]
  rw [or_comm, and_comm (a := _ ∨ _)]
  rfl

/-- All slots of a tree over an accepted number of leaves are numbered in words. -/
theorem Padding.twice_capacity_lt {padding : Padding} {count capacity : Nat}
    (accepted : padding.capacity count = .ok capacity) : 2 * capacity < UInt64.size := by
  -- The exponent of the double is still below the number of digits of a word.
  obtain ⟨-, -, shallow, rfl⟩ := capacity_eq_ok_iff.mp accepted
  exact twice_levelWidth_lt_iff.mpr shallow

/-- Where padding is refused, an accepted number of leaves is the capacity itself. -/
theorem Padding.capacity_eq_of_refused {count capacity : Nat}
    (accepted : Padding.refused.capacity count = .ok capacity) : capacity = count := by
  -- The least capacity was compared with the number before it was accepted.
  obtain ⟨-, zeros | same, -, least⟩ := capacity_eq_ok_iff.mp accepted
  · cases zeros
  · exact least.trans same

/-- What the rule holds against a number of leaves, when no earlier test refuses it. -/
def Padding.Refuses (padding : Padding) (count : Nat) : InputFault → Prop
  -- The tests are made in this order, and a fault shows that the earlier ones were passed.
  | .noLeaves => count = 0
  | .notPowerOfTwo number => number = count ∧ count ≠ 0 ∧ padding = .refused ∧ ¬count.isPowerOfTwo
  | .tooManyLeaves number =>
    number = count ∧ levelWidth (maxDepth - 1) < count ∧
      (count.isPowerOfTwo ∨ padding = .zeros)

/-- The first test that fails gives its fault as the error. -/
theorem Padding.capacity_eq_error_iff {padding : Padding} {count : Nat} {fault : InputFault} :
    padding.capacity count = .error (.invalidInput fault) ↔ padding.Refuses count fault := by
  have allowed : (count.isPowerOfTwo ∨ padding = .zeros) ↔
      ¬(padding = .refused ∧ ¬count.isPowerOfTwo) := allows_iff
  rw [capacity_eq]
  -- The faults exclude each other as the tests do.
  by_cases empty : count = 0
  · cases fault <;> simp [Refuses, empty]
  · by_cases uneven : padding = .refused ∧ ¬count.isPowerOfTwo
    · cases fault <;> simp [Refuses, empty, uneven, eq_comm]
    · by_cases few : count ≤ levelWidth (maxDepth - 1)
      · cases fault <;> simp [Refuses, allowed, empty, uneven, few]
      · have many := Nat.lt_of_not_le few
        cases fault <;> simp [Refuses, allowed, empty, uneven, few, many, eq_comm]

/-- As many leaves as a level has slots are accepted under any rule, unless it is too deep. -/
theorem Padding.capacity_levelWidth (padding : Padding) {depth : Nat} (shallow : depth < maxDepth) :
    padding.capacity (levelWidth depth) = .ok (levelWidth depth) := by
  -- The number is a power of two, so no rule asks for padding.
  have least := leastCapacity_levelWidth depth
  have level : ceilLog2 (levelWidth depth) = depth := by
    rw [← log2_leastCapacity, least, log2_levelWidth]
  exact Padding.capacity_eq_ok_iff.mpr
    ⟨levelWidth_pos depth, .inr least, level.symm ▸ shallow, least.symm⟩

/-- More leaves that still have slots are accepted with the same capacity, where zeros may be
added. -/
theorem Padding.capacity_zeros_of_le {padding : Padding} {count larger capacity : Nat}
    (accepted : padding.capacity count = .ok capacity) (more : count ≤ larger)
    (room : larger ≤ capacity) : Padding.zeros.capacity larger = .ok capacity := by
  obtain ⟨some, -, shallow, rfl⟩ := Padding.capacity_eq_ok_iff.mp accepted
  -- Either number fits the least capacity of the other one.
  have same : leastCapacity larger = leastCapacity count := by
    apply Nat.le_antisymm (leastCapacity_le room)
    exact leastCapacity_le (Nat.le_trans more (le_leastCapacity larger))
  have level : ceilLog2 larger = ceilLog2 count := by
    rw [← log2_leastCapacity, same, log2_leastCapacity]
  exact Padding.capacity_eq_ok_iff.mpr
    ⟨Nat.lt_of_lt_of_le some more, .inl rfl, level ▸ shallow, same.symm⟩

/-- Where a number of leaves is refused, the leaves are to blame. -/
theorem Padding.exists_fault {padding : Padding} {count : Nat} {error : Error}
    (refused : padding.capacity count = .error error) : ∃ fault, error = .invalidInput fault := by
  -- Every test of the number has a fault of its own.
  rw [capacity_eq] at refused
  split at refused
  · cases refused
    exact ⟨_, rfl⟩
  · split at refused
    · cases refused
      exact ⟨_, rfl⟩
    · split at refused
      · cases refused
      · cases refused
        exact ⟨_, rfl⟩

end Merkle
