import Merkle.Error
import Merkle.Level

/-! How many leaf slots a tree has for a number of leaves, and which numbers are refused. -/

namespace Merkle

/-- What happens to a number of leaves that is not a power of two. -/
inductive Padding where
  /-- Slots with the zero digest are added up to the next power of two. -/
  | zeros
  /-- The leaves are refused. -/
  | refused
  deriving DecidableEq

/-- The least exponent whose power of two is not below a number. -/
def ceilLog2 (count : Nat) : Nat :=
  -- The predecessor has as many binary digits as the exponent says.
  if count ≤ 1 then 0 else Nat.log2 (count - 1) + 1

/-- The least power of two that is not below a number of leaves. -/
def leastCapacity (count : Nat) : Nat :=
  -- A tree without or with one leaf is the root alone.
  levelWidth (ceilLog2 count)

/-- There is a slot for every leaf. -/
theorem le_leastCapacity (count : Nat) : count ≤ leastCapacity count := by
  -- Up to one leaf the capacity is one, and above it is a power of two.
  unfold leastCapacity ceilLog2
  split
  · simp only [levelWidth_zero]; omega
  · -- A number lies below the power that follows its binary logarithm.
    have below := Nat.lt_log2_self (n := count - 1)
    rw [levelWidth, Nat.one_shiftLeft]
    omega

/-- No lower level has a slot for every leaf. -/
theorem leastCapacity_le {count depth : Nat} (room : count ≤ levelWidth depth) :
    leastCapacity count ≤ levelWidth depth := by
  -- Powers of two are compared by their exponents.
  rw [levelWidth, Nat.one_shiftLeft] at room
  unfold leastCapacity ceilLog2 levelWidth
  rw [Nat.one_shiftLeft, Nat.one_shiftLeft]
  apply Nat.pow_le_pow_right (by omega)
  split
  · omega
  · -- The predecessor of the number lies below the power, and so does its logarithm.
    exact (Nat.log2_lt (by omega)).mpr (by omega)

namespace Padding

/-- The number of leaf slots for a number of leaves. -/
def capacity (padding : Padding) (count : Nat) : Except Error Nat :=
  let capacity := leastCapacity count
  if count = 0 then .error (.invalidInput .noLeaves)
  else if padding = .refused ∧ capacity ≠ count then .error (.invalidInput (.notPowerOfTwo count))
  -- Twice the capacity is the number of all slots, which has to fit a 64-bit word.
  else if capacity.log2 ≤ maxDepth ∧ 2 * capacity < UInt64.size then .ok capacity
  else .error (.invalidInput (.tooManyLeaves count))

end Padding

end Merkle
