/-! The levels of a binary tree, and how many slots each of them has. -/

namespace Merkle

/-- The number of slots that lie the given number of levels below the root. -/
def levelWidth (depth : Nat) : Nat :=
  -- Every level has twice the slots of the level above it.
  1 <<< depth

/-- The root is alone on its level. -/
@[simp] theorem levelWidth_zero : levelWidth 0 = 1 := rfl

/-- Every slot has two children on the next level. -/
theorem levelWidth_succ (depth : Nat) : levelWidth (depth + 1) = 2 * levelWidth depth := by
  -- Shifting by one more doubles the number.
  simp only [levelWidth, Nat.shiftLeft_succ]

/-- No level is empty. -/
theorem levelWidth_pos (depth : Nat) : 0 < levelWidth depth := by
  -- The root is one slot, and doubling keeps a number positive.
  induction depth with
  | zero => simp
  | succ depth ih => rw [levelWidth_succ]; omega

end Merkle
