import Merkle.Error
import Merkle.Hasher
import Merkle.Level

/-! Paths between a leaf slot and the root: the slots beside them, and the digest they lead to. -/

namespace Merkle

/-- The slot that shares its parent with the given one. -/
def sibling (slot : Nat) : Nat :=
  -- Siblings differ in their lowest bit alone.
  slot ^^^ 1

/-- The slots beside the way from a slot up to the root, lowest level first. -/
def siblingSlots (slot : Nat) : List Nat :=
  if slot ≤ 1 then []
  -- A parent has half the number of its children.
  else sibling slot :: siblingSlots (slot / 2)
termination_by slot
decreasing_by omega

/-- A running digest and its sibling, left child first. -/
def ordered (position : Nat) (running beside : D) : D × D :=
  -- Left children have even positions.
  if position % 2 = 0 then (running, beside) else (beside, running)

/-- The digest above a running digest and its sibling. -/
def join (H : Hasher D) (position : Nat) (running beside : D) : D :=
  -- The position says on which side the running digest goes.
  let (left, right) := ordered position running beside
  H.merge left right

/-- The digest that a path leads to from the given digest at the given position. -/
def climb (H : Hasher D) (running : D) (position : Nat) : (path : List D) → D
  -- Each sibling consumes one binary digit of the position, lowest digit first.
  | [] => running
  | beside :: rest => climb H (join H position running beside) (position / 2) rest

/-- A path in two parts is climbed in two parts, the second from where the first one ends. -/
theorem climb_append (H : Hasher D) (running : D) (position : Nat) (low high : List D) :
    climb H running position (low ++ high) =
      climb H (climb H running position low) (position >>> low.length) high := by
  -- Each level of the first part halves the position once.
  induction low generalizing running position with
  | nil => rfl
  | cons beside rest ih =>
    have half : position / 2 = position >>> 1 := rfl
    rw [List.cons_append, climb, ih, climb, half, ← Nat.shiftRight_add, List.length_cons,
      Nat.add_comm]

/-- The pairs that are merged on the way along a path, lowest level first. -/
def climbPairs (H : Hasher D) (running : D) (position : Nat) : (path : List D) → List (D × D)
  -- This follows the same recursion as the climb, and records what it merges.
  | [] => []
  | beside :: rest =>
    ordered position running beside ::
      climbPairs H (join H position running beside) (position / 2) rest

/-- Accepts a position that exists among the leaves of a tree with the given depth. -/
def checkIndex (index : UInt64) (depth : Nat) : Except Error Unit :=
  -- The depth is tested first, because the bound has to fit a word.
  if maxDepth < depth then .error (.malformedProof (.pathDepth depth))
  else if levelWidth depth ≤ index.toNat then
    .error (.indexOutOfRange index.toNat (levelWidth depth))
  else .ok ()

end Merkle
