import Merkle.Proofs.Path.Meeting

/-! Climbs along one path from different positions, which differ in where they turn. -/

namespace Merkle

/-- A position's binary digit for a level is the last one of the halved position there. -/
theorem testBit_eq_testBit_iff {position other level : Nat} :
    position.testBit level = other.testBit level ↔
      (position >>> level) % 2 = (other >>> level) % 2 := by
  have last : ∀ place : Nat, place.testBit level = decide ((place >>> level) % 2 = 1) := by
    intro place
    rw [← Nat.testBit_zero, Nat.testBit_shiftRight, Nat.add_zero]
  rw [last, last, decide_eq_decide]
  -- A remainder by two that is not one is zero.
  omega

/-- A digest beside itself is ordered in one way only. -/
theorem ordered_self (position : Nat) (running : D) :
    ordered position running running = (running, running) := by
  -- Both orders are the pair of two equal digests.
  unfold ordered
  split <;> rfl

/-- Wherever two positions turn differently, the path passes the digest that was reached. -/
def EqualAtTurns (H : Hasher D) (digest : D) (position other : Nat) (path : List D) : Prop :=
  -- Merging two equal digests does not depend on which of them is the left one.
  ∀ level, level < path.length → position.testBit level ≠ other.testBit level →
    path[level]? = some (reached H digest position path level)

variable {H : Hasher D} {position other : Nat} {path : List D}

/-- A turn makes no difference between equal digests, so both positions reach the same. -/
theorem EqualAtTurns.reached_eq {digest : D} (equal : EqualAtTurns H digest position other path)
    {level : Nat} (crossed : level ≤ path.length) :
    reached H digest position path level = reached H digest other path level := by
  -- Level by level, two equal digests are joined with one sibling.
  induction level with
  | zero => rfl
  | succ level ih =>
    have found := List.getElem?_eq_getElem (show level < path.length from crossed)
    have same := ih (Nat.le_of_succ_le crossed)
    rw [reached_succ H digest position found, reached_succ H digest other found, ← same]
    by_cases turn : position.testBit level = other.testBit level
    · -- Both positions order the same two digests alike.
      rw [join, join, ordered_congr (testBit_eq_testBit_iff.mp turn)]
    · -- The sibling is the running digest itself, so the order does not matter.
      have twin := equal level crossed turn
      rw [found, Option.some.injEq] at twin
      rw [twin, join, join, ordered_self, ordered_self]

/--
Climbs that meet at the end of one path start alike, and merge two equal digests wherever they turn
differently, unless they merge a collision.
-/
theorem climb_turns_binding {first second : D}
    (meet : climb H first position path = climb H second other path) :
    (first = second ∧ EqualAtTurns H first position other path) ∨
      PairsCollide H (climbPairs H first position path) (climbPairs H second other path) := by
  -- The induction follows the path from the leaf, and equality comes down from its end.
  induction path generalizing first second position other with
  | nil => exact .inl ⟨meet, fun level crossed => absurd crossed (Nat.not_lt_zero level)⟩
  | cons beside rest ih =>
    -- The climbs agree above the first level, or collide there.
    rcases ih meet with ⟨joined, equal⟩ | collide
    · by_cases pairs : ordered position first beside = ordered other second beside
      · left
        have start : first = second ∧ (position % 2 ≠ other % 2 → beside = first) := by
          by_cases turn : position % 2 = other % 2
          · rw [ordered_congr turn] at pairs
            exact ⟨(ordered_inj.mp pairs).1, absurd turn⟩
          · -- Either running digest is the sibling that both of them pass.
            obtain ⟨left, right⟩ := (ordered_swap_inj turn).mp pairs
            exact ⟨left.trans right, fun _ => left.symm⟩
        refine ⟨start.1, ?_⟩
        intro level crossed turn
        -- The other turns are those of the positions' halves, along the rest of the path.
        cases level with
        | zero =>
          have differ : position % 2 ≠ other % 2 := fun same =>
            turn (testBit_eq_testBit_iff.mpr same)
          rw [start.2 differ]
          rfl
        | succ level =>
          rw [Nat.testBit_add_one, Nat.testBit_add_one] at turn
          exact equal level (Nat.lt_of_succ_lt_succ crossed) turn
      · -- Different pairs with one parent are themselves the collision.
        exact .inr ⟨0, _, _, rfl, rfl, pairs, joined⟩
    · exact .inr (collide.above _ _)

end Merkle
