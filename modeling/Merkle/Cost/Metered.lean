import Merkle.Cost.Costed

/-! Computations that charge a running cost and stop at the first error without losing it. -/

namespace Merkle

/-- A computation on a running cost that may stop early with an error. -/
abbrev Metered (ε : Type) :=
  -- An error is a value of the computation, so the cost that led to it is kept.
  ExceptT ε Charge

namespace Metered

/-- A costed result, whose cost is charged whether or not it succeeds. -/
def ofCosted (result : Costed (Except ε α)) : Metered ε α :=
  -- The charge comes before the result is inspected.
  ExceptT.mk result.spend

/-- A result that charges nothing. -/
def ofPlain (result : Except ε α) : Metered ε α :=
  -- Nothing is charged for a failure either.
  ExceptT.mk (pure result)

/-- Counts one hash over a leaf of the given length. -/
def chargeLeaf (length : Nat) : Metered ε Unit :=
  -- Charging may overflow, but it is never an error.
  ExceptT.mk do
    Cost.chargeLeaf length
    return .ok ()

/-- The result and the whole cost of a computation begun at the given cost. -/
def outcome (computation : Metered ε α) (start : Cost) : Checked (Costed (Except ε α)) :=
  -- An error is part of the result here, and only an overflow withholds it.
  Charge.outcome (ExceptT.run computation) start

/-- A finished computation leaves the cost as it was. -/
@[simp] theorem outcome_pure (value : α) (start : Cost) :
    (pure value : Metered ε α).outcome start = .ok ⟨.ok value, start⟩ := rfl

/-- A sequence goes on from the cost of its first part, unless that part failed. -/
theorem outcome_bind (first : Metered ε α) (next : α → Metered ε β) (start : Cost) :
    (first >>= next).outcome start = (do
      let done ← first.outcome start
      match done.value with
      | .error error => .ok ⟨.error error, done.cost⟩
      | .ok value => (next value).outcome done.cost) := by
  -- An overflow ends both sides, an error keeps its cost, and a value goes on.
  simp only [outcome, Charge.outcome, bind, ExceptT.bind, ExceptT.run, ExceptT.mk, EStateM.run,
    EStateM.bind]
  cases first start with
  | error overflow cost => rfl
  | ok result cost => cases result <;> rfl

end Metered

/-- One fallible step, with or without a cost of its own. -/
inductive Step (ε α : Type) where
  /-- The step's cost is charged. -/
  | costed (result : Costed (Except ε α))
  /-- The step charges nothing. -/
  | plain (result : Except ε α)

namespace Step

/-- Takes the step on the running cost. -/
def perform : Step ε α → Metered ε α
  -- A step without a cost is taken for free.
  | .costed result => .ofCosted result
  | .plain result => .ofPlain result

/-- Takes steps in order up to the first error, and gathers their values. -/
def collect (steps : List (Step ε α)) : Metered ε (List α) :=
  -- The steps after the first error are not taken, so they cost nothing.
  steps.mapM perform

/-- The number of steps that succeed before the first error or overflow. -/
def completed : List (Step ε α) → (start : Cost) → Nat
  -- An overflow ends the count as an error does.
  | [], _ => 0
  | step :: rest, start =>
    match step.perform.outcome start with
    | .ok ⟨.ok _, cost⟩ => completed rest cost + 1
    | _ => 0

end Step

end Merkle
