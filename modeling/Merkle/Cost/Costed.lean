import Merkle.Cost

/-! Values paired with the work that produced them, and the ways to chain them. -/

namespace Merkle

/-- A value together with the work spent on it. -/
structure Costed (α : Type) where
  /-- The produced value. -/
  value : α
  /-- The work spent on the value. -/
  cost : Cost
  deriving DecidableEq

/-- The value and the running cost that a charge ends with, unless a counter overflows. -/
def Charge.outcome (charge : Charge α) (start : Cost) : Checked (Costed α) :=
  match charge.run start with
  | .ok value cost => .ok ⟨value, cost⟩
  -- The partly updated cost is lost together with the value.
  | .error overflow _ => .error overflow

namespace Costed

/-- A value that took no work. -/
def free (value : α) : Costed α :=
  -- The empty cost is neutral for addition.
  ⟨value, {}⟩

/-- Transforms the value and keeps the cost. -/
def map (f : α → β) (first : Costed α) : Costed β :=
  ⟨f first.value, first.cost⟩

/-- Continues with a costed step and sums both costs. -/
def andThen (first : Costed α) (next : α → Checked (Costed β)) : Checked (Costed β) := do
  -- The step runs before its cost is added.
  let second ← next first.value
  let cost ← first.cost.add second.cost
  return ⟨second.value, cost⟩

/-- Adds the cost to the running one and gives up the value. -/
def spend (spent : Costed α) : Charge α := do
  -- The cost comes first, so an overflow withholds the value.
  Cost.charge spent.cost
  return spent.value

/-- The same value, charged also for work done before. -/
def withEarlier (later : Costed α) (earlier : Cost) : Checked (Costed α) :=
  -- The later cost is the running one, so the earlier work is added to it.
  Charge.outcome (do Cost.charge earlier; return later.value) later.cost

/-- Transforms a successful value and keeps the cost. -/
def mapOk (f : α → β) (first : Costed (Except ε α)) : Costed (Except ε β) :=
  -- A failure stays what it is, and its cost stays with it.
  first.map fun result => result.map f

/-- Continues a success with a costed step; a failure ends at the cost it has. -/
def andThenOk (first : Costed (Except ε α)) (next : α → Checked (Costed (Except ε β))) :
    Checked (Costed (Except ε β)) :=
  match first.value with
  | .error error => .ok ⟨.error error, first.cost⟩
  | .ok value => do
    let second ← next value
    -- The first cost is the running one, onto which the step spends its own.
    second.spend.outcome first.cost

/-- The cost of a success, or the error of a failure. -/
def costOk (spent : Costed (Except ε α)) : Except ε Cost :=
  -- A failure gives up the cost of the work that led to it.
  spent.value.map fun _ => spent.cost

end Costed

end Merkle
