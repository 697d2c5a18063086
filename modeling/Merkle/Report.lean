import Merkle.Cost.Metered
import Merkle.Error
import Merkle.Report.Event

/-! The outcome of an operation, with the work it took and the events it reported. -/

namespace Merkle

/-- A result, its cost, and its events in order. -/
structure Report (α : Type) extends Costed (Except Error α) where
  /-- The events, first one first. -/
  events : List Event := []

namespace Report

/-- A failure, with the work that was done before it. -/
def failure (error : Error) (cost : Cost) : Report α :=
  -- A failed operation does not log.
  { value := .error error, cost }

/-- Transforms a successful result and keeps cost and events. -/
def map (f : α → β) (report : Report α) : Report β :=
  -- Neither the cost nor the events depend on the value.
  { toCosted := report.toCosted.mapOk f, events := report.events }

/-- The same report, charged also for work done before. -/
def withEarlier (report : Report α) (earlier : Cost) : Checked (Report α) := do
  -- Only the cost changes, and only the cost can overflow.
  let costed ← report.toCosted.withEarlier earlier
  return { report with toCosted := costed }

end Report

end Merkle
