import Merkle.Proofs.Cost.Sum
import Merkle.Report

/-! Outcomes that carry a value, whatever they cost and report. -/

namespace Merkle

/-- The operation ends without an overflow, and succeeds with the value. -/
def Returns (outcome : Checked (Report α)) (value : α) : Prop :=
  -- The report says more than the value, which is left open here.
  ∃ report, outcome = .ok report ∧ report.value = .ok value

/-- A finished operation returns what its report carries. -/
theorem returns_ok_iff {report : Report α} {value : α} :
    Returns (.ok report) value ↔ report.value = .ok value := by
  -- There is one report, so it is the one that carries the value.
  constructor
  · rintro ⟨other, same, carried⟩
    cases same
    exact carried
  · exact fun carried => ⟨report, rfl, carried⟩

instance [DecidableEq α] (outcome : Checked (Report α)) (value : α) :
    Decidable (Returns outcome value) :=
  match outcome with
  | .error _ => isFalse fun returned => nomatch returned
  | .ok report =>
    match carried : report.value with
    | .error _ => isFalse fun returned => nomatch carried.symm.trans (returns_ok_iff.mp returned)
    | .ok result =>
      decidable_of_iff (result = value) (by rw [returns_ok_iff, carried, Except.ok.injEq])

end Merkle
