import Merkle.Cost.Metered

/-! Checked sums of costs, and the running charges that add up to them. -/

namespace Merkle

/-- A sequence succeeds exactly when its first part does and the rest does after it. -/
theorem bind_eq_ok_iff {first : Except ε α} {next : α → Except ε β} {result : β} :
    first >>= next = .ok result ↔ ∃ value, first = .ok value ∧ next value = .ok result := by
  -- An error of the first part is the error of the whole.
  cases first with
  | error error => simp [bind, Except.bind]
  | ok value => simp [bind, Except.bind]

/-- A transformed result is a success exactly when the result is. -/
theorem map_eq_ok_iff {first : Except ε α} {f : α → β} {result : β} :
    first.map f = .ok result ↔ ∃ value, first = .ok value ∧ f value = result := by
  -- An error is not transformed.
  cases first with
  | error error => simp [Except.map]
  | ok value => simp [Except.map]

/-- There is one overflow, so a computation that does not finish ends with it. -/
theorem eq_overflow_iff {outcome : Checked α} :
    outcome = .error .counter ↔ ¬∃ result, outcome = .ok result := by
  -- Overflows carry no data that could differ.
  cases outcome with
  | error overflow => cases overflow; simp
  | ok result => simp

/-- Computations that finish with the same results also overflow together. -/
theorem checked_ext {outcome other : Checked α}
    (same : ∀ result, outcome = .ok result ↔ other = .ok result) : outcome = other := by
  -- Where neither finishes, both end with the only overflow there is.
  cases outcome with
  | ok result => exact ((same result).mp rfl).symm
  | error overflow =>
    cases other with
    | ok result => exact (same result).mpr rfl
    | error otherOverflow => cases overflow; cases otherOverflow; rfl

/-- A charge that follows another starts at the cost the other ends with. -/
theorem Charge.outcome_bind (first : Charge α) (next : α → Charge β) (start : Cost) :
    Charge.outcome (first >>= next) start = (do
      let done ← Charge.outcome first start
      Charge.outcome (next done.value) done.cost) := by
  -- An overflow in the first charge ends both sides.
  simp only [outcome, EStateM.run, bind, EStateM.bind]
  cases first start <;> rfl

namespace Cost

/-- A 32-bit sum is the one whose value is the unbounded sum, where there is such a word. -/
theorem sum32_eq_ok_iff {left right total : UInt32} :
    sum32 left right = .ok total ↔ total.toNat = left.toNat + right.toNat := by
  have bound := total.toNat_lt
  unfold sum32
  split
  · rename_i fits
    -- Below the size of the word nothing wraps.
    have exact : (left + right).toNat = left.toNat + right.toNat := by
      rw [UInt32.toNat_add]
      exact Nat.mod_eq_of_lt fits
    rw [Except.ok.injEq, ← exact, ← UInt32.toNat_inj]
    exact eq_comm
  · -- A larger sum is the value of no word.
    rename_i large
    simp only [UInt32.size] at large
    refine ⟨nofun, fun same => ?_⟩
    omega

/-- A 64-bit sum is the one whose value is the unbounded sum, where there is such a word. -/
theorem sum64_eq_ok_iff {counter total : UInt64} {extra : Nat} :
    sum64 counter extra = .ok total ↔ total.toNat = counter.toNat + extra := by
  have bound := total.toNat_lt
  unfold sum64
  split
  · rename_i fits
    simp only [UInt64.size] at fits
    -- The added number is itself smaller than the word.
    have exact : (counter + UInt64.ofNat extra).toNat = counter.toNat + extra := by
      rw [UInt64.toNat_add, UInt64.toNat_ofNat_of_lt' (by simp only [UInt64.size]; omega)]
      exact Nat.mod_eq_of_lt fits
    rw [Except.ok.injEq, ← exact, ← UInt64.toNat_inj]
    exact eq_comm
  · -- A larger sum is the value of no word.
    rename_i large
    simp only [UInt64.size] at large
    refine ⟨nofun, fun same => ?_⟩
    omega

/-- The sum of two costs is the one whose counters are the unbounded sums. -/
theorem add_eq_ok_iff {left right total : Cost} :
    left.add right = .ok total ↔
      total.leafHashes.toNat = left.leafHashes.toNat + right.leafHashes.toNat ∧
      total.nodeHashes.toNat = left.nodeHashes.toNat + right.nodeHashes.toNat ∧
      total.hashedBytes.toNat = left.hashedBytes.toNat + right.hashedBytes.toNat := by
  rw [← sum32_eq_ok_iff, ← sum32_eq_ok_iff, ← sum64_eq_ok_iff]
  unfold add
  -- The counters are summed independently, so each failing one settles both sides.
  cases sum32 left.leafHashes right.leafHashes with
  | error overflow => simp [bind, Except.bind]
  | ok leafHashes =>
    cases sum32 left.nodeHashes right.nodeHashes with
    | error overflow => simp [bind, Except.bind]
    | ok nodeHashes =>
      cases sum64 left.hashedBytes right.hashedBytes.toNat with
      | error overflow => simp [bind, Except.bind]
      | ok hashedBytes =>
        obtain ⟨first, second, third⟩ := total
        simp [bind, Except.bind, pure, Except.pure]

/-- An update ends at the cost it computes. -/
theorem outcome_update (next : Cost → Checked Cost) (start : Cost) :
    Charge.outcome (update next) start = (next start).map fun cost => ⟨(), cost⟩ := by
  -- The running cost is replaced by the new one, so it is what the update ends at.
  simp only [Charge.outcome, EStateM.run, update]
  cases next start <;> rfl

/-- Charging a cost onto a running one ends at their sum, or overflows where there is none. -/
theorem outcome_charge (extra start : Cost) :
    Charge.outcome (charge extra) start = (start.add extra).map fun cost => ⟨(), cost⟩ := by
  -- The running form visits the counters in the order of the sum.
  simp only [charge, chargeLeafHashes, chargeNodeHashes, chargeBytes, Charge.outcome_bind,
    outcome_update, add]
  cases sum32 start.leafHashes extra.leafHashes with
  | error overflow => rfl
  | ok leafHashes =>
    simp only [bind, Except.bind, pure, Except.pure, Except.map]
    cases sum32 start.nodeHashes extra.nodeHashes <;> rfl

/-- Charging one leaf adds one hash and the bytes of the leaf. -/
theorem outcome_chargeLeaf_eq_ok_iff {length : Nat} {start : Cost} {done : Costed Unit} :
    Charge.outcome (chargeLeaf length) start = .ok done ↔
      done.cost.leafHashes.toNat = start.leafHashes.toNat + 1 ∧
      done.cost.nodeHashes = start.nodeHashes ∧
      done.cost.hashedBytes.toNat = start.hashedBytes.toNat + length := by
  -- The two counters that change are checked sums, one after the other.
  have one : start.leafHashes.toNat + 1 = start.leafHashes.toNat + (1 : UInt32).toNat := rfl
  rw [one, ← sum32_eq_ok_iff, ← sum64_eq_ok_iff]
  simp only [chargeLeaf, chargeLeafHashes, chargeBytes, Charge.outcome_bind, outcome_update]
  obtain ⟨nothing, leafHashes, nodeHashes, hashedBytes⟩ := done
  cases sum32 start.leafHashes 1 with
  | error overflow => simp [bind, Except.bind, Except.map]
  | ok counted =>
    simp only [bind, Except.bind, pure, Except.pure, Except.map]
    cases sum64 start.hashedBytes length with
    | error overflow => simp
    | ok summed => simp [eq_comm]

/-- One more leaf can be charged when its call and its bytes can be counted. -/
theorem outcome_chargeLeaf_isOk {length : Nat} {start : Cost}
    (call : start.leafHashes.toNat + 1 < UInt32.size)
    (bytes : start.hashedBytes.toNat + length < UInt64.size) :
    ∃ done, Charge.outcome (chargeLeaf length) start = .ok done := by
  -- The two counters end at the words of their unbounded sums.
  let done : Cost :=
    { start with
      leafHashes := UInt32.ofNat (start.leafHashes.toNat + 1)
      hashedBytes := UInt64.ofNat (start.hashedBytes.toNat + length) }
  exact ⟨⟨(), done⟩, outcome_chargeLeaf_eq_ok_iff.mpr
    ⟨UInt32.toNat_ofNat_of_lt' call, rfl, UInt64.toNat_ofNat_of_lt' bytes⟩⟩

/-- The first leaf of all can be charged when its bytes can be counted. -/
theorem outcome_chargeLeaf_first {length : Nat} (bytes : length < UInt64.size) :
    Charge.outcome (chargeLeaf length) {} =
      .ok ⟨(), { leafHashes := 1, hashedBytes := UInt64.ofNat length }⟩ := by
  -- One call fits its counter, and the bytes fit theirs by assumption.
  refine outcome_chargeLeaf_eq_ok_iff.mpr ⟨rfl, rfl, ?_⟩
  rw [UInt64.toNat_ofNat_of_lt' bytes, UInt64.toNat_zero, Nat.zero_add]

/-- Merges and leaves use different counters, so their costs are joined without a sum. -/
theorem add_of_nodeHashes_eq_zero {leaves : Cost} (apart : leaves.nodeHashes = 0)
    (nodeHashes : UInt32) :
    ({ nodeHashes } : Cost).add leaves = .ok { leaves with nodeHashes } :=
  -- In each counter one of the two values is zero.
  add_eq_ok_iff.mpr (by simp [apart])

end Cost

/-- Charging earlier work changes the cost alone, to the sum of both. -/
theorem Costed.withEarlier_eq (later : Costed α) (earlier : Cost) :
    later.withEarlier earlier = (later.cost.add earlier).map fun cost => ⟨later.value, cost⟩ := by
  -- The earlier cost is charged onto the later one, and the value is returned after it.
  rw [withEarlier, Charge.outcome_bind, Cost.outcome_charge]
  cases later.cost.add earlier <;> rfl

end Merkle
