import Merkle.Proofs.Cost.Counters

/-! The addition of costs: its laws as a partial operation, and the same sums made in place. -/

namespace Merkle

namespace Counter

/-- At most one counter is the first to overflow. -/
theorem OverflowsFirst.unique {first other : Counter} {left right : Cost}
    (firstOver : first.OverflowsFirst left right) (otherOver : other.OverflowsFirst left right) :
    first = other := by
  obtain ⟨exceeded, none⟩ := firstOver
  obtain ⟨overOther, noneOther⟩ := otherOver
  -- Neither of them comes before the other.
  rcases Nat.lt_trichotomy first.place other.place with before | same | after
  · exact absurd exceeded (noneOther first before)
  · revert same
    cases first <;> cases other <;> decide
  · exact absurd overOther (none other after)

end Counter

namespace Cost

/-- A 32-bit sum overflows when the word has no value that large. -/
theorem sum32_eq_error_iff {left right : UInt32} {overflow : Overflow} :
    sum32 left right = .error overflow ↔ UInt32.size ≤ left.toNat + right.toNat := by
  -- The sum is refused by the very bound that the statement names.
  cases overflow
  unfold sum32
  split <;> simp <;> omega

/-- A 64-bit sum overflows when the word has no value that large. -/
theorem sum64_eq_error_iff {counter : UInt64} {extra : Nat} {overflow : Overflow} :
    sum64 counter extra = .error overflow ↔ UInt64.size ≤ counter.toNat + extra := by
  -- The sum is refused by the very bound that the statement names.
  cases overflow
  unfold sum64
  split <;> simp <;> omega

/-- Nothing is added to the sum of two costs by a cost without work. -/
@[simp] theorem add_zero (cost : Cost) : cost.add {} = .ok cost :=
  -- Zero is added to every counter, and the sums are the counters themselves.
  add_eq_ok_iff_read.mpr fun counter => by simp

/-- A cost without work has any cost as its sum with it. -/
@[simp] theorem zero_add (cost : Cost) : ({} : Cost).add cost = .ok cost :=
  -- Every counter is added to zero, and the sums are the counters themselves.
  add_eq_ok_iff_read.mpr fun counter => by simp

/-- Two costs have the same sum in either order, or in neither. -/
theorem add_comm (left right : Cost) : left.add right = right.add left := by
  -- A sum is determined by its unbounded counters, which are added in either order.
  refine checked_ext fun total => ?_
  simp only [add_eq_ok_iff_read, Nat.add_comm]

/-- Three costs have the same sum in either bracketing, or in neither. -/
theorem add_assoc (first second third : Cost) :
    (do (← first.add second).add third) = (do first.add (← second.add third)) := by
  -- Both are sums of the same costs, bracketed to the left and to the right.
  let left : Bracketing := .pair (.pair (.single first) (.single second)) (.single third)
  let right : Bracketing := .pair (.single first) (.pair (.single second) (.single third))
  show left.total = right.total
  exact checked_ext fun total => by
    rw [Bracketing.total_eq_ok_iff, Bracketing.total_eq_ok_iff]
    rfl

/-- Where three costs have a sum, the first two have one, and so do the last two. -/
theorem exists_sum_iff {first second third total : Cost} :
    (∃ subtotal, first.add second = .ok subtotal ∧ subtotal.add third = .ok total) ↔
      ∃ rest, second.add third = .ok rest ∧ first.add rest = .ok total := by
  -- Both sides say that one of the two bracketings ends, and these agree.
  rw [← bind_eq_ok_iff, ← bind_eq_ok_iff, add_assoc]

/-- Costs in any order and bracketing have the sum that is made from left to right. -/
theorem Bracketing.total_eq_sumFrom {bracketing : Bracketing} {costs : List Cost}
    (same : bracketing.costs.Perm costs) : bracketing.total = sumFrom {} costs := by
  -- Both sums are the cost whose counters have the totals, if there is such a cost.
  refine checked_ext fun total => ?_
  rw [total_eq_ok_iff, sumFrom_eq_ok_iff]
  simp only [Counter.tally_perm _ same, Counter.read_zero, Nat.zero_add]

/-- Costs have the same sum in any order. -/
theorem sumFrom_perm (start : Cost) {costs others : List Cost} (same : costs.Perm others) :
    start.sumFrom costs = start.sumFrom others := by
  -- The totals do not depend on the order, and they alone decide about the sum.
  refine checked_ext fun total => ?_
  simp only [sumFrom_eq_ok_iff, Counter.tally_perm _ same]

/-- The hashes of both kinds are those of the two counters together. -/
theorem toNat_hashes (cost : Cost) :
    cost.hashes.toNat = cost.leafHashes.toNat + cost.nodeHashes.toNat := by
  -- Two numbers below the 33rd power of two cannot wrap around in a 64-bit word.
  have leafHashes := cost.leafHashes.toNat_lt
  have nodeHashes := cost.nodeHashes.toNat_lt
  rw [hashes, UInt64.toNat_add, UInt32.toNat_toUInt64, UInt32.toNat_toUInt64]
  omega

/-- A charge in place updates the counters in turn, up to the first that overflows. -/
theorem run_charge (extra start : Cost) :
    (charge extra).run start =
      match sum32 start.leafHashes extra.leafHashes with
      | .error overflow => .error overflow start
      | .ok leafHashes =>
        match sum32 start.nodeHashes extra.nodeHashes with
        | .error overflow => .error overflow { start with leafHashes }
        | .ok nodeHashes =>
          match sum64 start.hashedBytes extra.hashedBytes.toNat with
          | .error overflow => .error overflow { start with leafHashes, nodeHashes }
          | .ok hashedBytes => .ok () { leafHashes, nodeHashes, hashedBytes } := by
  -- The three updates are composed into one function of the running cost.
  simp only [charge, chargeLeafHashes, chargeNodeHashes, chargeBytes, EStateM.run, bind,
    EStateM.bind, update]
  -- An overflow of the leaf hashes leaves the running cost as it started.
  cases sum32 start.leafHashes extra.leafHashes with
  | error overflow => rfl
  | ok leafHashes =>
    simp only [Except.bind, pure, Except.pure]
    -- The merges are added to a cost whose leaf hashes are replaced already.
    cases sum32 start.nodeHashes extra.nodeHashes with
    | error overflow => rfl
    | ok nodeHashes =>
      dsimp only
      -- The bytes come last, so both kinds of hashes are kept where they overflow.
      cases sum64 start.hashedBytes extra.hashedBytes.toNat <;> rfl

/-- A charge in place ends at the sum of both costs where they have one. -/
theorem run_charge_eq_ok_iff {extra start total : Cost} :
    (charge extra).run start = .ok () total ↔ start.add extra = .ok total := by
  -- A charge in place and a sum have the same outcome, and only its state differs.
  have outcome := outcome_charge extra start
  rw [Charge.outcome] at outcome
  cases ended : (charge extra).run start with
  | ok nothing cost =>
    rw [ended] at outcome
    -- The sum of a charge that ended is the cost it ended at.
    obtain ⟨sum, added, same⟩ := map_eq_ok_iff.mp outcome.symm
    cases same
    simp [added]
  | error overflow cost =>
    rw [ended] at outcome
    -- A charge that overflowed has no sum, so both sides are false.
    cases added : start.add extra with
    | ok sum => rw [added] at outcome; cases outcome
    | error other => simp

/-- A counter that is first to overflow is one in front of which the sums are values. -/
theorem AddedBefore.overflowsFirst {first : Counter} {start extra kept : Cost}
    (added : AddedBefore first start extra kept) (exceeded : first.Overflows start extra) :
    first.OverflowsFirst start extra := by
  -- A sum in front of it is the value of a counter, which is less than its size.
  refine ⟨exceeded, fun earlier before overEarlier => ?_⟩
  have held := earlier.read_lt_size kept
  rw [added earlier, if_pos before] at held
  exact Nat.not_lt.mpr overEarlier held

/-- A charge in place that overflows has updated the counters before the first that does. -/
theorem exists_addedBefore_of_run {extra start kept : Cost} {overflow : Overflow}
    (ended : (charge extra).run start = .error overflow kept) :
    ∃ first : Counter, first.OverflowsFirst start extra ∧ AddedBefore first start extra kept := by
  rw [run_charge] at ended
  -- Of the three sums, the first that fails is that of the counter.
  split at ended
  · rename_i exceeded
    cases ended
    have added : AddedBefore .leafHashes start extra start := fun _ => rfl
    exact ⟨_, added.overflowsFirst (sum32_eq_error_iff.mp exceeded), added⟩
  · rename_i leafHashes leafSum
    split at ended
    · rename_i exceeded
      cases ended
      -- The merges overflow, so the leaf hashes are replaced by their sum already.
      have added : AddedBefore .nodeHashes start extra { start with leafHashes } :=
        Counter.forall_iff.mpr ⟨sum32_eq_ok_iff.mp leafSum, rfl, rfl⟩
      exact ⟨_, added.overflowsFirst (sum32_eq_error_iff.mp exceeded), added⟩
    · rename_i nodeHashes nodeSum
      split at ended
      · rename_i exceeded
        cases ended
        -- The bytes overflow, so both sums of hashes are made already.
        have added : AddedBefore .hashedBytes start extra { start with leafHashes, nodeHashes } :=
          Counter.forall_iff.mpr
            ⟨sum32_eq_ok_iff.mp leafSum, sum32_eq_ok_iff.mp nodeSum, rfl⟩
        exact ⟨_, added.overflowsFirst (sum64_eq_error_iff.mp exceeded), added⟩
      · -- A charge that makes all three sums does not overflow.
        cases ended

/-- A charge in place overflows when some counter does, and keeps the sums before the first. -/
theorem run_charge_eq_error_iff {extra start kept : Cost} :
    (charge extra).run start = .error .counter kept ↔
      ∃ first : Counter, first.OverflowsFirst start extra ∧
        AddedBefore first start extra kept := by
  refine ⟨exists_addedBefore_of_run, ?_⟩
  rintro ⟨first, overflows, added⟩
  cases ended : (charge extra).run start with
  | ok nothing total =>
    -- A counter that overflows leaves no sum to end at.
    have sum := run_charge_eq_ok_iff.mp ended
    rw [add_eq_overflow_iff.mpr ⟨first, overflows.1⟩] at sum
    cases sum
  | error overflow other =>
    obtain ⟨otherFirst, otherOverflows, otherAdded⟩ := exists_addedBefore_of_run ended
    cases overflow
    -- There is one counter that is first, and so one cost that is kept.
    rw [otherOverflows.unique overflows] at otherAdded
    have same : other = kept :=
      Counter.ext_read fun counter => (otherAdded counter).trans (added counter).symm
    rw [same]

/-- Nothing is added to a 32-bit counter by zero. -/
theorem sum32_zero (counter : UInt32) : sum32 counter 0 = .ok counter :=
  -- Zero adds nothing, so the sum fits since the counter does.
  sum32_eq_ok_iff.mpr rfl

/-- Charging a leaf in place charges one hash and its bytes. -/
theorem chargeLeaf_eq_charge (length : UInt64) :
    chargeLeaf length.toNat = charge { leafHashes := 1, hashedBytes := length } := by
  -- A charge also updates the merges, but by nothing.
  have nothing : chargeNodeHashes 0 = pure () := by
    funext start
    simp only [chargeNodeHashes, update, sum32_zero]
    rfl
  simp only [chargeLeaf, charge, nothing]
  rfl

/--
The addition of costs is a partial operation with the laws of a commutative monoid, and it is the
same when it is made in place.

Some costs have one sum, or none, in all orders and bracketings of them. In place, an overflow keeps
the sums of the counters before the first that overflows.
-/
theorem addition_lawful :
    (∀ left right : Cost, left.add right = .error .counter ↔
      ∃ counter : Counter, counter.Overflows left right) ∧
    (∀ left right total : Cost, left.add right = .ok total ↔
      ∀ counter : Counter, counter.read total = counter.read left + counter.read right) ∧
    (∀ cost : Cost, cost.add {} = .ok cost ∧ ({} : Cost).add cost = .ok cost) ∧
    (∀ left right : Cost, left.add right = right.add left) ∧
    (∀ first second third : Cost,
      (do (← first.add second).add third) = (do first.add (← second.add third))) ∧
    (∀ (costs : List Cost) (bracketing : Bracketing), bracketing.costs.Perm costs →
      bracketing.total = sumFrom {} costs) ∧
    (∀ costs others : List Cost, costs.Perm others → sumFrom {} costs = sumFrom {} others) ∧
    (∀ cost : Cost, sum64 cost.leafHashes.toUInt64 cost.nodeHashes.toNat = .ok cost.hashes) ∧
    (∀ left right total : Cost, left.add right = .ok total →
      sum64 left.hashes right.hashes.toNat = .ok total.hashes) ∧
    (∀ start extra total : Cost, (charge extra).run start = .ok () total ↔
      start.add extra = .ok total) ∧
    (∀ start extra kept : Cost, (charge extra).run start = .error .counter kept ↔
      ∃ first : Counter, first.OverflowsFirst start extra ∧
        AddedBefore first start extra kept) ∧
    ∀ (length : UInt64) (start : Cost), (chargeLeaf length.toNat).run start =
      (charge { leafHashes := 1, hashedBytes := length }).run start := by
  -- The laws of the sum are those of unbounded addition, and hashes are added separately.
  refine ⟨fun _ _ => add_eq_overflow_iff, fun _ _ _ => add_eq_ok_iff_read,
    fun cost => ⟨add_zero cost, zero_add cost⟩, add_comm, add_assoc,
    fun _ _ same => Bracketing.total_eq_sumFrom same, fun _ _ same => sumFrom_perm _ same,
    fun cost => ?_, fun left right total sum => ?_, fun _ _ _ => run_charge_eq_ok_iff,
    fun _ _ _ => run_charge_eq_error_iff, fun length start => ?_⟩
  · -- The hashes of one cost are counted in 64 bits.
    rw [sum64_eq_ok_iff, toNat_hashes, UInt32.toNat_toUInt64]
  · -- The sum has the hashes of both kinds from both costs.
    obtain ⟨leafHashes, nodeHashes, -⟩ := add_eq_ok_iff.mp sum
    rw [sum64_eq_ok_iff, toNat_hashes, toNat_hashes, toNat_hashes]
    omega
  · -- Charging one leaf is charging a cost.
    rw [chargeLeaf_eq_charge]

end Cost

end Merkle
