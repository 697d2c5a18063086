import Merkle.Cost.Counter
import Merkle.Proofs.Cost.Sum

/-! Sums of costs do not depend on order and bracketing, and where running sums end. -/

namespace Merkle

namespace Counter

/-- A statement about every counter is one about each of the three. -/
theorem forall_iff {p : Counter → Prop} :
    (∀ counter, p counter) ↔ p .leafHashes ∧ p .nodeHashes ∧ p .hashedBytes := by
  -- There are no counters but the three.
  constructor
  · intro every
    exact ⟨every _, every _, every _⟩
  · rintro ⟨leafHashes, nodeHashes, hashedBytes⟩ (_ | _ | _)
    · exact leafHashes
    · exact nodeHashes
    · exact hashedBytes

/-- A counter of a cost is one of its values. -/
theorem read_lt_size (counter : Counter) (cost : Cost) : counter.read cost < counter.size := by
  -- Each counter is a word, which is less than the number of words.
  cases counter with
  | leafHashes => exact cost.leafHashes.toNat_lt
  | nodeHashes => exact cost.nodeHashes.toNat_lt
  | hashedBytes => exact cost.hashedBytes.toNat_lt

/-- A cost that took no work has nothing in any counter. -/
@[simp] theorem read_zero (counter : Counter) : counter.read {} = 0 := by
  -- All three counters are empty.
  cases counter <;> rfl

/-- Costs are equal when their counters are. -/
theorem ext_read {left right : Cost}
    (same : ∀ counter : Counter, counter.read left = counter.read right) : left = right := by
  -- Words are equal when their values are.
  obtain ⟨leafHashes, nodeHashes, hashedBytes⟩ := forall_iff.mp same
  obtain ⟨_, _, _⟩ := left
  obtain ⟨_, _, _⟩ := right
  rw [Cost.mk.injEq]
  exact ⟨UInt32.toNat_inj.mp leafHashes, UInt32.toNat_inj.mp nodeHashes,
    UInt64.toNat_inj.mp hashedBytes⟩

/-- There is a cost for any values that its counters can have. -/
theorem exists_read_eq {value : Counter → Nat} (fits : ∀ counter, value counter < counter.size) :
    ∃ cost, ∀ counter : Counter, counter.read cost = value counter := by
  -- Each value is small enough to be turned into a word and back.
  refine ⟨⟨UInt32.ofNat (value .leafHashes), UInt32.ofNat (value .nodeHashes),
    UInt64.ofNat (value .hashedBytes)⟩, forall_iff.mpr ⟨?_, ?_, ?_⟩⟩
  · exact UInt32.toNat_ofNat_of_lt' (fits .leafHashes)
  · exact UInt32.toNat_ofNat_of_lt' (fits .nodeHashes)
  · exact UInt64.toNat_ofNat_of_lt' (fits .hashedBytes)

/-- No costs have nothing in the counter. -/
@[simp] theorem tally_nil (counter : Counter) : counter.tally [] = 0 := rfl

/-- The first of some costs adds its own value to the rest. -/
@[simp] theorem tally_cons (counter : Counter) (cost : Cost) (costs : List Cost) :
    counter.tally (cost :: costs) = counter.read cost + counter.tally costs := rfl

/-- Costs one after another add up their parts. -/
@[simp] theorem tally_append (counter : Counter) (costs others : List Cost) :
    counter.tally (costs ++ others) = counter.tally costs + counter.tally others := by
  -- The total of the first costs is formed first, by associativity.
  induction costs with
  | nil => simp
  | cons cost rest ih => simp [ih, Nat.add_assoc]

/-- The order of some costs does not matter to what a counter has in all of them. -/
theorem tally_perm (counter : Counter) {costs others : List Cost} (same : costs.Perm others) :
    counter.tally costs = counter.tally others := by
  -- Permutations are made of exchanges of neighbours, which leave the total alone.
  induction same with
  | nil => rfl
  | cons cost _ ih => simp [ih]
  | swap first second rest => simp [Nat.add_left_comm]
  | trans _ _ first second => rw [first, second]

end Counter

namespace Cost

/-- The sum of two costs is the one that has the sum in every counter. -/
theorem add_eq_ok_iff_read {left right total : Cost} :
    left.add right = .ok total ↔
      ∀ counter : Counter, counter.read total = counter.read left + counter.read right := by
  -- The three conditions on the words are one condition on counters.
  rw [Counter.forall_iff]
  exact add_eq_ok_iff

/-- Two costs have no sum when some counter cannot hold it. -/
theorem add_eq_overflow_iff {left right : Cost} :
    left.add right = .error .counter ↔ ∃ counter : Counter, counter.Overflows left right := by
  rw [eq_overflow_iff]
  constructor
  · -- If no counter overflowed, all sums would be counters of one cost.
    intro none
    apply Classical.byContradiction
    intro held
    refine none ?_
    obtain ⟨total, sums⟩ : ∃ cost, ∀ counter : Counter,
        counter.read cost = counter.read left + counter.read right :=
      Counter.exists_read_eq fun counter =>
        Nat.lt_of_not_le fun exceeded => held ⟨counter, exceeded⟩
    exact ⟨total, add_eq_ok_iff_read.mpr sums⟩
  · -- The sum would be the value of a counter, and that is too small.
    rintro ⟨counter, exceeded⟩ ⟨total, sum⟩
    have held := counter.read_lt_size total
    rw [add_eq_ok_iff_read.mp sum counter] at held
    exact Nat.not_lt.mpr exceeded held

/-- Costs are added up from left to right where their counters in all of them together fit. -/
theorem sumFrom_eq_ok_iff {start total : Cost} {costs : List Cost} :
    start.sumFrom costs = .ok total ↔
      ∀ counter : Counter, counter.read total = counter.read start + counter.tally costs := by
  induction costs generalizing start with
  | nil =>
    simp only [sumFrom, List.foldlM_nil, pure, Except.pure, Except.ok.injEq, Counter.tally_nil,
      Nat.add_zero]
    exact ⟨fun same => same ▸ fun _ => rfl, fun same => (Counter.ext_read same).symm⟩
  | cons cost rest ih =>
    -- The sum so far takes the place of the cost that it began with.
    have unfolded : start.sumFrom (cost :: rest) = start.add cost >>= (·.sumFrom rest) := rfl
    rw [unfolded, bind_eq_ok_iff]
    simp only [ih, add_eq_ok_iff_read, Counter.tally_cons]
    constructor
    · rintro ⟨middle, first, sums⟩ counter
      rw [sums, first, Nat.add_assoc]
    · -- The sum of the first two is part of the whole one, and so it fits as well.
      intro sums
      obtain ⟨middle, first⟩ : ∃ cost', ∀ counter : Counter,
          counter.read cost' = counter.read start + counter.read cost :=
        Counter.exists_read_eq fun counter => by
          have held := counter.read_lt_size total
          rw [sums] at held
          omega
      exact ⟨middle, first, fun counter => by rw [sums, first, Nat.add_assoc]⟩

/-- However costs are bracketed, their sum has what the counters have in all of them together. -/
theorem Bracketing.total_eq_ok_iff {bracketing : Bracketing} {total : Cost} :
    bracketing.total = .ok total ↔
      ∀ counter : Counter, counter.read total = counter.tally bracketing.costs := by
  induction bracketing generalizing total with
  | single cost =>
    -- One cost is its own sum.
    simp only [Bracketing.total, costs, Except.ok.injEq, Counter.tally_cons, Counter.tally_nil,
      Nat.add_zero]
    exact ⟨fun same => same ▸ fun _ => rfl, fun same => (Counter.ext_read same).symm⟩
  | pair left right leftSum rightSum =>
    -- The values of the two sums are joined as the lists of costs are.
    simp only [Bracketing.total, bind_eq_ok_iff, leftSum, rightSum, add_eq_ok_iff_read, costs,
      Counter.tally_append]
    constructor
    · rintro ⟨first, firstSum, second, secondSum, sums⟩ counter
      rw [sums, firstSum, secondSum]
    · -- Both parts fit because they are parts of a sum that fits.
      intro sums
      have held (counter : Counter) :
          counter.tally left.costs + counter.tally right.costs < counter.size :=
        sums counter ▸ counter.read_lt_size total
      obtain ⟨first, firstSum⟩ : ∃ cost, ∀ counter : Counter,
          counter.read cost = counter.tally left.costs :=
        Counter.exists_read_eq fun counter =>
          Nat.lt_of_le_of_lt (Nat.le_add_right _ _) (held counter)
      obtain ⟨second, secondSum⟩ : ∃ cost, ∀ counter : Counter,
          counter.read cost = counter.tally right.costs :=
        Counter.exists_read_eq fun counter =>
          Nat.lt_of_le_of_lt (Nat.le_add_left _ _) (held counter)
      exact ⟨first, firstSum, second, secondSum, fun counter => by
        rw [sums, firstSum, secondSum]⟩

end Cost

end Merkle
