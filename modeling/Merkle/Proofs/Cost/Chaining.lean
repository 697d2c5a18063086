import Merkle.Proofs.Cost.Addition

/-! The laws of chaining costed values, in which sums that overflow are outcomes like all others. -/

namespace Merkle.Costed

/-- Continues a success with a costed step, and passes a failure on without further work. -/
def onSuccess (next : α → Checked (Costed (Except ε β))) :
    Except ε α → Checked (Costed (Except ε β))
  -- A failure is passed on for free, since its own cost is charged by the chain.
  | .ok value => next value
  | .error error => .ok (free (.error error))

/-- A chain ends when its step does and the costs of both have a sum. -/
theorem andThen_eq_ok_iff {first : Costed α} {next : α → Checked (Costed β)} {value : β}
    {total : Cost} :
    first.andThen next = .ok ⟨value, total⟩ ↔
      ∃ spent, next first.value = .ok ⟨value, spent⟩ ∧ first.cost.add spent = .ok total := by
  -- The value is that of the step, and its cost is added to the earlier one.
  simp only [andThen, bind_eq_ok_iff, pure, Except.pure, Except.ok.injEq, mk.injEq]
  constructor
  · rintro ⟨second, stepped, cost, sum, rfl, rfl⟩
    exact ⟨second.cost, stepped, sum⟩
  · rintro ⟨spent, stepped, sum⟩
    exact ⟨⟨value, spent⟩, stepped, total, sum, rfl, rfl⟩

/-- A value that took no work is continued by what its step does alone. -/
theorem free_andThen (value : α) (next : α → Checked (Costed β)) :
    (free value).andThen next = next value := by
  -- The cost of the step is added to nothing, so the sum is that cost.
  refine checked_ext fun ⟨result, total⟩ => ?_
  simp [andThen_eq_ok_iff, free]

/-- A step that takes no work only transforms the value. -/
theorem andThen_free (first : Costed α) (f : α → β) :
    first.andThen (fun value => .ok (free (f value))) = .ok (first.map f) := by
  -- Nothing is added to the cost of the value, so no counter overflows.
  simp only [andThen, free, map, bind, Except.bind, Cost.add_zero, pure, Except.pure]

/-- Two steps are chained in either bracketing, and the sums of their costs overflow together. -/
theorem andThen_assoc (first : Costed α) (next : α → Checked (Costed β))
    (last : β → Checked (Costed γ)) :
    (do (← first.andThen next).andThen last) =
      first.andThen (fun value => do (← next value).andThen last) := by
  refine checked_ext fun ⟨result, total⟩ => ?_
  rw [bind_eq_ok_iff, andThen_eq_ok_iff]
  simp only [bind_eq_ok_iff]
  constructor
  · rintro ⟨⟨middle, subtotal⟩, front, back⟩
    obtain ⟨spent, stepped, sum⟩ := andThen_eq_ok_iff.mp front
    obtain ⟨more, ended, wholeSum⟩ := andThen_eq_ok_iff.mp back
    -- The last two costs have a sum because all three have one.
    obtain ⟨rest, restSum, whole⟩ := Cost.exists_sum_iff.mp ⟨subtotal, sum, wholeSum⟩
    exact ⟨rest, ⟨⟨middle, spent⟩, stepped, andThen_eq_ok_iff.mpr ⟨more, ended, restSum⟩⟩, whole⟩
  · rintro ⟨rest, ⟨⟨middle, spent⟩, stepped, back⟩, whole⟩
    obtain ⟨more, ended, restSum⟩ := andThen_eq_ok_iff.mp back
    -- And so do the first two.
    obtain ⟨subtotal, sum, wholeSum⟩ := Cost.exists_sum_iff.mpr ⟨rest, restSum, whole⟩
    exact ⟨⟨middle, subtotal⟩, andThen_eq_ok_iff.mpr ⟨spent, stepped, sum⟩,
      andThen_eq_ok_iff.mpr ⟨more, ended, wholeSum⟩⟩

/-- Continuing a success is continuing any result, where a failure is passed on. -/
theorem andThenOk_eq_andThen (first : Costed (Except ε α))
    (next : α → Checked (Costed (Except ε β))) :
    first.andThenOk next = first.andThen (onSuccess next) := by
  obtain ⟨value, cost⟩ := first
  cases value with
  | error error =>
    simp only [andThenOk, andThen, onSuccess, free, bind, Except.bind, Cost.add_zero, pure,
      Except.pure]
  | ok value =>
    -- The cost of the step is charged in place, which ends at the same sum.
    simp only [andThenOk, andThen, onSuccess, spend, Charge.outcome_bind, Cost.outcome_charge]
    cases next value with
    | error overflow => rfl
    | ok second =>
      simp only [bind, Except.bind]
      cases cost.add second.cost <;> rfl

/-- Transformations of a success are made one after another or at once. -/
theorem mapOk_mapOk (first : Costed (Except ε α)) (f : α → β) (g : β → γ) :
    (first.mapOk f).mapOk g = first.mapOk (g ∘ f) := by
  -- The cost is passed through, and a failure is not transformed at all.
  obtain ⟨value, cost⟩ := first
  cases value <;> rfl

/-- A success that is left alone leaves a result as it is. -/
theorem mapOk_id (first : Costed (Except ε α)) : first.mapOk id = first := by
  -- Successes are left alone by the identity, and failures by every transformation.
  obtain ⟨value, cost⟩ := first
  cases value <;> rfl

/-- A success that took no work is continued by what its step does alone. -/
theorem free_andThenOk (value : α) (next : α → Checked (Costed (Except ε β))) :
    (free (.ok value)).andThenOk next = next value := by
  -- The fallible chain is a plain one, in which a success runs the step.
  rw [andThenOk_eq_andThen, free_andThen, onSuccess]

/-- A step that succeeds without work only transforms a success. -/
theorem andThenOk_free (first : Costed (Except ε α)) (f : α → β) :
    first.andThenOk (fun value => .ok (free (.ok (f value)))) = .ok (first.mapOk f) := by
  -- A failure is passed on for free too, so the step is free for every result.
  have step : onSuccess (ε := ε) (fun value => .ok (free (.ok (f value)))) =
      fun result => .ok (free (result.map f)) := by
    funext result
    cases result <;> rfl
  rw [andThenOk_eq_andThen, step, andThen_free, mapOk]

/-- Two fallible steps are chained in either bracketing. -/
theorem andThenOk_assoc (first : Costed (Except ε α)) (next : α → Checked (Costed (Except ε β)))
    (last : β → Checked (Costed (Except ε γ))) :
    (do (← first.andThenOk next).andThenOk last) =
      first.andThenOk (fun value => do (← next value).andThenOk last) := by
  simp only [andThenOk_eq_andThen, andThen_assoc]
  congr 1
  funext result
  -- A failure of the first step is passed on by the second one too.
  cases result with
  | error error => exact free_andThen (.error error) (onSuccess last)
  | ok value => rfl

/-- Charging earlier work is doing that work first. -/
theorem withEarlier_eq_andThen (later : Costed α) (earlier : Cost) :
    later.withEarlier earlier = (⟨(), earlier⟩ : Costed Unit).andThen fun _ => .ok later := by
  -- The chain adds in the other order, which has the same sum.
  rw [withEarlier_eq, Cost.add_comm]
  simp only [andThen, bind, Except.bind]
  cases earlier.add later.cost <;> rfl

/--
Costed values are chained as in a monad, where a sum that overflows is an outcome like any other.

Values without work are neutral, chains are bracketed either way, and transformations are steps
without work. A fallible chain is one that passes a failure on, and earlier work is charged by doing
it first.
-/
theorem chaining_lawful (value : α) (error : ε) (cost earlier : Cost) (first : Costed α)
    (result : Costed (Except ε α)) (f : α → β) (g : β → γ) (next : α → Checked (Costed β))
    (last : β → Checked (Costed γ)) (nextOk : α → Checked (Costed (Except ε β)))
    (lastOk : β → Checked (Costed (Except ε γ))) :
    (free value).andThen next = next value ∧
      first.andThen (fun value => .ok (free value)) = .ok first ∧
      (free (.ok value)).andThenOk nextOk = nextOk value ∧
      result.andThenOk (fun value => .ok (free (.ok value))) = .ok result ∧
      (do (← first.andThen next).andThen last) =
        first.andThen (fun value => do (← next value).andThen last) ∧
      (do (← result.andThenOk nextOk).andThenOk lastOk) =
        result.andThenOk (fun value => do (← nextOk value).andThenOk lastOk) ∧
      (first.map f).map g = first.map (g ∘ f) ∧
      (result.mapOk f).mapOk g = result.mapOk (g ∘ f) ∧
      first.andThen (fun value => .ok (free (f value))) = .ok (first.map f) ∧
      result.andThenOk (fun value => .ok (free (.ok (f value)))) = .ok (result.mapOk f) ∧
      result.andThenOk nextOk = result.andThen (onSuccess nextOk) ∧
      andThenOk ⟨.error error, cost⟩ nextOk = .ok ⟨.error error, cost⟩ ∧
      first.withEarlier earlier = (⟨(), earlier⟩ : Costed Unit).andThen (fun _ => .ok first) := by
  -- Laws of fallible chains follow from those of plain ones, since they are such chains.
  refine ⟨free_andThen value next, andThen_free first id, free_andThenOk value nextOk, ?_,
    andThen_assoc first next last, andThenOk_assoc result nextOk lastOk, rfl,
    mapOk_mapOk result f g, andThen_free first f, andThenOk_free result f,
    andThenOk_eq_andThen result nextOk, rfl,
    withEarlier_eq_andThen first earlier⟩
  -- Ending with a success is transforming by the identity.
  exact (andThenOk_free result id).trans (congrArg Except.ok (mapOk_id result))

end Merkle.Costed
