import Merkle.Proofs.Cost.Chaining

/-! Steps that accumulate a cost up to the first failure, against the chain of the same steps. -/

namespace Merkle.Step

/-- The result of a step. -/
def result : Step ε α → Except ε α
  -- Steps of both kinds may fail.
  | .costed result => result.value
  | .plain result => result

/-- The cost that a step charges, if it charges any. -/
def charge? : Step ε α → Option Cost
  -- Charging nothing and charging an empty cost are told apart here.
  | .costed result => some result.cost
  | .plain _ => none

/-- The costs that steps charge, without anything for those that charge nothing. -/
def charges (steps : List (Step ε α)) : List Cost :=
  -- A failing step charges what it has spent.
  steps.filterMap charge?

/-- The step with a cost in any case, which is none at all where the step charges nothing. -/
def toCosted : Step ε α → Costed (Except ε α)
  -- The empty cost stands for the missing one.
  | .costed result => result
  | .plain result => .free result

/-- The steps up to the first that fails, and that one with them. -/
def attempted : List (Step ε α) → List (Step ε α)
  -- The failing step is attempted too, and it is the last one.
  | [] => []
  | step :: rest =>
    match step.result with
    | .error _ => [step]
    | .ok _ => step :: attempted rest

/-- Continues gathered values by the value of a step, at the end of them. -/
def appendTo (step : Step ε α) (values : List α) : Checked (Costed (Except ε (List α))) :=
  -- Values are gathered in the order of their steps.
  .ok (step.toCosted.mapOk fun value => values ++ [value])

/-- Steps chained one after another, from no values and the given cost. -/
def chain (start : Cost) (steps : List (Step ε α)) : Checked (Costed (Except ε (List α))) :=
  -- A failure stays in the chain, where later steps pass it on.
  steps.foldlM (fun gathered step => gathered.andThenOk step.appendTo) ⟨.ok [], start⟩

section Effects

variable {m : Type → Type} [Monad m]

/-- Takes steps in order up to the first error, where each is evaluated when its turn comes. -/
def collectWith (evaluate : ι → m (Step ε α)) :
    List ι → (running : Cost) → m (Checked (Costed (Except ε (List α))))
  | [], running => pure (.ok ⟨.ok [], running⟩)
  | item :: rest, running => do
    let step ← evaluate item
    -- Only a value lets the evaluation go on.
    match step.perform.outcome running with
    | .error overflow => pure (.error overflow)
    | .ok ⟨.error error, running⟩ => pure (.ok ⟨.error error, running⟩)
    | .ok ⟨.ok value, running⟩ => do
      let others ← collectWith evaluate rest running
      pure (others.map (·.mapOk (value :: ·)))

end Effects

/-- Evaluates to a step that is there, and notes it behind those that were noted before. -/
def noted (step : Step ε α) : StateM (List (Step ε α)) (Step ε α) := do
  -- The note is made by the evaluation, before anything is charged.
  modify (· ++ [step])
  return step

/-- A step ends with its result, at the cost it charges. -/
theorem outcome_perform (step : Step ε α) (start : Cost) :
    step.perform.outcome start =
      (start.sumFrom step.charge?.toList).map fun cost => ⟨step.result, cost⟩ := by
  -- A plain step has no charge to make, so nothing can overflow.
  cases step with
  | plain result => rfl
  | costed result =>
    have outcome : (perform (.costed result)).outcome start =
        result.spend.outcome start := rfl
    have single : start.sumFrom [result.cost] = start.add result.cost := by
      simp [Cost.sumFrom]
    rw [outcome, Costed.spend, Charge.outcome_bind, Cost.outcome_charge, charge?, Option.toList,
      single]
    cases start.add result.cost <;> rfl

/-- Costs are added up in two parts. -/
theorem sumFrom_append (start : Cost) (costs others : List Cost) :
    start.sumFrom (costs ++ others) = (do (← start.sumFrom costs).sumFrom others) :=
  -- Adding up is a fold, which may be interrupted at any place.
  List.foldlM_append

/-- The cost of the first step is charged in front of the others. -/
theorem charges_cons (step : Step ε α) (rest : List (Step ε α)) :
    charges (step :: rest) = step.charge?.toList ++ charges rest := by
  -- A plain step contributes the empty list in both forms.
  cases step <;> rfl

/-- The first step charges its cost, and the other steps are taken if it has a value. -/
theorem outcome_collect_cons (step : Step ε α) (rest : List (Step ε α)) (start : Cost) :
    (collect (step :: rest)).outcome start = (do
      let running ← start.sumFrom step.charge?.toList
      match step.result with
      | .error error => .ok ⟨.error error, running⟩
      | .ok value => ((collect rest).outcome running).map (·.mapOk (value :: ·))) := by
  rw [collect, List.mapM_cons, Metered.outcome_bind, outcome_perform]
  -- An overflow ends the evaluation before the result of the step matters.
  cases start.sumFrom step.charge?.toList with
  | error overflow => rfl
  | ok running =>
    simp only [Except.map, bind, Except.bind]
    cases step.result with
    | error error => rfl
    | ok value =>
      -- The values of the other steps are put behind the first one.
      refine (Metered.outcome_bind (collect rest) (fun values => pure (value :: values))
        running).trans ?_
      cases (collect rest).outcome running with
      | error overflow => rfl
      | ok done =>
        obtain ⟨values, cost⟩ := done
        cases values <;> rfl

/-- Steps end with all their values or with the first error, at what the attempted ones charge. -/
theorem outcome_collect (steps : List (Step ε α)) (start : Cost) :
    (collect steps).outcome start =
      (start.sumFrom (charges (attempted steps))).map fun cost => ⟨steps.mapM result, cost⟩ := by
  induction steps generalizing start with
  | nil => rfl
  | cons step rest ih =>
    rw [outcome_collect_cons, attempted, List.mapM_cons]
    cases step.result with
    | error error =>
      -- A failing step is the last that is attempted, and it charges its cost.
      dsimp only
      rw [charges_cons, sumFrom_append]
      cases start.sumFrom step.charge?.toList <;> rfl
    | ok value =>
      dsimp only
      rw [charges_cons, sumFrom_append]
      cases start.sumFrom step.charge?.toList with
      | error overflow => rfl
      | ok running =>
        simp only [bind, Except.bind, ih]
        cases running.sumFrom (charges (attempted rest)) with
        | error overflow => rfl
        | ok cost => cases rest.mapM result <;> rfl

/-- One step of a chain charges what the step charges, and appends its value. -/
theorem andThenOk_appendTo (step : Step ε α) (values : List α) (start : Cost) :
    Costed.andThenOk ⟨.ok values, start⟩ step.appendTo =
      (start.sumFrom step.charge?.toList).map fun running =>
        ⟨step.result.map (values ++ [·]), running⟩ := by
  -- Charging nothing and charging a cost without work are the same.
  have charged : start.add step.toCosted.cost = start.sumFrom step.charge?.toList := by
    cases step with
    | plain result => exact Cost.add_zero start
    | costed result => simp [Cost.sumFrom, charge?, toCosted]
  have value : step.toCosted.value = step.result := by
    cases step <;> rfl
  rw [Costed.andThenOk_eq_andThen, ← charged, ← value]
  simp only [Costed.andThen, Costed.onSuccess, appendTo, Costed.mapOk, Costed.map, bind,
    Except.bind]
  cases start.add step.toCosted.cost <;> rfl

/-- A failure is passed on by the rest of a chain. -/
theorem foldlM_appendTo_error (error : ε) (cost : Cost) (steps : List (Step ε α)) :
    steps.foldlM (fun gathered step => gathered.andThenOk step.appendTo)
      (⟨.error error, cost⟩ : Costed (Except ε (List α))) = .ok ⟨.error error, cost⟩ := by
  -- Each further step leaves the failure and its cost alone.
  induction steps with
  | nil => rfl
  | cons step rest ih =>
    rw [List.foldlM_cons]
    exact ih

/-- A chain that has gathered some values goes on as the steps do, behind these values. -/
theorem foldlM_appendTo (gathered : List α) (start : Cost) (steps : List (Step ε α)) :
    steps.foldlM (fun gathered step => gathered.andThenOk step.appendTo)
      (⟨.ok gathered, start⟩ : Costed (Except ε (List α))) =
        ((collect steps).outcome start).map (·.mapOk (gathered ++ ·)) := by
  induction steps generalizing gathered start with
  | nil =>
    have finished : (collect ([] : List (Step ε α))).outcome start = .ok ⟨.ok [], start⟩ := rfl
    simp only [finished, Except.map, Costed.mapOk, Costed.map, List.append_nil]
    rfl
  | cons step rest ih =>
    rw [List.foldlM_cons, andThenOk_appendTo, outcome_collect_cons]
    cases start.sumFrom step.charge?.toList with
    | error overflow => rfl
    | ok running =>
      simp only [bind, Except.bind, Except.map]
      cases step.result with
      | error error => exact foldlM_appendTo_error error running rest
      | ok value =>
        dsimp only [Except.map]
        rw [ih]
        -- The new value is at the end of the values so far, and in front of those to come.
        have behind : (gathered ++ ·) ∘ (value :: ·) = ((gathered ++ [value]) ++ ·) := by
          funext values
          simp
        cases (collect rest).outcome running with
        | error overflow => rfl
        | ok done =>
          simp only [Except.map, Costed.mapOk_mapOk, behind]

/-- Steps end as their chain does. -/
theorem outcome_collect_eq_chain (steps : List (Step ε α)) (start : Cost) :
    (collect steps).outcome start = chain start steps := by
  -- The chain begins with no values, so nothing stands in front of the gathered ones.
  rw [chain, foldlM_appendTo]
  have same : (fun values : List α => [] ++ values) = id := rfl
  cases (collect steps).outcome start with
  | error overflow => rfl
  | ok done => simp only [Except.map, same, Costed.mapOk_id]

/-- Evaluating steps that are there ends as the steps do. -/
theorem run_collectWith_noted (steps seen : List (Step ε α)) (start : Cost) :
    (collectWith noted steps start).run seen =
      ((collect steps).outcome start, seen ++ steps.take (completed steps start + 1)) := by
  induction steps generalizing seen start with
  | nil =>
    have finished : (collect ([] : List (Step ε α))).outcome start = .ok ⟨.ok [], start⟩ := rfl
    rw [collectWith, finished, List.take_nil, List.append_nil]
    rfl
  | cons step rest ih =>
    rw [outcome_collect_cons, completed, outcome_perform]
    -- The step is noted before anything is known of its outcome.
    have evaluated : (collectWith noted (step :: rest) start).run seen =
        (match step.perform.outcome start with
        | .error overflow => pure (.error overflow)
        | .ok ⟨.error error, running⟩ => pure (.ok ⟨.error error, running⟩)
        | .ok ⟨.ok value, running⟩ => do
          let others ← collectWith noted rest running
          pure (others.map (·.mapOk (value :: ·))) :
          StateM (List (Step ε α)) (Checked (Costed (Except ε (List α))))).run (seen ++ [step]) :=
      rfl
    rw [evaluated, outcome_perform]
    -- An overflow and a failure both end the evaluation behind this step.
    cases start.sumFrom step.charge?.toList with
    | error overflow => rfl
    | ok running =>
      simp only [Except.map, bind, Except.bind]
      cases step.result with
      | error error => rfl
      | ok value =>
        dsimp only
        -- The notes of the other steps begin with this one.
        have others := ih (seen ++ [step]) running
        rw [List.append_assoc] at others
        rw [List.take_succ_cons]
        refine (congrArg (fun run => (run.1.map (·.mapOk (value :: ·)), run.2)) others).trans ?_
        rfl

/-- Steps that have values are attempted, and the ones behind them as if they came first. -/
theorem attempted_append {front : List (Step ε α)} {values : List α}
    (succeeded : front.map result = values.map .ok) (rest : List (Step ε α)) :
    attempted (front ++ rest) = front ++ attempted rest := by
  -- None of the steps in front fails, so the search for a failure passes them.
  induction front generalizing values with
  | nil => rfl
  | cons step front ih =>
    obtain ⟨value, others, rfl, ended, same⟩ := List.map_eq_cons_iff.mp succeeded.symm
    rw [List.cons_append, attempted, ← ended]
    dsimp only
    rw [ih same.symm, List.cons_append]

/-- Steps that have values put them in front of what the ones behind them end with. -/
theorem mapM_result_append {front : List (Step ε α)} {values : List α}
    (succeeded : front.map result = values.map .ok) (rest : List (Step ε α)) :
    (front ++ rest).mapM result = (rest.mapM result).map (values ++ ·) := by
  -- Each step in front has its value, and the first failure is behind them all.
  induction front generalizing values with
  | nil =>
    rw [List.map_eq_nil_iff.mp succeeded.symm]
    cases h : rest.mapM result <;> simp [h, Except.map]
  | cons step front ih =>
    obtain ⟨value, others, rfl, ended, same⟩ := List.map_eq_cons_iff.mp succeeded.symm
    rw [List.cons_append, List.mapM_cons, ← ended, ih same.symm]
    -- Whatever the other steps end with, the value comes first in it.
    cases rest.mapM result <;> rfl

/-- No step is evaluated that is not attempted. -/
theorem take_completed_attempted (steps : List (Step ε α)) (start : Cost) :
    steps.take (completed steps start + 1) <+: attempted steps := by
  induction steps generalizing start with
  | nil => exact List.prefix_rfl
  | cons step rest ih =>
    rw [attempted, completed, outcome_perform, List.take_succ_cons]
    cases step.result with
    | error error =>
      cases start.sumFrom step.charge?.toList <;> exact List.prefix_rfl
    | ok value =>
      -- An overflow ends the evaluation early, among the attempted steps.
      cases start.sumFrom step.charge?.toList with
      | error overflow => exact List.cons_prefix_cons.mpr ⟨rfl, List.nil_prefix⟩
      | ok running => exact List.cons_prefix_cons.mpr ⟨rfl, ih running⟩

/-- When no counter overflows, all attempted steps are evaluated. -/
theorem take_completed_of_finished {steps : List (Step ε α)} {start : Cost}
    {done : Costed (Except ε (List α))} (finished : (collect steps).outcome start = .ok done) :
    steps.take (completed steps start + 1) = attempted steps := by
  -- The steps are taken one by one, each from the cost that the one before it left.
  induction steps generalizing start done with
  | nil => rfl
  | cons step rest ih =>
    rw [outcome_collect_cons] at finished
    obtain ⟨running, charged, finished⟩ := bind_eq_ok_iff.mp finished
    rw [attempted, completed, outcome_perform, charged, List.take_succ_cons]
    simp only [Except.map]
    cases ended : step.result with
    -- A failing step ends both lists.
    | error error => rfl
    | ok value =>
      rw [ended] at finished
      obtain ⟨others, goesOn, -⟩ := map_eq_ok_iff.mp finished
      dsimp only
      rw [ih goesOn]

/--
Steps that accumulate a cost end as the chain of the same steps does, with value, cost and overflow.

They end with the first error, or with all values in order, and charge the costs of the steps up to
the first that fails, where a step without a cost charges nothing. If each step is evaluated when
its turn comes, no step behind a failing one is evaluated.
-/
theorem collected_steps_chained (steps : List (Step ε α)) (start : Cost) :
    (collect steps).outcome start = chain start steps ∧
      (collect steps).outcome start =
        (start.sumFrom (charges (attempted steps))).map (fun cost =>
          ⟨steps.mapM result, cost⟩) ∧
      (∀ (values : List α), steps.map result = values.map .ok →
        attempted steps = steps ∧ steps.mapM result = .ok values) ∧
      (∀ (front : List (Step ε α)) (failing : Step ε α) (rest : List (Step ε α))
        (values : List α) (error : ε), steps = front ++ failing :: rest →
        front.map result = values.map .ok → failing.result = .error error →
          attempted steps = front ++ [failing] ∧ steps.mapM result = .error error) ∧
      ((collectWith noted steps start).run []).1 = (collect steps).outcome start ∧
      ((collectWith noted steps start).run []).2 <+: attempted steps ∧
      ∀ done, (collect steps).outcome start = .ok done →
        ((collectWith noted steps start).run []).2 = attempted steps := by
  -- What was noted before is empty, so the notes are about these steps alone.
  have evaluated := run_collectWith_noted steps [] start
  rw [List.nil_append] at evaluated
  refine ⟨outcome_collect_eq_chain steps start, outcome_collect steps start, ?_, ?_, ?_, ?_, ?_⟩
  · -- Without a failure, the steps are all in front and none is behind.
    intro values succeeded
    have attemptedAll := attempted_append succeeded []
    have valuesAll := mapM_result_append succeeded []
    rw [List.append_nil] at attemptedAll valuesAll
    have finished : ([] : List (Step ε α)).mapM result = .ok [] := rfl
    rw [attemptedAll, valuesAll, finished]
    simp [attempted, Except.map]
  · rintro front failing rest values error rfl succeeded fails
    -- The first failure ends the steps, and whatever is behind it does not matter.
    rw [attempted_append succeeded, mapM_result_append succeeded, attempted, List.mapM_cons, fails]
    exact ⟨rfl, rfl⟩
  · rw [evaluated]
  · rw [evaluated]
    -- An overflow may end the evaluation early, so the notes are a part only.
    exact take_completed_attempted steps start
  · intro done finished
    rw [evaluated]
    -- Without an overflow, the evaluation goes on up to the failure.
    exact take_completed_of_finished finished

end Merkle.Step
