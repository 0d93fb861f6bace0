import GraduatedFit.Proofs.Results
import GraduatedFit.Continuation.Optimizer

/-! The iterations of a continuation as a chain of steps, whatever ends the run. -/

namespace GraduatedFit.Continuation

variable {K : Type}

/-- The record of an event that ends an outer iteration. -/
def Event.iteration? : Event K → Option (Iteration K)
  | .iterated record => some record
  | _ => none

@[simp]
theorem Event.iteration?_iterated (record : Iteration K) : (Event.iterated record).iteration? = some record := rfl

/-- The records of the iterations that a run has completed, in order. -/
def Run.iterations (run : Run K) : List (Iteration K) := run.events.filterMap Event.iteration?

@[simp]
theorem Run.iterations_after (events : List (Event K)) (run : Run K) :
    (run.after events).iterations = events.filterMap Event.iteration? ++ run.iterations := by
  simp [Run.after, Run.iterations]

@[simp]
theorem Run.outcome_after (events : List (Event K)) (run : Run K) :
    (run.after events).outcome = run.outcome := rfl

@[simp]
theorem Run.optimizer_after (events : List (Event K)) (run : Run K) :
    (run.after events).optimizer = run.optimizer := rfl

namespace Optimizer

@[simp]
theorem finish_iterations (o : Optimizer K) (outcome : Outcome) (count : Nat) (mu : K) :
    (o.finish outcome count mu).iterations = [] := rfl

@[simp]
theorem finish_optimizer (o : Optimizer K) (outcome : Outcome) (count : Nat) (mu : K) :
    (o.finish outcome count mu).optimizer = o := rfl

@[simp]
theorem finish_outcome (o : Optimizer K) (outcome : Outcome) (count : Nat) (mu : K) :
    (o.finish outcome count mu).outcome = .ok ⟨o.estimate, o.weights, count, outcome, mu⟩ := rfl

@[simp]
theorem failed_iterations (o : Optimizer K) (failure : Failure K) : (Run.failed o failure).iterations = [] := rfl

@[simp]
theorem failed_optimizer (o : Optimizer K) (failure : Failure K) : (Run.failed o failure).optimizer = o := rfl

@[simp]
theorem failed_outcome (o : Optimizer K) (failure : Failure K) : (Run.failed o failure).outcome = .error failure := rfl

/-- The optimizer that an iteration leaves. -/
def moveTo (o : Optimizer K) (record : Iteration K) : Optimizer K :=
  { o with estimate := record.values, weights := record.weights }

@[simp]
theorem moveTo_estimate (o : Optimizer K) (record : Iteration K) :
    (o.moveTo record).estimate = record.values := rfl

@[simp]
theorem moveTo_weights (o : Optimizer K) (record : Iteration K) :
    (o.moveTo record).weights = record.weights := rfl

/-- The optimizer before the iteration of an index, from the records of all iterations. -/
def stage : Optimizer K → List (Iteration K) → Nat → Optimizer K
  | o, record :: records, i + 1 => stage (o.moveTo record) records i
  | o, _, _ => o

@[simp]
theorem stage_zero (o : Optimizer K) (records : List (Iteration K)) : stage o records 0 = o := by
  cases records <;> rfl

@[simp]
theorem stage_succ (o : Optimizer K) (record : Iteration K) (records : List (Iteration K)) (i : Nat) :
    stage o (record :: records) (i + 1) = stage (o.moveTo record) records i := rfl

/-- Iterations change the estimate and the weights only. -/
theorem stage_frame (o : Optimizer K) (records : List (Iteration K)) (i : Nat) :
    stage o records i =
      { o with estimate := (stage o records i).estimate, weights := (stage o records i).weights } := by
  induction records generalizing o i with
  | nil => cases i <;> rfl
  | cons record records ih =>
      cases i with
      | zero => rfl
      | succ i => exact ih (o.moveTo record) i

theorem stage_after (o : Optimizer K) (records : List (Iteration K)) (i : Nat) (record : Iteration K)
    (present : records[i]? = some record) : stage o records (i + 1) = o.moveTo record := by
  induction records generalizing o i with
  | nil => cases present
  | cons head tail ih =>
      cases i with
      | zero =>
          obtain rfl := Option.some.inj present
          simp
      | succ i => exact ih (o.moveTo head) i present

theorem stage_config (o : Optimizer K) (records : List (Iteration K)) (i : Nat) :
    (stage o records i).config = o.config := by
  rw [stage_frame]

variable [Scalar K]

theorem stage_reweighted (o : Optimizer K) (records : List (Iteration K)) (i : Nat) :
    (stage o records i).reweighted = o.reweighted := by
  rw [stage_frame]
  rfl

theorem stage_weightsAt (o : Optimizer K) (records : List (Iteration K)) (i : Nat) :
    (stage o records i).weightsAt = o.weightsAt := by
  rw [stage_frame]
  rfl

@[simp]
theorem moveTo_nextMu (o : Optimizer K) (record : Iteration K) :
    (o.moveTo record).nextMu = o.nextMu := rfl

@[simp]
theorem moveTo_muConverged (o : Optimizer K) (record : Iteration K) :
    (o.moveTo record).muConverged = o.muConverged := rfl

@[simp]
theorem moveTo_weightsSaturated (o : Optimizer K) (record : Iteration K) :
    (o.moveTo record).weightsSaturated = o.weightsSaturated := rfl

/-- What an iteration does: it reweights the graph, solves it with a fresh base solver from the
estimate, and weighs the factors at the solution. -/
structure Iterates (o : Optimizer K) (clock : Clock) (number : Nat) (mu : K) (record : Iteration K) :
    Prop where
  number_eq : record.iteration = number
  mu_eq : record.mu = mu
  solved : ∃ graph solution, o.reweighted o.weights = .ok graph ∧
    (o.config.base.build.optimize clock graph o.estimate).2.outcome = .ok solution ∧
    record.values = solution.values ∧ record.cost = solution.finalCost
  weighed : o.weightsAt record.values mu = .ok record.weights

theorem checkSolution_ok {solution checked : LeastSquares.Solution K}
    (passed : checkSolution solution = .ok checked) : checked = solution := by
  unfold checkSolution at passed
  split at passed
  · cases passed
  · exact (Except.ok.inj passed).symm

@[simp]
theorem step_iteration_free (o : Optimizer K) (clock : Clock) (number : Nat) (mu : K) :
    (o.step clock number mu).1.filterMap Event.iteration? = [] := by
  unfold step
  split
  · rfl
  · simp only [solve]
    split <;> rfl

/-- A step that succeeds is an iteration. -/
theorem step_iterates {o next : Optimizer K} {clock : Clock} {number : Nat} {mu : K}
    {record : Iteration K} (succeeded : (o.step clock number mu).2 = .ok (next, record)) :
    o.Iterates clock number mu record ∧ next = o.moveTo record := by
  unfold step at succeeded
  split at succeeded
  · cases succeeded
  · rename_i graph reweighted
    simp only [solve, Result.bind_ok_iff, Result.pure_ok, Except.ok.injEq, Prod.mk.injEq] at succeeded
    obtain ⟨checked, ⟨solution, solved, passed⟩, weights, weighed, rfl, rfl⟩ := succeeded
    obtain rfl := checkSolution_ok passed
    exact ⟨⟨rfl, rfl, ⟨graph, checked, reweighted, solved, rfl, rfl⟩, weighed⟩, rfl⟩

/-- Iterations one after the other, each from the optimizer that the one before leaves and with
the next control parameter. -/
inductive Chain (clock : Nat → Clock) : Nat → K → Optimizer K → List (Iteration K) → Optimizer K → Prop
  | nil (number : Nat) (mu : K) (o : Optimizer K) : Chain clock number mu o [] o
  | cons {number : Nat} {mu : K} {o final : Optimizer K} {record : Iteration K}
      {records : List (Iteration K)} (first : o.Iterates (clock number) number mu record)
      (rest : Chain clock (number + 1) (o.nextMu mu) (o.moveTo record) records final) :
      Chain clock number mu o (record :: records) final

/-- How a run that ends well ends, from a number of iterations that are left on: at the limit, or
with the first iteration that meets a test. -/
inductive Ends : Nat → Nat → K → Optimizer K → List (Iteration K) → Solution K → Prop
  | limit (number : Nat) (mu : K) (o : Optimizer K) :
      Ends 0 number mu o [] ⟨o.estimate, o.weights, number, .maxIterationsReached, mu⟩
  | saturated {left number : Nat} {mu : K} {o : Optimizer K} {record : Iteration K}
      (decided : o.weightsSaturated record.weights = true) :
      Ends (left + 1) number mu o [record]
        ⟨record.values, record.weights, number + 1, .converged, mu⟩
  | muConverged {left number : Nat} {mu : K} {o : Optimizer K} {record : Iteration K}
      (undecided : o.weightsSaturated record.weights = false)
      (met : o.muConverged (o.nextMu mu) mu = true) :
      Ends (left + 1) number mu o [record]
        ⟨record.values, record.weights, number + 1, .converged, o.nextMu mu⟩
  | later {left number : Nat} {mu : K} {o : Optimizer K} {record : Iteration K}
      {records : List (Iteration K)} {solution : Solution K}
      (undecided : o.weightsSaturated record.weights = false)
      (unmet : o.muConverged (o.nextMu mu) mu = false)
      (rest : Ends left (number + 1) (o.nextMu mu) (o.moveTo record) records solution) :
      Ends (left + 1) number mu o (record :: records) solution

section Loop

variable {clock : Nat → Clock} {number : Nat} {mu : K} {o next : Optimizer K} {record : Iteration K}

theorem continueFrom_unfinished {failure : Failure K} (left : Nat)
    (unfinished : (o.step (clock number) number mu).2 = .error failure) :
    continueFrom clock (left + 1) number mu o = (Run.failed o failure).after (o.step (clock number) number mu).1 := by
  rcases split : o.step (clock number) number mu with ⟨events, result⟩
  rw [split] at unfinished
  obtain rfl : result = _ := unfinished
  rw [continueFrom, split]

/-- An iteration that decides the weights ends the loop, with the control parameter that they are made with. -/
theorem continueFrom_saturated (left : Nat) (stepped : (o.step (clock number) number mu).2 = .ok (next, record))
    (decided : next.weightsSaturated next.weights = true) :
    continueFrom clock (left + 1) number mu o = (next.finish .converged (number + 1) mu).after
      ((o.step (clock number) number mu).1 ++ [.iterated record] ++ [.weightsSaturated number]) := by
  rcases split : o.step (clock number) number mu with ⟨events, result⟩
  rw [split] at stepped
  obtain rfl : result = _ := stepped
  rw [continueFrom, split]
  exact if_pos decided

theorem continueFrom_muConverged (left : Nat) (stepped : (o.step (clock number) number mu).2 = .ok (next, record))
    (undecided : next.weightsSaturated next.weights = false) (met : next.muConverged (next.nextMu mu) mu = true) :
    continueFrom clock (left + 1) number mu o = (next.finish .converged (number + 1) (next.nextMu mu)).after
      ((o.step (clock number) number mu).1 ++ [.iterated record] ++ [.muConverged number (next.nextMu mu)]) := by
  rcases split : o.step (clock number) number mu with ⟨events, result⟩
  rw [split] at stepped
  obtain rfl : result = _ := stepped
  rw [continueFrom, split]
  exact (if_neg (Bool.eq_false_iff.mp undecided)).trans (if_pos met)

theorem continueFrom_later (left : Nat) (stepped : (o.step (clock number) number mu).2 = .ok (next, record))
    (undecided : next.weightsSaturated next.weights = false) (unmet : next.muConverged (next.nextMu mu) mu = false) :
    continueFrom clock (left + 1) number mu o = (continueFrom clock left (number + 1) (next.nextMu mu) next).after
      ((o.step (clock number) number mu).1 ++ [.iterated record]) := by
  rcases split : o.step (clock number) number mu with ⟨events, result⟩
  rw [split] at stepped
  obtain rfl : result = _ := stepped
  rw [continueFrom, split]
  exact (if_neg (Bool.eq_false_iff.mp undecided)).trans (if_neg (Bool.eq_false_iff.mp unmet))

/-- What a loop makes of the first iteration that is left: it fails there, it ends there by a test that is met, or it
goes on. -/
inductive Continues (clock : Nat → Clock) (left number : Nat) (mu : K) (o : Optimizer K) : Run K → Prop
  | failed {failure : Failure K} (unfinished : (o.step (clock number) number mu).2 = .error failure) :
      Continues clock left number mu o ((Run.failed o failure).after (o.step (clock number) number mu).1)
  | saturated {record : Iteration K}
      (stepped : (o.step (clock number) number mu).2 = .ok (o.moveTo record, record))
      (decided : o.weightsSaturated record.weights = true) :
      Continues clock left number mu o (((o.moveTo record).finish .converged (number + 1) mu).after
        ((o.step (clock number) number mu).1 ++ [.iterated record] ++ [.weightsSaturated number]))
  | muConverged {record : Iteration K}
      (stepped : (o.step (clock number) number mu).2 = .ok (o.moveTo record, record))
      (undecided : o.weightsSaturated record.weights = false) (met : o.muConverged (o.nextMu mu) mu = true) :
      Continues clock left number mu o (((o.moveTo record).finish .converged (number + 1) (o.nextMu mu)).after
        ((o.step (clock number) number mu).1 ++ [.iterated record] ++ [.muConverged number (o.nextMu mu)]))
  | later {record : Iteration K}
      (stepped : (o.step (clock number) number mu).2 = .ok (o.moveTo record, record))
      (undecided : o.weightsSaturated record.weights = false) (unmet : o.muConverged (o.nextMu mu) mu = false) :
      Continues clock left number mu o ((continueFrom clock left (number + 1) (o.nextMu mu) (o.moveTo record)).after
        ((o.step (clock number) number mu).1 ++ [.iterated record]))

theorem continueFrom_continues (clock : Nat → Clock) (left number : Nat) (mu : K) (o : Optimizer K) :
    Continues clock left number mu o (continueFrom clock (left + 1) number mu o) := by
  rcases stepped : (o.step (clock number) number mu).2 with failure | ⟨next, record⟩
  · rw [continueFrom_unfinished left stepped]
    exact .failed stepped
  · obtain ⟨-, rfl⟩ := step_iterates stepped
    cases decided : o.weightsSaturated record.weights with
    | true =>
        rw [continueFrom_saturated left stepped decided]
        exact .saturated stepped decided
    | false =>
        cases met : o.muConverged (o.nextMu mu) mu with
        | true =>
            rw [continueFrom_muConverged left stepped decided met]
            exact .muConverged stepped decided met
        | false =>
            rw [continueFrom_later left stepped decided met]
            exact .later stepped decided met

end Loop

theorem continueFrom_chain (clock : Nat → Clock) (left number : Nat) (mu : K) (o : Optimizer K) :
    Chain clock number mu o (continueFrom clock left number mu o).iterations
      (continueFrom clock left number mu o).optimizer := by
  induction left generalizing number mu o with
  | zero => exact .nil number mu o
  | succ left ih =>
      have continues := continueFrom_continues clock left number mu o
      generalize continueFrom clock (left + 1) number mu o = run at continues ⊢
      cases continues with
      | failed unfinished => simpa using .nil number mu o
      | saturated stepped decided => simpa using .cons (step_iterates stepped).1 (.nil _ _ _)
      | muConverged stepped undecided met => simpa using .cons (step_iterates stepped).1 (.nil _ _ _)
      | later stepped undecided unmet => simpa using .cons (step_iterates stepped).1 (ih _ _ _)

theorem continueFrom_ends {clock : Nat → Clock} {left number : Nat} {mu : K} {o : Optimizer K}
    {solution : Solution K} (finished : (continueFrom clock left number mu o).outcome = .ok solution) :
    Ends left number mu o (continueFrom clock left number mu o).iterations solution := by
  induction left generalizing number mu o with
  | zero =>
      obtain rfl := Except.ok.inj finished
      exact .limit number mu o
  | succ left ih =>
      have continues := continueFrom_continues clock left number mu o
      generalize continueFrom clock (left + 1) number mu o = run at continues finished ⊢
      cases continues with
      | failed unfinished => cases finished
      | saturated stepped decided =>
          obtain rfl := Except.ok.inj finished
          simpa using .saturated decided
      | muConverged stepped undecided met =>
          obtain rfl := Except.ok.inj finished
          simpa using .muConverged undecided met
      | later stepped undecided unmet => simpa using .later undecided unmet (ih finished)

end Optimizer

end GraduatedFit.Continuation
