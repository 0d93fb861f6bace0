import GraduatedFit.Proofs.FailedRun
import GraduatedFit.Proofs.FiniteStates
import GraduatedFit.Proofs.RaisedErrors
import GraduatedFit.Proofs.RobustWrapping
import GraduatedFit.Proofs.WeightShape

/-! The weights of a continuation always fit the graph that it holds, so that no run fails at the reweighting. -/

namespace GraduatedFit

open LeastSquares Result

namespace Error

variable {K : Type}

/-- What a continuation can fail with: what a least-squares run can fail with, or an error that is not finite. -/
def OfContinuation : Error K → Prop
  | continuation (.degenerateMu ..) | continuation (.nonFiniteFactorError ..) => True
  | e => e.OfRun

/-- What a reweighting can fail with. -/
def OfReweighting : Error K → Prop
  | continuation (.weightCountMismatch ..) | model (.unscalableNoiseModel ..) | model (.invalidInput (.weight ..)) => True
  | _ => False

theorem OfRun.ofContinuation {e : Error K} (ofRun : e.OfRun) : e.OfContinuation := by
  cases e with
  | continuation error => cases ofRun
  | model error | factor error | solve error | linear error | observer error => exact ofRun

theorem OfContinuation.not_ofReweighting {e : Error K} (ofContinuation : e.OfContinuation) : ¬ e.OfReweighting := by
  intro ofReweighting
  unfold OfReweighting at ofReweighting
  split at ofReweighting
  · exact ofContinuation
  · exact ofContinuation
  · exact ofContinuation
  · exact ofReweighting

end Error

/-- Whatever a graph cannot be reweighted for is one of three errors. -/
theorem Graph.reweight_raises {K : Type} [Scalar K] (graph : Graph K) (weights : Vec K) :
    (graph.reweight weights).Raises Error.OfReweighting := by
  unfold reweight
  split
  · exact raises_fail trivial
  · refine Raises.bind (raises_mapM fun p _ => ?_) fun _ _ => raises_ok _
    refine Raises.bind ?_ fun _ _ => raises_ok _
    dsimp only
    refine Raises.bind ?_ fun _ _ => ?_
    · unfold checkWeight
      split
      · exact raises_ok _
      · exact raises_fail trivial
    · split
      · exact raises_ok _
      · exact raises_fail trivial

namespace Continuation

namespace Optimizer

section Raising

variable {K : Type} [Scalar K] (o : Optimizer K)

theorem initialMu_raises : o.initialMu.Raises Error.OfContinuation := by
  unfold initialMu
  refine ((o.graph.factorErrors_raises o.estimate).imp fun _ => Error.OfRun.ofContinuation).bind fun errors _ => ?_
  dsimp only
  split
  · exact (raises_fail trivial).bind fun _ made => by cases made
  · exact raises_ok _

theorem weightsAt_raises (values : Values K) (mu : K) : (o.weightsAt values mu).Raises Error.OfContinuation := by
  refine ((o.graph.factorErrors_raises values).imp fun _ => Error.OfRun.ofContinuation).bind fun errors _ => ?_
  refine Raises.bind ?_ fun _ _ => raises_ok _
  unfold checkErrors
  split
  · exact raises_fail trivial
  · exact raises_ok _

theorem solve_raises (clock : Clock) (graph : Graph K) : (o.solve clock graph).2.Raises Error.OfContinuation := by
  have solver := o.config.base.build.optimize_raises clock graph o.estimate
  refine (solver.imp fun _ => Error.OfRun.ofContinuation).bind fun solution _ => ?_
  unfold checkSolution
  split
  · exact raises_fail trivial
  · exact raises_ok _

/-- An iteration whose weights fit fails in its solve or at the errors of its solution. -/
theorem step_raises {o : Optimizer K} {g : Graph K} (reweighted : o.reweighted o.weights = .ok g) (clock : Clock)
    (number : Nat) (mu : K) : (o.step clock number mu).2.Raises Error.OfContinuation := by
  rw [step, reweighted]
  exact (o.solve_raises clock g).bind fun solution _ => (o.weightsAt_raises _ mu).bind fun _ _ => raises_ok _

end Raising

/-- A weight between zero and one for each slot. -/
structure Admissible (o : Optimizer ℝ) : Prop where
  count : o.weights.length = o.graph.size
  unit : ∀ w ∈ o.weights, 0 ≤ w ∧ w ≤ 1

theorem Admissible.of_even {o : Optimizer ℝ} (even : o.weights = List.replicate o.graph.size 1) : o.Admissible where
  count := by rw [even, List.length_replicate]
  unit w member := by
    rw [even] at member
    rw [List.eq_of_mem_replicate member]
    exact ⟨zero_le_one, le_rfl⟩

theorem evenly_admissible (o : Optimizer ℝ) : o.evenly.Admissible := .of_even rfl

/-- Weights that fit can be given to a graph without robust losses. -/
theorem Admissible.reweighted {o : Optimizer ℝ} (admissible : o.Admissible)
    (plain : o.graph.hasRobustFactors = false) : ∃ g, o.reweighted o.weights = .ok g := by
  obtain ⟨g, done, -⟩ := Graph.reweight_exists plain admissible.count fun w member => (admissible.unit w member).1
  exact ⟨g, done⟩

section Runs

variable {o : Optimizer ℝ} (plain : o.graph.hasRobustFactors = false) (threshold : 0 < o.config.threshold)
include plain threshold

/-- One weight for each slot comes out of every weighing with a positive control parameter. -/
theorem moveTo_admissible {mu : ℝ} {record : Iteration ℝ} (positive : 0 < mu)
    (weighed : o.weightsAt record.values mu = .ok record.weights) : (o.moveTo record).Admissible := by
  obtain ⟨errors, known, rest⟩ := Result.bind_ok_iff.mp weighed
  obtain ⟨_, -, done⟩ := Result.bind_ok_iff.mp rest
  have weights := (Except.ok.inj done).symm
  have nonneg := Graph.errors_nonneg plain known
  have count : errors.length = o.graph.size := (Result.mapM_ok_iff.mp known).length_eq.symm
  constructor
  · show record.weights.length = o.graph.size
    rw [weights, length_weights, count]
  · show ∀ w ∈ record.weights, 0 ≤ w ∧ w ≤ 1
    intro w member
    rw [weights] at member
    obtain ⟨slot, inside, rfl⟩ := List.mem_mapIdx.mp member
    split
    · exact ⟨zero_le_one, le_rfl⟩
    · have unit := o.config.family.weight_unit (nonneg _ (List.getElem_mem inside)) (mul_pos positive threshold)
      exact ⟨unit.1.le, unit.2⟩

/-- Through all iterations of a run the weights fit, also those of an iteration that fails. -/
theorem stage_admissible (growing : 1 < o.config.muStep) (clock : Nat → Clock) {i : Nat}
    (within : i ≤ (o.optimize clock).iterations.length) :
    (stage o.evenly (o.optimize clock).iterations i).Admissible := by
  cases i with
  | zero =>
      rw [stage_zero]
      exact o.evenly_admissible
  | succ i =>
      rcases o.optimize_cases clock with ⟨none, -⟩ | ⟨mu, cost, initial, start, someFree, positive⟩
      · rw [none] at within
        cases within
      · have found := List.getElem?_eq_getElem within
        have chain := continueFrom_chain clock o.config.maxIterations 0 mu o.evenly
        rw [← (optimize_begun clock initial start someFree positive).1] at chain
        have weighed := (chain_iterates chain found).weighed
        rw [stage_weightsAt] at weighed
        rw [stage_after _ _ _ _ found]
        have low : 0 < mu := by simpa using positive
        exact moveTo_admissible (o := o.evenly) plain threshold (muAt_pos low growing i) weighed

/-- No run fails at a reweighting. -/
theorem optimize_raises (growing : 1 < o.config.muStep) (clock : Nat → Clock) :
    (o.optimize clock).outcome.Raises Error.OfContinuation := by
  intro failure failed e member
  obtain ⟨fails, -, -⟩ := optimize_failed failed
  have admissible := stage_admissible plain threshold growing clock (le_refl (o.optimize clock).iterations.length)
  generalize (o.optimize clock).iterations = records at fails admissible
  cases fails with
  | parameter unknown => exact o.initialMu_raises failure unknown e member
  | cost initial unknown => exact (o.graph.error_raises _ failure unknown e member).ofContinuation
  | plain initial start early unsolved => exact o.evenly.solve_raises _ _ failure unsolved e member
  | iteration initial start someFree positive unfinished =>
      obtain ⟨g, reweighted⟩ := admissible.reweighted (by rw [stage_frame]; exact plain)
      exact step_raises reweighted _ _ _ failure unfinished e member

end Runs

/-- Whatever runs have come before, the weights that an optimizer holds fit. -/
theorem Reachable.admissible {graph : Graph ℝ} {initial : Values ℝ} {config : Config ℝ} {o : Optimizer ℝ}
    (plain : graph.stripRobustLosses.hasRobustFactors = false) (reachable : Reachable graph initial config o) :
    o.Admissible := by
  induction reachable with
  | created made =>
      have built := (Reachable.created made).builtFrom
      obtain ⟨-, -, rfl⟩ := create_ok_iff.mp made
      exact .of_even (by rw [built.size_eq])
  | @optimized o before clock ih =>
      have built := before.builtFrom
      obtain ⟨threshold, growing⟩ := Config.validate_real built.valid
      rw [← built.config_eq] at threshold growing
      rw [← built.graph_eq] at plain
      rcases o.optimize_leaves clock with
        same | same | ⟨base, -, moved⟩ | ⟨mu, i, record, initially, positive, iterates, moved⟩
      · rw [same]
        exact ih
      · rw [same]
        exact o.evenly_admissible
      · rw [moved]
        exact ⟨o.evenly_admissible.count, o.evenly_admissible.unit⟩
      · rw [moved]
        have weighed := iterates.weighed
        rw [stage_weightsAt] at weighed
        have low : 0 < mu := by simpa using positive
        exact moveTo_admissible plain threshold (muAt_pos low growing i) weighed

/-- A continuation of a graph with constructed noise models never holds weights that its graph cannot take: the
reweighting at the start of every iteration succeeds, and whatever a run fails with has another cause. -/
theorem reweighting_succeeds {graph : Graph ℝ} (models : ∀ f ∈ graph.factors, f.noise.Made) {initial : Values ℝ}
    {config : Config ℝ} {o : Optimizer ℝ} (reachable : Reachable graph initial config o) (clock : Nat → Clock) :
    let run := o.optimize clock
    o.graph.hasRobustFactors = false ∧ o.Admissible ∧ (∃ g, o.reweighted o.weights = .ok g) ∧
    (∀ record ∈ run.iterations, 0 < record.mu) ∧
    (∀ i ≤ run.iterations.length, let stage := stage o.evenly run.iterations i
      stage.Admissible ∧ ∃ g, stage.reweighted stage.weights = .ok g) ∧
    ∀ failure, run.outcome = .error failure → ∀ e ∈ failure.errors, ¬ e.OfReweighting := by
  intro run
  have built := reachable.builtFrom
  obtain ⟨threshold, growing⟩ := Config.validate_real built.valid
  rw [← built.config_eq] at threshold growing
  have bare := Graph.stripRobustLosses_isPlain fun f member => (models f member).sound
  have plain : o.graph.hasRobustFactors = false := by rw [built.graph_eq, bare]
  have admissible := reachable.admissible bare
  refine ⟨plain, admissible, admissible.reweighted plain, ?_, ?_, ?_⟩
  · intro record member
    rcases o.optimize_cases clock with ⟨none, -⟩ | ⟨mu, cost, initial, start, someFree, positive⟩
    · have absent : record ∈ (o.optimize clock).iterations := member
      rw [none] at absent
      cases absent
    · obtain ⟨i, found⟩ := List.mem_iff_getElem?.mp member
      have chain := continueFrom_chain clock o.config.maxIterations 0 mu o.evenly
      rw [← (optimize_begun clock initial start someFree positive).1] at chain
      rw [(chain_iterates chain found).mu_eq]
      have low : 0 < mu := by simpa using positive
      exact muAt_pos (o := o.evenly) low growing i
  · intro i within
    have fits := stage_admissible plain threshold growing clock within
    exact ⟨fits, fits.reweighted (by rw [stage_frame]; exact plain)⟩
  · intro failure failed e member
    exact (optimize_raises plain threshold growing clock failure failed e member).not_ofReweighting

theorem lapsing_created : create (lapsingGraph 1) (.single 0) (lapsing 0 1).config = .ok (lapsing 0 1) := by
  have valid : (lapsing 0 1).config.validate = .ok () := Config.validate_ok_iff.mpr (by norm_num [lapsing, Config.ofBase])
  exact create_ok_iff.mpr ⟨valid, List.forall_mem_nil _, rfl⟩

/-- A run that fails in its second iteration, after a reweighting that succeeds. -/
theorem lapsing_reweighted :
    let run := (lapsing 0 1).optimize fun _ _ => 0
    run.iterations.length = 1 ∧
    (∃ g, (stage (lapsing 0 1).evenly run.iterations 1).reweighted [4 / 9] = .ok g) ∧
    ∃ failure, run.outcome = .error failure ∧ ∀ e ∈ failure.errors, ¬ e.OfReweighting := by
  intro run
  have models : ∀ f ∈ (lapsingGraph 1).factors, f.noise.Made := by
    intro f member
    obtain rfl := List.mem_singleton.mp member
    exact .ofSigma (show Noise.ofSigma 1 1 = .ok (.isotropic 1 1) by simp [Noise.ofSigma])
  obtain ⟨failure, record, x, failed, completed, -, -, weights⟩ := lapsing_fails
  obtain ⟨-, -, -, -, stages, causes⟩ := reweighting_succeeds models (.created lapsing_created) fun _ _ => 0
  have once : run.iterations.length = 1 := congrArg List.length completed
  obtain ⟨-, g, done⟩ := stages 1 once.ge
  have held : (stage (lapsing 0 1).evenly run.iterations 1).weights = [4 / 9] := by
    rw [stage_after _ _ 0 record (by rw [completed]; rfl), moveTo_weights, weights]
  rw [held] at done
  exact ⟨once, ⟨g, done⟩, failure, failed, causes failure failed⟩

end Optimizer

end Continuation

end GraduatedFit
