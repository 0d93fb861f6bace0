import GraduatedFit.Proofs.NeverUphill
import GraduatedFit.LeastSquares.Solver

/-! The errors that a least-squares run can fail with. -/

namespace GraduatedFit

variable {K α β : Type}

namespace Result

/-- Every error made on the way to a failure is of the given kind. -/
def Raises (kind : Error K → Prop) (x : Result K α) : Prop :=
  ∀ failure, x = .error failure → ∀ e ∈ failure.errors, kind e

variable {kind kind' : Error K → Prop}

theorem Raises.imp {x : Result K α} (raises : x.Raises kind) (wider : ∀ e, kind e → kind' e) : x.Raises kind' :=
  fun failure failed e member => wider e (raises failure failed e member)

theorem raises_ok (a : α) : Raises kind (.ok a : Result K α) := by
  intro failure failed
  cases failed

theorem raises_misshapen : Raises kind (.error .misshapen : Result K α) := by
  intro failure failed e member
  obtain rfl := Except.error.inj failed
  cases member

theorem raises_fail {error : Error K} (known : kind error) : (fail error : Result K α).Raises kind := by
  intro failure failed e member
  obtain rfl := Except.error.inj failed
  obtain rfl := List.mem_singleton.mp member
  exact known

theorem raises_ofShape (x : Option α) : (ofShape x : Result K α).Raises kind := by
  cases x with
  | none => exact raises_misshapen
  | some a => exact raises_ok a

/-- A failure is the same for results of any type. -/
theorem Raises.failed {failure : Failure K} (raises : Raises kind (.error failure : Result K α)) (β : Type) :
    Raises kind (.error failure : Result K β) := by
  intro _ same
  obtain rfl := Except.error.inj same
  exact raises failure rfl

theorem Raises.bind {x : Result K α} {f : α → Result K β} (first : x.Raises kind)
    (rest : ∀ a, x = .ok a → (f a).Raises kind) : (x >>= f).Raises kind := by
  cases x with
  | error failure => exact first.failed β
  | ok a => exact rest a rfl

theorem Raises.map {x : Result K α} (raises : x.Raises kind) (f : α → β) : (f <$> x).Raises kind := by
  cases x with
  | error failure => exact raises.failed β
  | ok a => exact raises_ok _

theorem raises_mapM {f : α → Result K β} {xs : List α} (each : ∀ x ∈ xs, (f x).Raises kind) :
    (xs.mapM f).Raises kind := by
  intro failure failed
  obtain ⟨i, x, present, failing, -⟩ := mapM_error_iff.mp failed
  exact each x (List.mem_of_getElem? present) failure failing

theorem raises_foldlM {f : β → α → Result K β} (each : ∀ b a, (f b a).Raises kind) (xs : List α) (b : β) :
    (xs.foldlM f b).Raises kind := by
  induction xs generalizing b with
  | nil => exact raises_ok b
  | cons x xs ih => exact (each b x).bind fun next _ => ih next

end Result

open Result

/-- What a least-squares run can fail with: a missing variable, a factor that gives no block of its shape, or a system
that cannot be solved. -/
def Error.OfRun : Error K → Prop
  | model (.lookup _) | model (.factorLinearization _) | model (.symbolicStructure _) | model (.dimensionMismatch _)
  | solve _ | linear _ => True
  | _ => False

namespace Values

theorem find_raises (values : Values K) (key : String) : (values.find key).Raises Error.OfRun := by
  unfold find
  split
  · exact raises_ok _
  · exact raises_fail trivial

end Values

namespace GraphFactor

variable (f : GraphFactor K) (values : Values K)

theorem params_raises : (f.params values).Raises Error.OfRun := raises_mapM fun key _ => values.find_raises key

theorem checkResidual_raises (residual : Vec K) : (f.checkResidual residual).Raises Error.OfRun := by
  unfold checkResidual
  split
  · exact raises_ok _
  · exact raises_fail trivial

theorem checkJacobian_raises (params : List (Vec K)) (residual : Vec K) (J : Option (Mat K)) :
    (f.checkJacobian params residual J).Raises Error.OfRun := by
  unfold checkJacobian
  split
  · exact raises_fail trivial
  · dsimp only
    split
    · exact raises_ok _
    · exact raises_fail trivial

theorem residual_raises : (f.residual values).Raises Error.OfRun := by
  refine (f.params_raises values).bind fun params _ => ?_
  refine (raises_ofShape _).bind fun ⟨residual, _⟩ _ => ?_
  exact (f.checkResidual_raises residual).bind fun _ _ => raises_ok _

variable [Scalar K]

theorem error_raises : (f.error values).Raises Error.OfRun :=
  (f.residual_raises values).bind fun _ _ => raises_ofShape _

theorem linearize_raises (wanted : Bool) : (f.linearize values wanted).Raises Error.OfRun := by
  refine (f.params_raises values).bind fun params _ => ?_
  refine (raises_ofShape _).bind fun ⟨residual, jacobian⟩ _ => ?_
  refine (f.checkResidual_raises residual).bind fun _ _ => ?_
  dsimp only
  split
  · exact ((f.checkJacobian_raises params residual jacobian).map some).bind fun _ _ => raises_ofShape _
  · exact (raises_ok _).bind fun _ _ => raises_ofShape _

end GraphFactor

namespace Graph

section Layouts

variable (graph : Graph K) (values : Values K)

theorem layout_raises : (graph.layout values).Raises Error.OfRun := by
  refine Raises.bind (raises_mapM fun key _ => ?_) fun _ _ => raises_ok _
  exact (values.find_raises key).bind fun _ _ => raises_ok _

theorem positionsFrom_raises (layout : Layout) (row : Nat) (fs : List (GraphFactor K)) :
    (positionsFrom values layout row fs).Raises Error.OfRun := by
  induction fs generalizing row with
  | nil => exact raises_ok _
  | cons f fs ih =>
      refine Raises.bind (raises_mapM fun key _ => ?_) fun _ _ => (ih _).bind fun _ _ => raises_ok _
      dsimp only
      split
      · exact (raises_ok _).bind fun _ _ => (values.find_raises key).bind fun _ _ => raises_ok _
      · exact (raises_fail trivial).bind fun _ made => by cases made

theorem pattern_raises (layout : Layout) : (graph.pattern values layout).Raises Error.OfRun := by
  refine (positionsFrom_raises values layout 0 graph.factors).bind fun positions _ => ?_
  dsimp only
  split
  · exact raises_ok _
  · exact raises_fail trivial

end Layouts

variable [Scalar K] (graph : Graph K) (values : Values K)

theorem factorErrors_raises : (graph.factorErrors values).Raises Error.OfRun :=
  raises_mapM fun f _ => f.error_raises values

theorem error_raises : (graph.error values).Raises Error.OfRun :=
  (graph.factorErrors_raises values).bind fun _ _ => raises_ok _

theorem linearizeBlock_raises (f : GraphFactor K) : (linearizeBlock values f).Raises Error.OfRun := by
  refine (f.linearize_raises values true).bind fun ⟨residual, jacobian⟩ _ => ?_
  refine Raises.bind (raises_mapM fun key _ => ?_) fun _ _ => raises_ok _
  exact (values.find_raises key).bind fun _ _ => raises_ok _

theorem linearize_raises (pattern : Pattern) : (graph.linearize values pattern).Raises Error.OfRun := by
  refine Raises.bind (raises_mapM fun f _ => linearizeBlock_raises values f) fun _ _ => ?_
  exact (raises_ofShape _).bind fun _ _ => raises_ok _

end Graph

variable [Scalar K]

namespace Elimination

theorem solveInBlocks_raises (places : Places) (S : Symmetric K) (b : Vec K) :
    (solveInBlocks places S b).Raises Error.OfRun := by
  unfold solveInBlocks
  split
  · split
    · split
      · exact raises_ok _
      · exact raises_fail trivial
    · exact raises_fail trivial
  · exact raises_misshapen

theorem Workspace.useRow_raises (places : Places) (w : Workspace K) (k : Nat) (entries : List (Nat × K)) :
    (w.useRow places k entries).Raises Error.OfRun := by
  unfold useRow
  dsimp only
  split
  · refine Raises.bind (raises_foldlM (fun progress j => ?_) _ _) fun ⟨w, d⟩ _ => ?_
    · unfold useColumn
      dsimp only
      split
      · exact raises_misshapen
      · exact raises_ok _
    · dsimp only
      split
      · exact raises_ok _
      · exact raises_fail trivial
  · exact raises_misshapen

theorem solveInPlaces_raises (places : Places) (columns : List Nat) (S : Symmetric K) (b : Vec K) :
    (solveInPlaces places columns S b).Raises Error.OfRun := by
  refine Raises.bind (raises_foldlM (fun w p => ?_) _ _) fun _ _ => raises_ok _
  exact w.useRow_raises places p.2 p.1

theorem Plan.solve_raises (plan : Plan) (S : Symmetric K) (b : Vec K) : (plan.solve S b).Raises Error.OfRun := by
  unfold solve
  dsimp only
  split
  · exact raises_misshapen
  · refine Raises.bind ?_ fun _ _ => raises_ok _
    unfold solveOrdered
    split
    · exact solveInBlocks_raises _ _ _
    · split
      · split
        · exact raises_ok _
        · exact raises_fail trivial
      · exact solveInPlaces_raises _ _ _ _

end Elimination

theorem NormalEquations.solve_raises (kept : NormalEquations K) (r : Vec K) (J : SparseMat K) (damping : Option K) :
    (kept.solve r J damping).2.Raises Error.OfRun := by
  unfold solve
  split
  · exact raises_misshapen
  · dsimp only
    split
    · exact raises_ok _
    · rename_i failure unsolved
      rw [← unsolved]
      exact Elimination.Plan.solve_raises _ _ _

namespace LeastSquares

omit [Scalar K] in
/-- The failure of an iteration lists the linear error that it comes from. -/
theorem State.wrapLinear_raises {x : Result K α} (raises : x.Raises Error.OfRun) (fault : LinearError → SystemFault) :
    Raises Error.OfRun (x.mapError (wrapLinear fault) : Result K α) := by
  cases x with
  | ok a => exact raises_ok a
  | error failure =>
      have known := raises failure rfl
      intro _ failed e member
      obtain rfl := Except.error.inj failed
      unfold wrapLinear at member
      split at member
      · rename_i error causes
        simp only [Failure.errors, List.mem_append, List.mem_singleton] at member known
        rcases member with (cause | rfl) | rfl
        · exact known e (.inl cause)
        · trivial
        · trivial
      · exact known e member

namespace Problem

variable (problem : Problem K) (values : Values K)

omit [Scalar K] in
theorem prepare_raises (graph : Graph K) : (prepare graph values).Raises Error.OfRun := by
  unfold prepare
  dsimp only
  split
  · exact (raises_fail trivial).bind fun _ made => by cases made
  · refine (graph.layout_raises values).bind fun layout _ => ?_
    split
    · exact (raises_fail trivial).bind fun _ made => by cases made
    · exact (graph.pattern_raises values layout).bind fun _ _ => raises_ok _

theorem linearize_raises : (problem.linearize values).Raises Error.OfRun := problem.graph.linearize_raises values _

theorem cost_raises : (problem.cost values).Raises Error.OfRun := problem.graph.error_raises values

theorem retract_raises (step : Vec K) : (problem.retract values step).Raises Error.OfRun := raises_ofShape _

end Problem

theorem State.direction_raises (s : State K) (useScaling : Bool) (damping : Option K) (fault : LinearError → SystemFault)
    (noGradient : SolveError K) (r : Vec K) (J : SparseMat K) :
    (s.direction useScaling damping fault noGradient r J).Raises Error.OfRun := by
  unfold direction
  refine Raises.bind ?_ fun scaled _ => ?_
  · unfold scaledJacobian
    split
    · split
      · exact raises_ok _
      · exact raises_fail trivial
    · exact raises_ok _
  · dsimp only
    refine Raises.bind (wrapLinear_raises (s.equations.solve_raises r scaled damping) fault) fun _ _ => ?_
    split
    · exact raises_ok _
    · exact raises_fail trivial

namespace GaussNewton

variable (config : GaussNewton K) (problem : Problem K)

/-- The state in which an iteration solves its system. -/
def rescaled (J : SparseMat K) (s : State K) : State K :=
  { s.updateScaling config.useScaling J with jacobianEvaluations := s.jacobianEvaluations + 1 }

/-- What an iteration returns, as a sequence of its operations. -/
theorem advance_outcome (s : State K) : (config.advance problem s).2 = (do
    let (r, J) ← problem.linearize s.values
    let d ← config.direction r J (config.rescaled J s)
    Prod.snd <$> take problem d (config.rescaled J s)) := by
  unfold advance
  cases problem.linearize s.values with
  | error failure => rfl
  | ok system =>
      obtain ⟨r, J⟩ := system
      simp only [Result.ok_bind]
      rcases solved : config.direction r J (config.rescaled J s) with failure | d
      · unfold rescaled at solved
        simp only [solved]
        rfl
      · rcases taken : take problem d (config.rescaled J s) with failure | ⟨s', step⟩
        all_goals
          unfold rescaled at solved taken ⊢
          simp only [solved, Result.ok_bind, taken]
          rfl

theorem advance_raises (s : State K) : (config.advance problem s).2.Raises Error.OfRun := by
  rw [advance_outcome]
  refine (problem.linearize_raises _).bind fun ⟨r, J⟩ _ => (State.direction_raises _ _ _ _ _ r J).bind fun d _ => ?_
  refine Raises.map ?_ _
  exact (problem.retract_raises _ _).bind fun _ _ => (problem.cost_raises _).bind fun _ _ => raises_ok _

end GaussNewton

namespace LevenbergMarquardt

variable (config : LevenbergMarquardt K) (problem : Problem K)

theorem advance_outcome (s : DampedState K) : (config.advance problem s).2 = (do
    let (r, J) ← problem.linearize s.values
    let d ← config.direction r J (config.rescaled J s)
    Prod.snd <$> config.attempt problem d (config.rescaled J s)) := by
  unfold advance
  cases problem.linearize s.values with
  | error failure => rfl
  | ok system =>
      obtain ⟨r, J⟩ := system
      simp only [Result.ok_bind]
      rcases solved : config.direction r J (config.rescaled J s) with failure | d
      · unfold rescaled at solved
        simp only [solved]
        rfl
      · rcases taken : config.attempt problem d (config.rescaled J s) with failure | ⟨s', step⟩
        all_goals
          unfold rescaled at solved taken ⊢
          simp only [solved, Result.ok_bind, taken]
          rfl

theorem advance_raises (s : DampedState K) : (config.advance problem s).2.Raises Error.OfRun := by
  rw [advance_outcome]
  refine (problem.linearize_raises _).bind fun ⟨r, J⟩ _ => (State.direction_raises _ _ _ _ _ r J).bind fun d _ => ?_
  refine Raises.map ?_ _
  exact (problem.retract_raises _ _).bind fun _ _ => (problem.cost_raises _).bind fun _ _ => raises_ok _

end LevenbergMarquardt

omit [Scalar K] in
/-- A loop fails where one of its iterations does. -/
theorem iterate_raises {σ : Type} {scheme : Scheme K σ} {kind : Error K → Prop}
    (each : ∀ s, (scheme.advance s).2.Raises kind) (left : Nat) (s : σ) :
    (iterate scheme left s).outcome.Raises kind := by
  induction left generalizing s with
  | zero =>
      rw [iterate]
      rcases advanced : scheme.advance s with ⟨s', failure | step⟩
      · exact (congrArg Prod.snd advanced ▸ each s).failed _
      · dsimp only
        split <;> exact raises_ok _
  | succ left ih =>
      rw [iterate]
      rcases advanced : scheme.advance s with ⟨s', failure | step⟩
      · exact (congrArg Prod.snd advanced ▸ each s).failed _
      · dsimp only
        split
        · exact raises_ok _
        · split
          · exact raises_ok _
          · exact ih s'

theorem begin_raises (graph : Graph K) (initial : Values K) : Raises Error.OfRun (do
    let problem ← Problem.prepare graph initial
    return (problem, ← problem.cost initial)) :=
  (Problem.prepare_raises initial graph).bind fun problem _ => (problem.cost_raises initial).bind fun _ _ => raises_ok _

theorem Solver.optimize_raises (solver : Solver K) (clock : Clock) (graph : Graph K) (initial : Values K) :
    (solver.optimize clock graph initial).2.outcome.Raises Error.OfRun := by
  obtain ⟨method, scaling⟩ := solver
  have before := begin_raises graph initial
  cases method with
  | gaussNewton config =>
      simp only [optimize, GaussNewton.run]
      split
      · rename_i failure failed
        exact (failed ▸ before).failed _
      · exact (iterate_raises (config.advance_raises _) _ _).map _
  | levenbergMarquardt config =>
      simp only [optimize, LevenbergMarquardt.run]
      split
      · rename_i failure failed
        exact (failed ▸ before).failed _
      · exact (iterate_raises (config.advance_raises _) _ _).map _

end LeastSquares

end GraduatedFit
