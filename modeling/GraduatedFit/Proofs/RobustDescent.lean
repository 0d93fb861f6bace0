import GraduatedFit.Proofs.ConcaveLosses
import GraduatedFit.Proofs.NewtonSteps

/-! Gauss-Newton on affine factors under concave losses: the cost gains no more by a step than the linear system does. -/

namespace GraduatedFit

theorem Mat.apply_scaled (c : ℝ) (A : Mat ℝ) (d : Vec ℝ) : (A.map (c * ·)).apply d = (A.apply d).map (c * ·) := by
  have commuted : (fun x : ℝ => c * x) = (· * c) := funext fun x => mul_comm c x
  simp only [apply, map, List.map_map, commuted]
  exact List.map_congr_left fun row _ => (Vec.dot_scaled c row d).trans (mul_comm _ _)

/-- A system times a factor moves by the factor times what it moved by before. -/
theorem Vec.normSq_scaled_moved (c : ℝ) (b d : Vec ℝ) (B : Mat ℝ) :
    normSq (List.zipWith (· + ·) (b.map (c * ·)) ((B.map (c * ·)).apply d)) =
      c ^ 2 * normSq (List.zipWith (· + ·) b (B.apply d)) := by
  have shared : List.zipWith (· + ·) (b.map (c * ·)) ((B.apply d).map (c * ·)) =
      (List.zipWith (· + ·) b (B.apply d)).map (c * ·) := by
    simp only [List.zipWith_map, List.map_zipWith, mul_add]
  rw [Mat.apply_scaled, shared, normSq_scaled]

namespace GraphFactor

variable {f : GraphFactor ℝ} {values values' : Values ℝ} {system : Vec ℝ × Mat ℝ}

/-- No loss, or one of a scale whose floor takes no effect at the squared norm of the whitened residual. -/
def Unfloored (values : Values ℝ) (f : GraphFactor ℝ) : Prop :=
  ∀ loss, f.noise.loss? = some loss → ∃ kind scale, Loss.Kind.loss kind scale = .ok loss.value ∧
    ∀ r w, f.residual values = .ok r → f.noise.whiten? r = some w → kind.Unfloored scale (Vec.normSq w)

/-- The system of a slot under a concave loss is that of the slot without it, times the root of the slope. -/
theorem hasSystem_wrapped {loss : Shared (Loss ℝ)} (plain : f.noise.isRobust = false)
    (concave : ∀ s, 0 ≤ s → (loss.value.jet s).curvature ≤ 0) (hasSystem : (f.wrapped loss).HasSystem values system) :
    ∃ b B, f.HasSystem values (b, B) ∧
      let root := √(loss.value.jet (Vec.normSq b)).slope
      system = (b.map (root * ·), B.map (root * ·)) := by
  have linear := hasSystem.linear
  rw [linearize_wrapped plain concave] at linear
  obtain ⟨⟨b, jacobian⟩, bare, same⟩ := Result.map_ok_iff.mp linear
  obtain ⟨B, rfl, hasSystem'⟩ := hasSystem_of_linearize bare
  obtain ⟨residual, jacobian⟩ := Prod.mk.inj same
  exact ⟨b, B, hasSystem', Prod.ext residual.symm (Option.some.inj jacobian).symm⟩

section Moved

variable {params directions : List (Vec ℝ)} (known : f.params values = .ok params)
  (sizes : directions.map List.length = params.map List.length)
  (moves : f.params values' = .ok (List.zipWith (List.zipWith (· + ·)) params directions))
include known sizes moves

/-- Without a loss the error of a moved slot is half the squared norm of its moved system. -/
theorem HasSystem.error_moved (hasSystem : f.HasSystem values system) (affine : f.factor.value.Affine)
    (plain : f.noise.isRobust = false) : f.error values = .ok (0.5 * Vec.normSq system.1) ∧
      f.error values' = .ok (0.5 * Vec.normSq (List.zipWith (· + ·) system.1 (system.2.apply directions.flatten))) :=
  ⟨error_of_linearize plain affine.coherent hasSystem.linear,
    error_of_linearize plain affine.coherent (hasSystem.moved affine plain known sizes moves)⟩

/-- Under a loss the error of a moved slot is below the tangent of the loss, which the system of the slot has for its
half squared norm. -/
theorem HasSystem.wrapped_error_moved {loss : Shared (Loss ℝ)} (hasSystem : (f.wrapped loss).HasSystem values system)
    (affine : f.factor.value.Affine) (plain : f.noise.isRobust = false) (unfloored : (f.wrapped loss).Unfloored values) :
    ∃ e e', (f.wrapped loss).error values = .ok e ∧ (f.wrapped loss).error values' = .ok e' ∧
      e' + 0.5 * Vec.normSq system.1 ≤
        e + 0.5 * Vec.normSq (List.zipWith (· + ·) system.1 (system.2.apply directions.flatten)) := by
  obtain ⟨kind, scale, made, unfloored⟩ := unfloored loss rfl
  obtain ⟨positive, jet⟩ := Loss.Kind.loss_jet made
  have concave (s : ℝ) (nonneg : 0 ≤ s) : (loss.value.jet s).curvature ≤ 0 := by
    rw [jet]
    exact Loss.Kind.jet_curvature positive nonneg
  obtain ⟨b, B, bare, rfl⟩ := hasSystem_wrapped plain concave hasSystem
  have slope : (loss.value.jet (Vec.normSq b)).slope = kind.slope scale (Vec.normSq b) := by
    obtain ⟨_, r, A, known', evaluated, length, -, -, whitened⟩ := linearize_ok_iff.mp bare.linear
    obtain ⟨_, _, first, -, same⟩ := (Noise.whitenSystem_plain_iff plain).mp whitened
    obtain ⟨rfl, -⟩ := Prod.mk.inj same
    rw [jet]
    exact Loss.Kind.jet_slope positive
      (unfloored r b (residual_of_linearize affine.coherent known' evaluated length) first)
  obtain ⟨before, after⟩ := bare.error_moved known sizes moves affine plain
  have twice (x : ℝ) : 2 * (0.5 * x) = x := by ring
  refine ⟨_, _, by rw [error_wrapped plain, before]; rfl, by rw [error_wrapped plain, after]; rfl, ?_⟩
  have tangent := kind.value_tangent positive (Vec.normSq_nonneg b)
    (Vec.normSq_nonneg (List.zipWith (· + ·) b (B.apply directions.flatten)))
  have root := Real.sq_sqrt (kind.slope_pos positive (Vec.normSq_nonneg b)).le
  dsimp only
  rw [Vec.normSq_scaled_moved, Vec.normSq_scaled, twice, twice, slope, root, jet]
  linarith

/-- Where its variables are moved the error of an affine slot gains no more than the half squared norm of its system. -/
theorem HasSystem.error_moved_le (hasSystem : f.HasSystem values system) (affine : f.factor.value.Affine)
    (single : f.noise.withoutRobustLoss.isRobust = false) (unfloored : f.Unfloored values) :
    ∃ e e', f.error values = .ok e ∧ f.error values' = .ok e' ∧
      e' + 0.5 * Vec.normSq system.1 ≤
        e + 0.5 * Vec.normSq (List.zipWith (· + ·) system.1 (system.2.apply directions.flatten)) := by
  obtain ⟨keys, factor, noise⟩ := f
  cases noise with
  | robust loss base =>
      exact HasSystem.wrapped_error_moved (f := ⟨keys, factor, base⟩) known sizes moves hasSystem affine single unfloored
  | gaussian R | diagonal sigmas | isotropic dim sigma | unit dim =>
      obtain ⟨before, after⟩ := hasSystem.error_moved known sizes moves affine rfl
      exact ⟨_, _, before, after, (add_comm _ _).le⟩

end Moved

end GraphFactor

namespace Graph

variable {graph : Graph ℝ} {values moved : Values ℝ} {layout : Layout} {h : Vec ℝ}

/-- The errors of moved slots gain no more than the half squared norms of their systems. -/
theorem errors_moved_le {fs : List (GraphFactor ℝ)} {systems : List (Vec ℝ × Mat ℝ)}
    (each : List.Forall₂ (GraphFactor.HasSystem values) fs systems) (affine : ∀ f ∈ fs, f.factor.value.Affine)
    (single : ∀ f ∈ fs, f.noise.withoutRobustLoss.isRobust = false) (unfloored : ∀ f ∈ fs, f.Unfloored values)
    (slots : ∀ f ∈ fs, ∃ params, f.params values = .ok params ∧
      (directions values layout h f.keys).map List.length = params.map List.length ∧
      f.params moved = .ok (List.zipWith (List.zipWith (· + ·)) params (directions values layout h f.keys))) :
    ∃ errors errors', fs.mapM (·.error values) = .ok errors ∧ fs.mapM (·.error moved) = .ok errors' ∧
      let moved := List.zipWith (movedSystem values layout h) fs systems
      errors'.sum + 0.5 * ((systems.map Prod.fst).map Vec.normSq).sum ≤
        errors.sum + 0.5 * ((moved.map Prod.fst).map Vec.normSq).sum := by
  induction each with
  | nil => exact ⟨[], [], rfl, rfl, le_rfl⟩
  | @cons f system fs systems first rest ih =>
      obtain ⟨errors, errors', before, after, later⟩ := ih (fun g member => affine g (.tail _ member))
        (fun g member => single g (.tail _ member)) (fun g member => unfloored g (.tail _ member))
        fun g member => slots g (.tail _ member)
      obtain ⟨params, known, sizes, moves⟩ := slots f (.head _)
      obtain ⟨e, e', here, there, own⟩ := first.error_moved_le known sizes moves (affine f (.head _))
        (single f (.head _)) (unfloored f (.head _))
      refine ⟨e :: errors, e' :: errors', ?_, ?_, ?_⟩
      · rw [List.mapM_cons, here, before]
        rfl
      · rw [List.mapM_cons, there, after]
        rfl
      · simp only [List.zipWith_cons_cons, List.map_cons, List.sum_cons, mul_add]
        change e' + errors'.sum + _ ≤ e + errors.sum +
          (0.5 * Vec.normSq (List.zipWith (· + ·) system.1 (slotImage values layout h f system)) + _)
        unfold slotImage
        linarith

/-- A step adds no more to the cost of an affine graph than to the half squared norm of its linear system. -/
theorem Columns.error_moved_le (columns : graph.Columns values layout) {pattern : Pattern} {r : Vec ℝ} {J : SparseMat ℝ}
    (found : graph.pattern values layout = .ok pattern) (linear : graph.linearize values pattern = .ok (r, J))
    (fits : r.length = J.height) (affine : ∀ f ∈ graph.factors, f.factor.value.Affine)
    (single : ∀ f ∈ graph.factors, f.noise.withoutRobustLoss.isRobust = false)
    (unfloored : ∀ f ∈ graph.factors, f.Unfloored values) (length : h.length = layout.totalDof)
    (retracted : values.retract? layout.order h = some moved) :
    ∃ e e', graph.error values = .ok e ∧ graph.error moved = .ok e' ∧
      e' + 0.5 * Vec.normSq r ≤ e + 0.5 * Vec.normSq (List.zipWith (· + ·) r (J.mulVec h)) := by
  obtain ⟨_, -, -, rfl⟩ := pattern_ok_iff.mp found
  obtain ⟨systems, -, each, -, -, rfl, rfl⟩ := linearize_entries columns found linear
  have rows : (systems.map Prod.fst).flatten.length = graph.residualDimension := fits
  obtain ⟨errors, errors', before, after, total⟩ := errors_moved_le each affine single unfloored
    fun f present => columns.params_moved length retracted present
  refine ⟨errors.sum, errors'.sum, ?_, ?_, ?_⟩
  · rw [error_sum, factorErrors, before]
    rfl
  · rw [error_sum, factorErrors, after]
    rfl
  · dsimp only
    rwa [columns.mulVec_slotImages each length rows, ← movedSystems_residual each, normSq_flatten, normSq_flatten]

end Graph

namespace LeastSquares

/-- Under concave losses an iteration that solves its normal equations makes the cost no larger. -/
theorem Step.Solves.error_le {graph : Graph ℝ} {initial before : Values ℝ} {problem : Problem ℝ} {step : Step ℝ}
    {factors r h : Vec ℝ} {added : ℝ} {J : SparseMat ℝ} (solves : step.Solves problem before factors added r J h)
    (prepared : Problem.prepare graph initial = .ok problem) (shape : initial.SameShape before) (nonneg : 0 ≤ added)
    (accepted : step.accepted = true) (affine : ∀ f ∈ graph.factors, f.factor.value.Affine)
    (single : ∀ f ∈ graph.factors, f.noise.withoutRobustLoss.isRobust = false)
    (unfloored : ∀ f ∈ graph.factors, f.Unfloored before) :
    ∃ e e', graph.error before = .ok e ∧ graph.error step.values = .ok e' ∧ e' ≤ e := by
  have width := solves.length.trans (Problem.linearize_width prepared shape solves.linear)
  have shorter : Vec.normSq (List.zipWith (· + ·) r (J.mulVec h)) ≤ Vec.normSq r :=
    SparseMat.normSq_after_le solves.formed solves.fits solves.equation fun _ _ => by positivity
  obtain ⟨tried, -, retracted, -, taken⟩ := solves.moves
  rw [accepted, if_pos rfl] at taken
  have linear := solves.linear
  obtain ⟨-, layout, laid, -, pattern, found, rfl⟩ := Problem.prepare_ok_iff.mp prepared
  obtain ⟨e, e', here, there, gain⟩ := ((Graph.layout_columns laid).of_shape shape).error_moved_le
    ((Graph.pattern_shape shape graph layout).trans found) linear solves.fits affine single unfloored width
    (Result.ofShape_ok_iff.mp retracted)
  exact ⟨e, e', here, taken ▸ there, by linarith⟩

/-- Gauss-Newton descends on affine factors without losses and under Huber, Cauchy and Geman-McClure losses: the cost
after an iteration is at most the cost before it, with or without scaling and whatever is added to the diagonal, where
the floors of the slopes take no effect. -/
theorem Solver.optimize_robust_descent {solver : Solver ℝ} {config : GaussNewton ℝ}
    (method : solver.method = .gaussNewton config) {graph : Graph ℝ}
    (affine : ∀ f ∈ graph.factors, f.factor.value.Affine)
    (single : ∀ f ∈ graph.factors, f.noise.withoutRobustLoss.isRobust = false) (clock : Clock) (initial : Values ℝ) :
    let run := (solver.optimize clock graph initial).2
    ∀ i step, run.steps[i]? = some step → (∀ f ∈ graph.factors, f.Unfloored (run.estimate initial i)) →
      run.estimate initial (i + 1) = step.values ∧
        ∃ e e', graph.error (run.estimate initial i) = .ok e ∧ graph.error step.values = .ok e' ∧ e' ≤ e := by
  intro run i step reported unfloored
  rcases solver.optimize_cases clock graph initial with ⟨failure, failed, -⟩ | ⟨problem, cost, prepared, -, loops⟩
  · rw [show run = _ from failed] at reported
    cases reported
  obtain ⟨r₀, J₀, r, J, h, -, solves, accepted⟩ := loops.solves (Problem.prepare_ok prepared).2 reported
  have nonneg : 0 ≤ solver.method.added run i := by
    rw [method]
    exact config.damping_nonneg
  exact ⟨Run.estimate_succ reported initial,
    solves.error_le prepared (loops.estimate_shape i) nonneg (accepted config method) affine single unfloored⟩

end LeastSquares

/-- The Huber loss of the scale one half. -/
noncomputable def Loss.halfHuber : Loss ℝ :=
  ⟨"Huber", "HuberLoss", [("scale", 1 / 2.0), ("scale2", 1 / 2.0 * (1 / 2.0))], huberJet (1 / 2.0) (1 / 2.0 * (1 / 2.0))⟩

theorem Loss.halfHuber_made : Kind.huber.loss (1 / 2.0) = .ok halfHuber := by
  have admitted : checkScale (1 / 2.0 : ℝ) = .ok (1 / 2.0) := Kind.checkScale_ok_iff.mpr ⟨by norm_num, rfl⟩
  rw [Kind.loss, huber, admitted]
  rfl

theorem Loss.halfHuber_unfloored : Kind.huber.Unfloored (1 / 2.0) 1 := by
  have small : (2 : ℝ) ^ (-1022 : ℤ) ≤ 2 ^ (-1 : ℤ) := zpow_le_zpow_right₀ one_le_two (by norm_num)
  right
  norm_num [Kind.slope, Scalar.tiny] at small ⊢
  exact small

theorem Loss.halfHuber_jet : halfHuber.jet 1 = ⟨3 / 4, 1 / 2, -1 / 4⟩ := by
  obtain ⟨positive, jet⟩ := Kind.loss_jet halfHuber_made
  have slope := Kind.jet_slope positive halfHuber_unfloored
  rw [jet]
  rw [Kind.jet_huber_outside (by norm_num)] at slope ⊢
  dsimp only at slope
  rw [slope]
  norm_num [Kind.slope]

/-- The prior of one under that loss. -/
noncomputable def Graph.hedged : Graph ℝ := ⟨anchored.factors.map (GraphFactor.wrapped ⟨0, .halfHuber⟩)⟩

theorem Graph.hedged_error (x : ℝ) :
    hedged.error (.single x) = .ok (0.5 * (Loss.halfHuber.jet ((x - 1) * (x - 1))).value) := by
  simp [Graph.error, Graph.factorErrors, hedged, anchored, GraphFactor.wrapped, Values.single, GraphFactor.error,
    GraphFactor.residual, GraphFactor.params, Values.find, Values.get?, Factor.prior, Factor.ofParts, Vec.sub?, Vec.zip?,
    GraphFactor.checkResidual, Noise.dim, Result.ofShape, Noise.error?, Noise.whiten?, Vec.normSq, Vec.sum, Scalar.square]

/-- At zero the whitened residual is above the scale, and the slope of the loss far above its floor. -/
theorem Graph.hedged_unfloored : ∀ f ∈ hedged.factors, f.Unfloored (.single 0) := by
  intro f present
  obtain rfl := List.mem_singleton.mp present
  rintro _ ⟨⟩
  refine ⟨.huber, 1 / 2.0, Loss.halfHuber_made, fun r w residual whitened => ?_⟩
  have evaluated : (anchored.factors[0].wrapped ⟨0, .halfHuber⟩).residual (.single 0) = .ok [-1] := by
    simp [anchored, GraphFactor.wrapped, Values.single, GraphFactor.residual, GraphFactor.params, Values.find, Values.get?,
      Factor.prior, Factor.ofParts, Vec.sub?, Vec.zip?, GraphFactor.checkResidual, Noise.dim, Result.ofShape]
  obtain rfl : [-1] = r := Except.ok.inj (evaluated.symm.trans residual)
  obtain rfl := Option.some.inj whitened
  have norm : Vec.normSq [(-1 : ℝ)] = 1 := by norm_num [Vec.normSq_real]
  rw [norm]
  exact Loss.halfHuber_unfloored

namespace LeastSquares

noncomputable def Problem.hedged : Problem ℝ := { Problem.anchored with graph := .hedged }

theorem Problem.prepare_hedged (x : ℝ) : Problem.prepare .hedged (.single x) = .ok .hedged := by
  have frame : List.Forall₂ GraphFactor.SameFrame Graph.anchored.factors Graph.hedged.factors :=
    .cons (GraphFactor.wrapped_frame _ _) .nil
  obtain ⟨-, layout, laid, filled, pattern, found, same⟩ := prepare_ok_iff.mp (prepare_anchored x)
  refine prepare_ok_iff.mpr ⟨rfl, layout, (Graph.layout_of_frame frame _).trans laid, filled, pattern,
    (Graph.pattern_of_frame frame _ _).trans found, ?_⟩
  rw [hedged, same]

theorem Problem.linearize_hedged :
    Problem.hedged.linearize (.single 0) = .ok ([√(1 / 2) * -1], .slope √(1 / 2)) := by
  have corrected : Correction.ofLoss .halfHuber (Vec.normSq [-1]) = ⟨√(1 / 2), √(1 / 2), 0⟩ := by
    have norm : Vec.normSq [(-1 : ℝ)] = 1 := by norm_num [Vec.normSq_real]
    rw [norm, Correction.ofLoss_concave (by rw [Loss.halfHuber_jet]; norm_num), Loss.halfHuber_jet]
  simp [Problem.linearize, Problem.hedged, Problem.anchored, Graph.linearize, Graph.linearizeBlock, Graph.hedged,
    Graph.anchored, GraphFactor.wrapped, Values.single, GraphFactor.linearize, GraphFactor.params, Values.find, Values.get?,
    Factor.prior, Factor.ofParts, Vec.sub?, Vec.zip?, GraphFactor.checkResidual, Noise.dim, Result.ofShape,
    GraphFactor.checkJacobian, Mat.identity, Mat.ofFn, Mat.height, Noise.whitenSystem?, Noise.whiten?,
    Noise.whitenJacobian?, corrected, Correction.residual, Vec.scale, Correction.jacobian?, Mat.scale, Mat.map,
    Graph.blockEntries, Pattern.fill?, SparseMat.ofEntries, SparseVec.accumulate, SparseMat.slope]

/-- The first iteration from zero finds a step. -/
theorem GaussNewton.hedged_first :
    let solver := (Method.gaussNewton (standard : GaussNewton ℝ)).build
    ∃ step, (solver.optimize (fun _ => 0) .hedged (.single 0)).2.steps[0]? = some step := by
  intro solver
  obtain ⟨history, loops, steps⟩ :=
    (solver.optimize_loops (fun _ => 0) (Problem.prepare_hedged 0) (Graph.hedged_error 0)).gaussNewton_history
  have formed := SparseMat.slope_formed √(1 / 2)
  have rank : (SparseMat.slope √(1 / 2)).FullRank := SparseMat.slope_fullRank (by positivity)
  let start : State ℝ := .start (.single 0) (0.5 * (Loss.halfHuber.jet ((0 - 1) * (0 - 1))).value)
  have planned : start.equations.PlannedFor (SparseMat.slope √(1 / 2)).support (standard : GaussNewton ℝ).damping.isSome :=
    NormalEquations.plannedFor_nothing _ _
  obtain ⟨d, solved⟩ :=
    unscaled_direction_exists (r := [√(1 / 2) * -1]) rfl planned rfl (rank.positiveDefinite formed (damping_nonneg _))
  obtain ⟨η, moves⟩ : ∃ η, d.step = [η] :=
    List.length_eq_one_iff.mp (unscaled_equation rfl planned formed solved).1
  -- the layout is that of the folded valley
  have moved : Problem.hedged.retract (standard.rescaled (.slope √(1 / 2)) start).values d.step = .ok (.single (0 + η)) := by
    rw [rescaled_values, moves]
    exact Problem.retract_folded 0 η
  obtain ⟨s', step, taken, -⟩ := take_exists moved (Graph.hedged_error _)
  have advanced := advance_ok_iff.mpr ⟨_, _, d, Problem.linearize_hedged, solved, taken⟩
  exact ⟨step, (congrArg (·[0]?) steps).trans (loops.reports_first advanced)⟩

theorem Solver.hedged_robust_descent :
    let solver := (Method.gaussNewton (GaussNewton.standard : GaussNewton ℝ)).build
    (∀ f ∈ Graph.hedged.factors, f.Unfloored (.single 0)) ∧
      ∃ step, (solver.optimize (fun _ => 0) .hedged (.single 0)).2.steps[0]? = some step ∧
        ∃ e', Graph.hedged.error step.values = .ok e' ∧ e' ≤ 3 / 8 := by
  intro solver
  have affine : ∀ f ∈ Graph.hedged.factors, f.factor.value.Affine := by
    intro f present
    obtain rfl := List.mem_singleton.mp present
    exact Factor.prior_affine [1]
  have single : ∀ f ∈ Graph.hedged.factors, f.noise.withoutRobustLoss.isRobust = false := by
    intro f present
    obtain rfl := List.mem_singleton.mp present
    rfl
  obtain ⟨step, reported⟩ := GaussNewton.hedged_first
  obtain ⟨-, e, e', here, there, lower⟩ :=
    Solver.optimize_robust_descent rfl affine single (fun _ => 0) (.single 0) 0 step reported Graph.hedged_unfloored
  have value : (0.5 : ℝ) * (Loss.halfHuber.jet ((0 - 1) * (0 - 1))).value = 3 / 8 := by
    norm_num [Loss.halfHuber_jet]
  have error := Graph.hedged_error 0
  rw [value] at error
  obtain rfl := Except.ok.inj (error.symm.trans here)
  exact ⟨Graph.hedged_unfloored, step, reported, e', there, lower⟩

end LeastSquares

end GraduatedFit
