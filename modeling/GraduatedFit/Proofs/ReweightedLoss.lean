import GraduatedFit.Proofs.OuterDescent
import GraduatedFit.Proofs.Reweighting
import GraduatedFit.Proofs.RobustNoise
import GraduatedFit.Proofs.SlotEvaluation

/-! A problem under Geman-McClure weights is, at the estimate that the weights come from, the problem under the
Geman-McClure loss. -/

namespace GraduatedFit

open LeastSquares

namespace Loss

theorem gemanMcClure_made {scale : ℝ} (positive : 0 < scale) :
    ∃ loss, gemanMcClure scale = .ok loss ∧ loss.jet = gemanMcClureJet (1 / (scale * scale)) := by
  have admitted : checkScale scale = .ok scale := by simp [checkScale, positive]
  refine ⟨_, by rw [gemanMcClure, admitted]; rfl, rfl⟩

/-- The loss is concave wherever a squared norm can be. -/
theorem gemanMcClure_concave {inverse s : ℝ} (nonneg : 0 ≤ inverse) (square : 0 ≤ s) :
    (gemanMcClureJet inverse s).curvature ≤ 0 := by
  have quotient : 0 ≤ 1 / (1 + s * inverse) := by positivity
  have product : 0 ≤ 2.0 * inverse * (1 / (1 + s * inverse) * (1 / (1 + s * inverse))) * (1 / (1 + s * inverse)) := by
    positivity
  simp only [gemanMcClureJet]
  linarith

/-- At the squared norm of an error the slope of the loss is the square of a fraction. -/
theorem gemanMcClure_slope {c e : ℝ} (positive : 0 < c) (nonneg : 0 ≤ e) :
    (gemanMcClureJet (1 / (2 * c)) (2 * e)).slope = (c / (e + c)) ^ 2 := by
  have denominator : 0 < e + c := by linarith
  have fraction : 1 / (1 + 2 * e * (1 / (2 * c))) = c / (e + c) := by
    field_simp
    ring
  simp only [gemanMcClureJet, fraction]
  ring

theorem gemanMcClure_value {c e : ℝ} (positive : 0 < c) (nonneg : 0 ≤ e) :
    0.5 * (gemanMcClureJet (1 / (2 * c)) (2 * e)).value = c * e / (c + e) := by
  have denominator : 0 < c + e := by linarith
  have fraction : 1 / (1 + 2 * e * (1 / (2 * c))) = c / (c + e) := by
    field_simp
  simp only [gemanMcClureJet, fraction]
  norm_num
  ring

/-- A loss whose slope at an error is the Geman-McClure weight for a scaled threshold. -/
structure StandsFor (loss : Loss ℝ) (c : ℝ) : Prop where
  concave : ∀ s, 0 ≤ s → (loss.jet s).curvature ≤ 0
  slope : ∀ e, 0 ≤ e → (loss.jet (2 * e)).slope = (c / (e + c)) ^ 2
  value : ∀ e, 0 ≤ e → 0.5 * (loss.jet (2 * e)).value = c * e / (c + e)

/-- The squared scale of the loss is twice the scaled threshold. -/
theorem gemanMcClure_standsFor {c : ℝ} (positive : 0 < c) :
    ∃ loss, gemanMcClure √(2 * c) = .ok loss ∧ loss.StandsFor c := by
  obtain ⟨loss, made, jet⟩ := gemanMcClure_made (Real.sqrt_pos.mpr (show 0 < 2 * c by linarith))
  rw [Real.mul_self_sqrt (by linarith)] at jet
  refine ⟨loss, made, ?_, ?_, ?_⟩
  · intro s nonneg
    rw [jet]
    exact gemanMcClure_concave (by positivity) nonneg
  · intro e nonneg
    rw [jet]
    exact gemanMcClure_slope positive nonneg
  · intro e nonneg
    rw [jet]
    exact gemanMcClure_value positive nonneg

end Loss

namespace GraphFactor

variable {f : GraphFactor ℝ} {values : Values ℝ}

/-- The factor under a loss. -/
def wrapped (loss : Shared (Loss ℝ)) (f : GraphFactor ℝ) : GraphFactor ℝ := { f with noise := .robust loss f.noise }

theorem wrapped_frame (loss : Shared (Loss ℝ)) (f : GraphFactor ℝ) : SameFrame f (f.wrapped loss) := ⟨rfl, rfl, rfl⟩

theorem linearize_wrapped (plain : f.noise.isRobust = false) {loss : Shared (Loss ℝ)}
    (concave : ∀ s, 0 ≤ s → (loss.value.jet s).curvature ≤ 0) (wanted : Bool) :
    (f.wrapped loss).linearize values wanted = (fun system =>
      Weighted.scaleSystem (loss.value.jet (Vec.normSq system.1)).slope system) <$> f.linearize values wanted := by
  have params : (f.wrapped loss).params values = f.params values := rfl
  have residuals : (f.wrapped loss).checkResidual = f.checkResidual := rfl
  have jacobians : (f.wrapped loss).checkJacobian = f.checkJacobian := by
    funext _ _ jacobian
    cases jacobian <;> rfl
  have system : (f.wrapped loss).noise.whitenSystem? = fun r J => (f.noise.whitenSystem? r J).map fun system =>
      Weighted.scaleSystem (loss.value.jet (Vec.normSq system.1)).slope system := by
    funext r J
    exact Noise.whitenSystem_concave plain concave r J
  rw [linearize, linearize, params, residuals, jacobians, system, wrapped]
  cases wanted <;> simp [map_bind, Result.ofShape_map]

theorem error_wrapped (plain : f.noise.isRobust = false) (loss : Shared (Loss ℝ)) :
    (f.wrapped loss).error values = (fun e => 0.5 * (loss.value.jet (2 * e)).value) <$> f.error values := by
  have residuals : (f.wrapped loss).residual values = f.residual values := rfl
  rw [error, error, residuals, wrapped]
  cases f.residual values with
  | error failure => rfl
  | ok residual =>
      simp only [Result.ok_bind, Noise.error_robust, Noise.error_plain plain, ← Result.ofShape_map, Option.map_map]
      congr 2
      funext whitened
      have twice : 2 * (0.5 * Vec.normSq whitened) = Vec.normSq whitened := by ring
      simp only [Function.comp_apply, twice]

/-- The same variables, and at an estimate the same whitened residual and Jacobian. -/
structure SameAt (values : Values ℝ) (f f' : GraphFactor ℝ) : Prop where
  frame : SameFrame f f'
  linearize_eq : ∀ wanted, f'.linearize values wanted = f.linearize values wanted

theorem SameAt.linearizeBlock_eq {f f' : GraphFactor ℝ} (same : SameAt values f f') :
    Graph.linearizeBlock values f' = Graph.linearizeBlock values f := by
  rw [Graph.linearizeBlock, Graph.linearizeBlock, same.linearize_eq, same.frame.keys_eq]

/-- At the estimate where a weight is the slope of the loss, the factor under the weight is the factor under the
loss. -/
theorem Weighted.sameAt_wrapped {f' : GraphFactor ℝ} {weight e : ℝ} {loss : Shared (Loss ℝ)}
    (weighted : Weighted weight f f') (coherent : f.factor.value.Coherent)
    (concave : ∀ s, 0 ≤ s → (loss.value.jet s).curvature ≤ 0) (known : f.error values = .ok e)
    (slope : (loss.value.jet (2 * e)).slope = weight) : SameAt values f' (f.wrapped loss) := by
  have plain := (Noise.scaledByWeight_plain weighted.scaled).1
  refine ⟨weighted.frame.symm.trans (f.wrapped_frame loss), ?_⟩
  intro wanted
  rw [linearize_wrapped plain concave, weighted.linearize_eq]
  cases linear : f.linearize values wanted with
  | error failure => rfl
  | ok system =>
      have error : e = 0.5 * Vec.normSq system.1 :=
        Except.ok.inj (known.symm.trans (error_of_linearize plain coherent linear))
      have norm : Vec.normSq system.1 = 2 * e := by
        rw [error]
        ring
      have same : (loss.value.jet (Vec.normSq system.1)).slope = weight := by rw [norm, slope]
      exact congrArg (fun w => Except.ok (scaleSystem w system)) same

end GraphFactor

namespace LeastSquares.GaussNewton

variable {K : Type} [Scalar K]

/-- Problems with the same system at an estimate and errors at the same places take the same Gauss-Newton step. -/
theorem advance_agrees (config : GaussNewton K) {a b : Problem K} {s : State K} (layout : b.layout = a.layout)
    (system : b.linearize s.values = a.linearize s.values)
    (costs : ∀ x, (fun _ => ()) <$> b.cost x = (fun _ => ()) <$> a.cost x) :
    (fun step => (step.values, step.stepNorm, step.gradientNorm)) <$> (config.advance b s).2 =
      (fun step => (step.values, step.stepNorm, step.gradientNorm)) <$> (config.advance a s).2 := by
  have moves (x : Values K) (step : Vec K) : b.retract x step = a.retract x step := by
    rw [Problem.retract, Problem.retract, layout]
  have norms (x : Values K) : b.parameterNorm x = a.parameterNorm x := by
    rw [Problem.parameterNorm, Problem.parameterNorm, layout]
  unfold advance
  rw [system]
  cases a.linearize s.values with
  | error failure => rfl
  | ok linear =>
      obtain ⟨r, J⟩ := linear
      dsimp only
      generalize ({ s.updateScaling config.useScaling J with
        jacobianEvaluations := s.jacobianEvaluations + 1 } : State K) = s'
      cases config.direction r J s' with
      | error failure => rfl
      | ok d =>
          simp only [Result.ok_bind, take, moves, norms]
          cases a.retract s'.values d.step with
          | error failure => rfl
          | ok moved =>
              have cost := costs moved
              simp only [Result.ok_bind]
              cases left : b.cost moved <;> cases right : a.cost moved <;> rw [left, right] at cost
              · obtain rfl := Except.error.inj cost
                rfl
              · cases cost
              · cases cost
              · rfl

end LeastSquares.GaussNewton

namespace Graph

/-- Two graphs that nothing tells apart at an estimate but their costs: the whitened residuals and Jacobians of the
slots, the linear system and the Gauss-Newton step are the same. -/
structure SameSystemAt (values : Values ℝ) (a b : Graph ℝ) : Prop where
  slots : List.Forall₂ (GraphFactor.SameAt values) a.factors b.factors
  layout_eq : b.layout values = a.layout values
  pattern_eq : ∀ layout, b.pattern values layout = a.pattern values layout
  stackedResidual_eq : b.stackedResidual values = a.stackedResidual values
  linearize_eq : ∀ pattern, b.linearize values pattern = a.linearize values pattern
  step_eq : ∀ (config : GaussNewton ℝ) (layout : Layout) (pattern : Pattern) (s : State ℝ), s.values = values →
    (fun step => (step.values, step.stepNorm, step.gradientNorm)) <$> (config.advance ⟨b, layout, pattern⟩ s).2 =
      (fun step => (step.values, step.stepNorm, step.gradientNorm)) <$> (config.advance ⟨a, layout, pattern⟩ s).2

theorem sameSystemAt_of_slots {values : Values ℝ} {a b : Graph ℝ}
    (slots : List.Forall₂ (GraphFactor.SameAt values) a.factors b.factors)
    (costs : ∀ x, (fun _ => ()) <$> b.error x = (fun _ => ()) <$> a.error x) : SameSystemAt values a b := by
  have frame := slots.imp fun _ _ same => same.frame
  have linear : ∀ pattern, b.linearize values pattern = a.linearize values pattern := by
    intro pattern
    rw [linearize, linearize, Result.mapM_congr slots fun _ _ same => same.linearizeBlock_eq]
  refine ⟨slots, layout_of_frame frame values, pattern_of_frame frame values, ?_, linear, ?_⟩
  · rw [stackedResidual, stackedResidual, Result.mapM_congr slots fun _ _ same => same.linearize_eq false]
  · intro config layout pattern s here
    have system : b.linearize s.values pattern = a.linearize s.values pattern := by
      rw [here]
      exact linear pattern
    exact config.advance_agrees (a := ⟨a, layout, pattern⟩) (b := ⟨b, layout, pattern⟩) rfl system costs

/-- A graph without robust models can be put under a loss. -/
theorem wrapLosses_plain {graph : Graph ℝ} (plain : graph.hasRobustFactors = false) (loss : Shared (Loss ℝ)) :
    graph.wrapLosses loss = .ok ⟨graph.factors.map (GraphFactor.wrapped loss)⟩ := by
  obtain ⟨fs⟩ := graph
  have slots (start : Nat) : ((fs.zipIdx start).mapM fun p => do
      let noise ← Noise.ofLoss loss p.1.noise
      return ({ p.1 with noise } : GraphFactor ℝ)) = .ok (fs.map (GraphFactor.wrapped loss)) := by
    induction fs generalizing start with
    | nil => rfl
    | cons f fs ih =>
        simp only [hasRobustFactors, List.any_cons, Bool.or_eq_false_iff] at plain
        have rest := ih plain.2 (start + 1)
        have first : Noise.ofLoss loss f.noise = .ok (.robust loss f.noise) := by simp [Noise.ofLoss, plain.1]
        rw [List.zipIdx_cons, List.mapM_cons, first, rest]
        rfl
  rw [wrapLosses, withNoise]
  exact congrArg (· >>= fun factors => (.ok ⟨factors⟩ : Result ℝ (Graph ℝ))) (slots 0)

theorem stripRobustLosses_plain {K : Type} {graph : Graph K} (plain : graph.hasRobustFactors = false) :
    graph.stripRobustLosses = graph := by
  obtain ⟨fs⟩ := graph
  have kept : ∀ f ∈ fs, ({ f with noise := f.noise.withoutRobustLoss } : GraphFactor K) = id f := by
    intro f member
    have base := hasRobustFactors_false_iff.mp plain f member
    obtain ⟨keys, factor, noise⟩ := f
    cases noise with
    | robust loss base => cases base
    | gaussian R | diagonal sigmas | isotropic n sigma | unit n => rfl
  rw [stripRobustLosses, List.map_congr_left kept, List.map_id]

variable {values : Values ℝ} {weights : Vec ℝ} {fs fs' : List (GraphFactor ℝ)} {loss : Shared (Loss ℝ)}

/-- Weights that are the slopes of a loss at the errors stand for the loss. -/
theorem Reweights.sameAt_wrapped {errors : List ℝ} (reweights : Reweights weights fs fs')
    (coherent : ∀ f ∈ fs, f.factor.value.Coherent) (concave : ∀ s, 0 ≤ s → (loss.value.jet s).curvature ≤ 0)
    (known : fs.mapM (·.error values) = .ok errors)
    (slopes : weights = errors.map fun e => (loss.value.jet (2 * e)).slope) :
    List.Forall₂ (GraphFactor.SameAt values) fs' (fs.map (GraphFactor.wrapped loss)) := by
  induction reweights generalizing errors with
  | nil => exact .nil
  | cons admitted first rest ih =>
      rw [Result.mapM_ok_iff] at known
      cases known with
      | cons here later =>
          simp only [List.map_cons, List.cons.injEq] at slopes
          refine .cons ?_ ?_
          · exact first.sameAt_wrapped (coherent _ (.head _)) concave here slopes.1.symm
          · exact ih (fun f member => coherent f (.tail _ member)) (Result.mapM_ok_iff.mpr later) slopes.2

/-- Under a loss the error of a graph is the sum of half the losses. -/
theorem error_wrapped {graph : Graph ℝ} (plain : graph.hasRobustFactors = false) (loss : Shared (Loss ℝ))
    (values : Values ℝ) : error ⟨graph.factors.map (GraphFactor.wrapped loss)⟩ values =
      (fun errors => (errors.map fun e => 0.5 * (loss.value.jet (2 * e)).value).sum) <$>
        graph.factorErrors values := by
  have slots : ∀ f ∈ graph.factors, (f.wrapped loss).error values =
      (fun e => 0.5 * (loss.value.jet (2 * e)).value) <$> f.error values := by
    intro f member
    exact f.error_wrapped (hasRobustFactors_false_iff.mp plain f member) loss
  rw [error_sum, factorErrors, Result.mapM_map slots, factorErrors]
  cases graph.factors.mapM (·.error values) <;> rfl

theorem error_standsFor {graph : Graph ℝ} (plain : graph.hasRobustFactors = false) {loss : Loss ℝ} {c : ℝ}
    (standsFor : loss.StandsFor c) (tag : Nat) (values : Values ℝ) :
    error ⟨graph.factors.map (GraphFactor.wrapped ⟨tag, loss⟩)⟩ values =
      (fun errors => (errors.map fun e => c * e / (c + e)).sum) <$> graph.factorErrors values := by
  rw [error_wrapped plain]
  cases known : graph.factorErrors values with
  | error failure => rfl
  | ok errors =>
      have terms : ∀ e ∈ errors, 0.5 * (loss.jet (2 * e)).value = c * e / (c + e) := by
        intro e member
        exact standsFor.value e (errors_nonneg plain known e member)
      exact congrArg (fun terms => Except.ok (List.sum terms)) (List.map_congr_left terms)

/-- Geman-McClure weights at the errors of an estimate can be given to a graph, and there they stand for the loss. -/
theorem reweight_standsFor {graph : Graph ℝ} (plain : graph.hasRobustFactors = false)
    (coherent : ∀ f ∈ graph.factors, f.factor.value.Coherent) {loss : Loss ℝ} {c : ℝ} (standsFor : loss.StandsFor c)
    (tag : Nat) {errors : List ℝ} (known : graph.factorErrors values = .ok errors) :
    ∃ weighted, graph.reweight (errors.map fun e => (c / (e + c)) ^ 2) = .ok weighted ∧
      SameSystemAt values weighted ⟨graph.factors.map (GraphFactor.wrapped ⟨tag, loss⟩)⟩ := by
  have count : (errors.map fun e => (c / (e + c)) ^ 2).length = graph.size := by
    rw [List.length_map]
    exact (Result.mapM_ok_iff.mp known).length_eq.symm
  have admissible : ∀ weight ∈ errors.map fun e => (c / (e + c)) ^ 2, 0 ≤ weight := by
    intro weight member
    obtain ⟨e, -, rfl⟩ := List.mem_map.mp member
    exact sq_nonneg _
  have slopes : (errors.map fun e => (c / (e + c)) ^ 2) = errors.map fun e => (loss.jet (2 * e)).slope := by
    apply List.map_congr_left
    intro e member
    exact (standsFor.slope e (errors_nonneg plain known e member)).symm
  obtain ⟨weighted, done, reweights⟩ := reweight_exists plain count admissible
  refine ⟨weighted, done, sameSystemAt_of_slots ?_ ?_⟩
  · exact reweights.sameAt_wrapped coherent standsFor.concave known slopes
  · intro x
    rw [error_wrapped plain, reweights.error_eq x]
    cases graph.factorErrors x <;> rfl

end Graph

namespace Continuation.Optimizer

/-- Without trusted slots every weight comes from its error. -/
theorem weights_free (family : Family) (errors : List ℝ) (mu threshold : ℝ) {pinned : Nat → Bool}
    (free : ∀ slot, pinned slot = false) :
    Continuation.weights family errors mu threshold pinned = errors.map fun e => family.weight e mu threshold := by
  apply List.ext_getElem
  · simp [Continuation.weights]
  · intro slot _ _
    simp [Continuation.weights, free]

theorem checkErrors_real (errors : List ℝ) : checkErrors errors = .ok () := by
  have finite : errors.zipIdx.find? (fun p => !Scalar.finite p.1) = none := by simp
  rw [checkErrors, finite]

/-- Nothing is known of any slot when the configuration trusts none. -/
theorem BuiltFrom.isKnown_free {graph : Graph ℝ} {config : Config ℝ} {o : Optimizer ℝ}
    (built : BuiltFrom graph config o) (free : config.knownInliers = []) (slot : Nat) : o.isKnown slot = false := by
  by_cases inside : slot < graph.size
  · rw [built.isKnown_eq inside, free]
    rfl
  · rw [isKnown, built.known_eq, List.getD_eq_default _ _ (by simpa using inside)]

/-- The weights of a graph without robust models when no slot is trusted. -/
theorem BuiltFrom.weightsAt_free {graph : Graph ℝ} {config : Config ℝ} {o : Optimizer ℝ}
    (built : BuiltFrom graph config o) (plain : graph.hasRobustFactors = false) (free : config.knownInliers = [])
    {values : Values ℝ} {errors : List ℝ} (known : graph.factorErrors values = .ok errors) (mu : ℝ) :
    o.weightsAt values mu = .ok (errors.map fun e => config.family.weight e mu config.threshold) := by
  have same : o.graph = graph := built.graph_eq.trans (Graph.stripRobustLosses_plain plain)
  rw [weightsAt, same, known, Result.ok_bind, checkErrors_real, Result.ok_bind, built.config_eq,
    weights_free _ _ _ _ (built.isKnown_free free)]
  rfl

/-- At the estimate that the Geman-McClure weights are computed at, the weighted graph has the residuals, the Jacobians
and the Gauss-Newton step of the graph under the Geman-McClure loss whose squared scale is twice the scaled threshold.
The cost under the loss is the sum of the surrogates of the errors. -/
theorem gemanMcClure_weights_are_loss {graph : Graph ℝ} {initial values : Values ℝ} {config : Config ℝ}
    {o : Optimizer ℝ} {mu : ℝ} {errors : List ℝ} (reachable : Reachable graph initial config o)
    (plain : graph.hasRobustFactors = false) (coherent : ∀ f ∈ graph.factors, f.factor.value.Coherent)
    (family : config.family = .gemanMcClure) (free : config.knownInliers = []) (positive : 0 < mu)
    (known : graph.factorErrors values = .ok errors) (tag : Nat) :
    let c := mu * config.threshold
    ∃ weights weighted loss wrapped,
      o.weightsAt values mu = .ok weights ∧ o.reweighted weights = .ok weighted ∧
      Loss.gemanMcClure √(2 * mu * config.threshold) = .ok loss ∧ graph.wrapLosses ⟨tag, loss⟩ = .ok wrapped ∧
      Graph.SameSystemAt values weighted wrapped ∧
      ∀ x, wrapped.error x = (fun errors => (errors.map fun e => c * e / (c + e)).sum) <$> graph.factorErrors x := by
  intro c
  have built := reachable.builtFrom
  have low : 0 < c := mul_pos positive (Config.validate_real built.valid).1
  obtain ⟨loss, made, standsFor⟩ := Loss.gemanMcClure_standsFor low
  have scale : 2 * mu * config.threshold = 2 * c := mul_assoc _ _ _
  have weight : ∀ e ∈ errors, config.family.weight e mu config.threshold = (c / (e + c)) ^ 2 := by
    intro e member
    rw [family]
    exact gemanMcClureWeight_real low
  have weighed := built.weightsAt_free plain free known mu
  rw [List.map_congr_left weight] at weighed
  obtain ⟨weighted, done, same⟩ := Graph.reweight_standsFor plain coherent standsFor tag known
  refine ⟨_, weighted, loss, _, weighed, ?_, scale ▸ made, Graph.wrapLosses_plain plain ⟨tag, loss⟩, same, ?_⟩
  · rw [reweighted, built.graph_eq, Graph.stripRobustLosses_plain plain]
    exact done
  · intro x
    exact Graph.error_standsFor plain standsFor tag x

/-- Two priors, of errors eight and four and a half. -/
theorem pulled_weights_are_loss : ∃ weights weighted loss wrapped,
    (Graph.pulled 1 1).factorErrors (.beside 4) = .ok [8, 9 / 2] ∧
      (halving 4 1 1).weightsAt (.beside 4) 16 = .ok weights ∧ (halving 4 1 1).reweighted weights = .ok weighted ∧
      Loss.gemanMcClure √(2 * 16 * (halving 4 1 1).config.threshold) = .ok loss ∧
      (Graph.pulled 1 1).wrapLosses ⟨0, loss⟩ = .ok wrapped ∧ Graph.SameSystemAt (.beside 4) weighted wrapped ∧
      wrapped.error (.beside 4) = .ok (16 * 8 / (16 + 8) + 16 * (9 / 2) / (16 + 9 / 2)) := by
  have plain : (Graph.pulled 1 1).hasRobustFactors = false := rfl
  have coherent : ∀ f ∈ (Graph.pulled 1 1).factors, f.factor.value.Coherent := by
    intro f member
    rcases List.mem_pair.mp member with rfl | rfl
    · exact Factor.ofParts_coherent _ _ _ _
    · exact Factor.ofParts_coherent _ _ _ _
  have known : (Graph.pulled 1 1).factorErrors (.beside 4) = .ok [8, 9 / 2] := by
    rw [Graph.pulled_factorErrors]
    norm_num
  obtain ⟨weights, weighted, loss, wrapped, weighed, done, made, under, same, cost⟩ :=
    gemanMcClure_weights_are_loss (.created halving_created) plain coherent rfl rfl
      (show (0 : ℝ) < 16 by norm_num) known 0
  refine ⟨weights, weighted, loss, wrapped, known, weighed, done, made, under, same, ?_⟩
  rw [cost, known]
  norm_num [halving, Config.ofBase]

end Continuation.Optimizer

end GraduatedFit
