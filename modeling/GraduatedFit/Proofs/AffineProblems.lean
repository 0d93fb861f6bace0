import GraduatedFit.Proofs.AffineGraphs
import GraduatedFit.Proofs.FoldedValley
import GraduatedFit.Proofs.LinearModel

/-! Problems of affine factors without robust models: one linear least-squares problem, on which the systems of all
estimates have the same Jacobian, and whose least cost is where the gradient is zero. -/

namespace GraduatedFit

namespace SparseMat

variable {J : SparseMat ℝ} {r h : Vec ℝ}

/-- The gradient after a step is the gradient before it and the image of the step under the Gram matrix. -/
theorem transposeMul_moved (formed : J.WellFormed) (fits : r.length = J.height) (h : Vec ℝ) {a : Nat}
    (inside : a < J.width) : (J.transposeMul (List.zipWith (· + ·) r (J.mulVec h))).getD a 0 =
      (J.transposeMul r).getD a 0 + (J.transposeMul (J.mulVec h)).getD a 0 := by
  have same : r.length = (J.mulVec h).length := fits.trans (length_mulVec J h).symm
  have length : (List.zipWith (· + ·) r (J.mulVec h)).length = r.length := by
    rw [List.length_zipWith, ← same, min_self]
  rw [transposeMul_getD formed _ inside, transposeMul_getD formed _ inside, transposeMul_getD formed _ inside, length,
    ← same, ← Finset.sum_add_distrib]
  exact Finset.sum_congr rfl fun p _ => by rw [Vec.getD_zipWith_add same, mul_add]

/-- Where the gradient is zero no step makes the residual smaller. -/
theorem normSq_le_moved (formed : J.WellFormed) (fits : r.length = J.height)
    (flat : ∀ a < J.width, (J.transposeMul r).getD a 0 = 0) (h : Vec ℝ) :
    Vec.normSq r ≤ Vec.normSq (List.zipWith (· + ·) r (J.mulVec h)) := by
  have along : ∑ p ∈ Finset.range J.height, r.getD p 0 * (J.mulVec h).getD p 0 = 0 := by
    rw [← transposeMul_adjoint formed fits]
    exact Finset.sum_eq_zero fun a member => by rw [flat a (Finset.mem_range.mp member), mul_zero]
  rw [normSq_moved fits, along, mul_zero, add_zero]
  exact le_add_of_nonneg_right (Vec.normSq_nonneg _)

end SparseMat

theorem Result.mapM_ext {K α β : Type} {f f' : α → Result K β} {xs : List α} (same : ∀ x ∈ xs, f' x = f x) :
    xs.mapM f' = xs.mapM f := by
  induction xs with
  | nil => rfl
  | cons x xs ih =>
      rw [List.mapM_cons, List.mapM_cons, same x (.head _), ih fun y member => same y (.tail _ member)]

/-- A graph does not see the variables that it does not refer to. -/
theorem Graph.error_congr {K : Type} [Scalar K] {graph : Graph K} {values values' : Values K}
    (same : ∀ f ∈ graph.factors, ∀ key ∈ f.keys, values'.get? key = values.get? key) :
    graph.error values' = graph.error values := by
  have params (f : GraphFactor K) (present : f ∈ graph.factors) : f.params values' = f.params values :=
    Result.mapM_ext fun key member => by rw [Values.find, Values.find, same f present key member]
  have errors : graph.factorErrors values' = graph.factorErrors values :=
    Result.mapM_ext fun f present => by
      rw [GraphFactor.error, GraphFactor.error, GraphFactor.residual, GraphFactor.residual, params f present]
  rw [error, error, errors]

theorem Values.SameShape.trans {K : Type} {values values' values'' : Values K} (first : values.SameShape values')
    (second : values'.SameShape values'') : values.SameShape values'' := fun key => (second key).trans (first key)

namespace LeastSquares

variable {graph : Graph ℝ} {initial values other : Values ℝ} {problem : Problem ℝ} {r : Vec ℝ} {J : SparseMat ℝ}

/-- The systems of a problem have as many rows as there are residuals, where a machine word can count them. -/
theorem Problem.linearize_fits (prepared : Problem.prepare graph initial = .ok problem)
    (addressable : (graph.factors.map (·.noise.dim)).sum < 2 ^ 64) (shape : initial.SameShape values)
    (linear : problem.linearize values = .ok (r, J)) : r.length = J.height := by
  obtain ⟨-, layout, laid, -, pattern, found, rfl⟩ := prepare_ok_iff.mp prepared
  exact (((Graph.layout_columns laid).of_shape shape).linearize_dims addressable
    ((Graph.pattern_shape shape graph layout).trans found) linear).1

/-- A problem with a column for each component of its variables. -/
theorem Problem.linearize_width (prepared : Problem.prepare graph initial = .ok problem)
    (shape : initial.SameShape values) (linear : problem.linearize values = .ok (r, J)) :
    J.width = problem.layout.totalDof := by
  obtain ⟨-, layout, laid, -, pattern, found, rfl⟩ := prepare_ok_iff.mp prepared
  obtain ⟨_, -, -, rfl⟩ := Graph.pattern_ok_iff.mp found
  obtain ⟨systems, -, -, -, -, -, rfl⟩ := Graph.linearize_entries ((Graph.layout_columns laid).of_shape shape)
    ((Graph.pattern_shape shape graph layout).trans found) linear
  simp [SparseMat.width, SparseMat.ofEntries]

section Affine

variable (prepared : Problem.prepare graph initial = .ok problem)
  (affine : ∀ f ∈ graph.factors, f.factor.value.Affine) (plain : graph.hasRobustFactors = false)
  (shape : initial.SameShape values) (linear : problem.linearize values = .ok (r, J))
include prepared affine plain shape linear

theorem Problem.cost_of_linearize : problem.cost values = .ok (0.5 * Vec.normSq r) := by
  obtain ⟨-, layout, laid, -, pattern, found, rfl⟩ := prepare_ok_iff.mp prepared
  exact Graph.error_of_linearize ((Graph.layout_columns laid).of_shape shape)
    ((Graph.pattern_shape shape graph layout).trans found) linear (fun f present => (affine f present).coherent) plain

/-- A step can be taken, and it moves the residual by the product of the Jacobian with it. -/
theorem Problem.linearize_moved (fits : r.length = J.height) {h : Vec ℝ} (length : h.length = J.width) :
    ∃ moved, problem.retract values h = .ok moved ∧ Values.Stepped problem.layout h values moved ∧
      problem.linearize moved = .ok (List.zipWith (· + ·) r (J.mulVec h), J) := by
  have width := length.trans (linearize_width prepared shape linear)
  obtain ⟨-, layout, laid, -, pattern, found, rfl⟩ := prepare_ok_iff.mp prepared
  have columns := (Graph.layout_columns laid).of_shape shape
  obtain ⟨moved, retracted, stepped⟩ := columns.retract_stepped width
  refine ⟨moved, Result.ofShape_ok_iff.mpr retracted, stepped, ?_⟩
  exact (columns.linearize_moved ((Graph.pattern_shape shape graph layout).trans found) linear fits affine plain width
    retracted).2

/-- Every estimate of the same variables costs what some step leads to. -/
theorem Problem.cost_between (fits : r.length = J.height) (same : initial.SameShape other) :
    ∃ h : Vec ℝ, h.length = J.width ∧
      graph.error other = .ok (0.5 * Vec.normSq (List.zipWith (· + ·) r (J.mulVec h))) := by
  have width := linearize_width prepared shape linear
  have columns : graph.Columns values problem.layout := by
    obtain ⟨-, layout, laid, -, pattern, found, rfl⟩ := prepare_ok_iff.mp prepared
    exact (Graph.layout_columns laid).of_shape shape
  obtain ⟨h, length, reaches⟩ := columns.step_between fun key => (same key).trans (shape key).symm
  obtain ⟨moved, -, stepped, linear'⟩ :=
    linearize_moved prepared affine plain shape linear fits (length.trans width.symm)
  have cost := cost_of_linearize prepared affine plain (shape.trans stepped.shape) linear'
  rw [Problem.cost, (prepare_ok prepared).1] at cost
  refine ⟨h, length.trans width.symm, cost ▸ Graph.error_congr fun f present key member => ?_⟩
  exact (reaches moved stepped key (columns.listed present member)).symm

/-- Where the gradient is zero the cost is least. -/
theorem Problem.cost_least (formed : J.WellFormed) (fits : r.length = J.height)
    (flat : ∀ a < J.width, (J.transposeMul r).getD a 0 = 0) (same : initial.SameShape other) :
    ∃ e, graph.error other = .ok e ∧ 0.5 * Vec.normSq r ≤ e := by
  obtain ⟨h, -, cost⟩ := cost_between prepared affine plain shape linear fits same
  exact ⟨_, cost, mul_le_mul_of_nonneg_left (SparseMat.normSq_le_moved formed fits flat h) (by norm_num)⟩

end Affine

end LeastSquares

theorem Values.single_shape (x y : ℝ) : (single x).SameShape (single y) := by
  intro key
  rw [dim?, dim?, get?, get?, single, single, List.lookup_cons, List.lookup_cons]
  cases key == "x" <;> rfl

/-- One variable with a prior of one. -/
noncomputable def Graph.anchored : Graph ℝ := ⟨[⟨["x"], ⟨0, .prior [1]⟩, .unit 1⟩]⟩

theorem Graph.anchored_affine : ∀ f ∈ anchored.factors, f.factor.value.Affine := by
  intro f present
  obtain rfl := List.mem_singleton.mp present
  exact Factor.prior_affine [1]

theorem Graph.anchored_error (x : ℝ) : anchored.error (.single x) = .ok (0.5 * ((x - 1) * (x - 1))) := by
  simp [Graph.error, Graph.factorErrors, anchored, Values.single, GraphFactor.error, GraphFactor.residual,
    GraphFactor.params, Values.find, Values.get?, Factor.prior, Factor.ofParts, Vec.sub?, Vec.zip?,
    GraphFactor.checkResidual, Noise.dim, Result.ofShape, Noise.error?, Noise.whiten?, Vec.normSq, Vec.sum, Scalar.square]

namespace LeastSquares

noncomputable def Problem.anchored : Problem ℝ := ⟨.anchored, ⟨[("x", 1)]⟩, ⟨1, 1, [(0, 0)]⟩⟩

theorem Problem.prepare_anchored (x : ℝ) : Problem.prepare .anchored (.single x) = .ok .anchored := by
  simp [Problem.prepare, Problem.anchored, Graph.anchored, Values.single, Graph.isEmpty, Graph.layout,
    Graph.variableNames, sortedNames, insertName, Values.find, Values.get?, Layout.totalDof, Graph.pattern,
    Graph.positionsFrom, Layout.start?, Layout.startIn, Graph.blockPositions, Noise.dim, Graph.residualDimension]

theorem Problem.linearize_anchored (x : ℝ) : Problem.anchored.linearize (.single x) = .ok ([x - 1], .slope 1) := by
  simp [Problem.linearize, Problem.anchored, Graph.linearize, Graph.linearizeBlock, Graph.anchored, Values.single,
    GraphFactor.linearize, GraphFactor.params, Values.find, Values.get?, Factor.prior, Factor.ofParts, Vec.sub?, Vec.zip?,
    GraphFactor.checkResidual, Noise.dim, Result.ofShape, GraphFactor.checkJacobian, Mat.identity, Mat.ofFn, Mat.height,
    Noise.whitenSystem?, Noise.whiten?, Noise.whitenJacobian?, Graph.blockEntries, Pattern.fill?, SparseMat.ofEntries,
    SparseVec.accumulate, SparseMat.slope]

end LeastSquares

end GraduatedFit
