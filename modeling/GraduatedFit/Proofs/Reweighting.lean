import GraduatedFit.Proofs.PulledVariable
import GraduatedFit.Proofs.WeightedSystem

/-! What reweighting does to a graph, and what it leaves alone. -/

namespace GraduatedFit

namespace GraphFactor

/-- Two factors with the same results at every estimate. -/
structure Alike (f f' : GraphFactor ℝ) : Prop where
  frame : SameFrame f f'
  error_eq : f'.error = f.error
  linearize_eq : f'.linearize = f.linearize

/-- A weight of one changes nothing. -/
theorem Weighted.alike_one {f f' : GraphFactor ℝ} (weighted : Weighted 1 f f') : Alike f f' where
  frame := weighted.frame
  error_eq := by
    funext values
    rw [weighted.error_eq zero_le_one]
    simp only [one_mul]
    exact id_map _
  linearize_eq := by
    funext values wanted
    have same : Weighted.scaleSystem 1 = id := funext Weighted.scaleSystem_one
    rw [weighted.linearize_eq, same]
    exact id_map _

/-- One weight after another has the effect of their product. -/
theorem Weighted.alike_mul {v w : ℝ} {f f₁ f₂ f' : GraphFactor ℝ} (first : Weighted v f f₁)
    (second : Weighted w f₁ f₂) (both : Weighted (v * w) f f') (left : 0 ≤ v) (right : 0 ≤ w) : Alike f' f₂ where
  frame := both.frame.symm.trans (first.frame.trans second.frame)
  error_eq := by
    funext values
    rw [second.error_eq right, first.error_eq left, both.error_eq (mul_nonneg left right), ← comp_map]
    congr 1
    funext error
    simp only [Function.comp_apply]
    ring
  linearize_eq := by
    funext values wanted
    rw [second.linearize_eq, first.linearize_eq, both.linearize_eq, ← comp_map]
    congr 1
    funext system
    exact Weighted.scaleSystem_mul left w system

end GraphFactor

namespace Graph

section Frame

variable {K : Type} {fs fs' : List (GraphFactor K)}

theorem variableNames_of_frame (frame : List.Forall₂ GraphFactor.SameFrame fs fs') :
    variableNames ⟨fs'⟩ = variableNames ⟨fs⟩ := by
  have keys : fs'.flatMap (·.keys) = fs.flatMap (·.keys) := by
    induction frame with
    | nil => rfl
    | cons first rest ih => rw [List.flatMap_cons, List.flatMap_cons, ih, first.keys_eq]
  rw [variableNames, variableNames, keys]

theorem layout_of_frame (frame : List.Forall₂ GraphFactor.SameFrame fs fs') (values : Values K) :
    layout ⟨fs'⟩ values = layout ⟨fs⟩ values := by
  rw [layout, layout, variableNames_of_frame frame]

theorem residualDimension_of_frame (frame : List.Forall₂ GraphFactor.SameFrame fs fs') :
    residualDimension ⟨fs'⟩ = residualDimension ⟨fs⟩ := by
  have total : fs'.foldr (fun f total => f.noise.dim + total) 0 = fs.foldr (fun f total => f.noise.dim + total) 0 := by
    induction frame with
    | nil => rfl
    | cons first rest ih => rw [List.foldr_cons, List.foldr_cons, ih, first.dim_eq]
  rw [residualDimension, residualDimension, total]

theorem rows_of_frame (frame : List.Forall₂ GraphFactor.SameFrame fs fs') :
    (fs'.map (·.noise.dim)).sum = (fs.map (·.noise.dim)).sum := by
  induction frame with
  | nil => rfl
  | cons first rest ih => rw [List.map_cons, List.map_cons, List.sum_cons, List.sum_cons, ih, first.dim_eq]

theorem slot_of_frame (frame : List.Forall₂ GraphFactor.SameFrame fs fs') {slot : Nat} {f : GraphFactor K}
    (present : fs[slot]? = some f) : ∃ f', fs'[slot]? = some f' ∧ f.SameFrame f' := by
  obtain ⟨inside, rfl⟩ := List.getElem?_eq_some_iff.mp present
  have inside' := inside.trans_eq frame.length_eq
  exact ⟨fs'[slot], List.getElem?_eq_getElem inside', frame.get inside inside'⟩

theorem positionsFrom_of_frame (frame : List.Forall₂ GraphFactor.SameFrame fs fs') (values : Values K)
    (layout : Layout) (row : Nat) : positionsFrom values layout row fs' = positionsFrom values layout row fs := by
  induction frame generalizing row with
  | nil => rfl
  | cons first rest ih => rw [positionsFrom, positionsFrom, first.keys_eq, first.dim_eq, ih]

theorem pattern_of_frame (frame : List.Forall₂ GraphFactor.SameFrame fs fs') (values : Values K)
    (layout : Layout) : pattern ⟨fs'⟩ values layout = pattern ⟨fs⟩ values layout := by
  rw [pattern, pattern, positionsFrom_of_frame frame, residualDimension_of_frame frame]

end Frame

/-- Two graphs that nothing tells apart: neither errors nor whitened residuals and Jacobians at any estimate, and
neither the layout nor the linear system. -/
structure Alike (a b : Graph ℝ) : Prop where
  frame : List.Forall₂ GraphFactor.SameFrame a.factors b.factors
  factorErrors_eq : ∀ values, b.factorErrors values = a.factorErrors values
  error_eq : ∀ values, b.error values = a.error values
  blocks_eq : ∀ values wanted, b.factors.map (·.linearize values wanted) = a.factors.map (·.linearize values wanted)
  layout_eq : ∀ values, b.layout values = a.layout values
  pattern_eq : ∀ values layout, b.pattern values layout = a.pattern values layout
  stackedResidual_eq : ∀ values, b.stackedResidual values = a.stackedResidual values
  linearize_eq : ∀ values pattern, b.linearize values pattern = a.linearize values pattern

theorem map_of_slots {β : Type} {fs fs' : List (GraphFactor ℝ)} {evaluate : GraphFactor ℝ → β}
    (alike : List.Forall₂ GraphFactor.Alike fs fs')
    (same : ∀ f f', GraphFactor.Alike f f' → evaluate f' = evaluate f) : fs'.map evaluate = fs.map evaluate := by
  induction alike with
  | nil => rfl
  | cons first rest ih => rw [List.map_cons, List.map_cons, ih, same _ _ first]

theorem alike_of_slots {a b : Graph ℝ} (alike : List.Forall₂ GraphFactor.Alike a.factors b.factors) : Alike a b := by
  have frame := alike.imp fun _ _ same => same.frame
  have errors (values : Values ℝ) : b.factorErrors values = a.factorErrors values :=
    Result.mapM_congr alike fun f f' same => by rw [same.error_eq]
  refine ⟨frame, errors, ?_, ?_, layout_of_frame frame, pattern_of_frame frame, ?_, ?_⟩
  · intro values
    rw [error, error, errors]
  · intro values wanted
    exact map_of_slots alike fun f f' same => by rw [same.linearize_eq]
  · intro values
    rw [stackedResidual, stackedResidual,
      Result.mapM_congr alike fun f f' same => by rw [same.linearize_eq]]
  · intro values pattern
    have blocks : b.factors.mapM (linearizeBlock values) = a.factors.mapM (linearizeBlock values) :=
      Result.mapM_congr alike fun f f' same => by
        rw [linearizeBlock, linearizeBlock, same.linearize_eq, same.frame.keys_eq]
    rw [linearize, linearize, blocks]

/-- Even weights change nothing. -/
theorem Reweights.alike_one {weights : Vec ℝ} {fs fs' : List (GraphFactor ℝ)} (reweights : Reweights weights fs fs')
    (ones : ∀ weight ∈ weights, weight = 1) : List.Forall₂ GraphFactor.Alike fs fs' := by
  induction reweights with
  | nil => exact .nil
  | cons admitted first rest ih =>
      obtain rfl := ones _ (.head _)
      exact .cons first.alike_one (ih fun weight member => ones weight (.tail _ member))

/-- Weights on top of weights have the effect of the products. -/
theorem Reweights.alike_mul {v w : Vec ℝ} {fs fs₁ fs₂ fs' : List (GraphFactor ℝ)} (first : Reweights v fs fs₁)
    (second : Reweights w fs₁ fs₂) (both : Reweights (List.zipWith (· * ·) v w) fs fs') :
    List.Forall₂ GraphFactor.Alike fs' fs₂ := by
  induction first generalizing w fs₂ fs' with
  | nil =>
      cases second
      cases both
      exact .nil
  | cons left one rest ih =>
      cases second with
      | cons right two rest' =>
          cases both with
          | cons _ both rest'' =>
              exact .cons (one.alike_mul two both (by simpa using left) (by simpa using right)) (ih rest' rest'')

theorem Reweights.plain {K : Type} [Scalar K] {weights : Vec K} {graph g : Graph K}
    (reweights : Reweights weights graph.factors g.factors) : g.hasRobustFactors = false := by
  obtain ⟨fs⟩ := graph
  obtain ⟨fs'⟩ := g
  rw [hasRobustFactors_false_iff]
  dsimp only at reweights ⊢
  induction reweights with
  | nil => exact List.forall_mem_nil _
  | cons admitted first rest ih =>
      exact List.forall_mem_cons.mpr ⟨(Noise.scaledByWeight_plain first.scaled).2, ih⟩

/-- A graph without robust models can be reweighted by any weights that are not negative. -/
theorem reweight_exists {graph : Graph ℝ} {weights : Vec ℝ} (plain : graph.hasRobustFactors = false)
    (count : weights.length = graph.size) (nonneg : ∀ weight ∈ weights, 0 ≤ weight) :
    ∃ g, graph.reweight weights = .ok g ∧ Reweights weights graph.factors g.factors := by
  have admits : graph.Admits weights := by
    intro slot f present
    have inside : slot < weights.length := by
      rw [count]
      exact (List.getElem?_eq_some_iff.mp present).1
    rw [List.getD_eq_getElem _ _ inside]
    refine GraphFactor.refusal_none_iff.mpr ⟨?_, ?_⟩
    · simpa using nonneg _ (List.getElem_mem inside)
    · exact hasRobustFactors_false_iff.mp plain f (List.mem_of_getElem? present)
  rcases graph.reweight_cases weights with ⟨differ, -⟩ | ⟨-, error, refused, -⟩ | ⟨-, -, g, done, reweights⟩
  · exact absurd count differ
  · exact absurd admits refused.not_admits
  · exact ⟨g, done, reweights⟩

/-- A reweighted graph against the original one, in its errors and in its linear system: each slot counts as often
as its weight says. -/
structure Weighs (graph : Graph ℝ) (weights : Vec ℝ) (g : Graph ℝ) : Prop where
  frame : List.Forall₂ GraphFactor.SameFrame graph.factors g.factors
  factorError_eq : ∀ slot weight values, weights[slot]? = some weight →
    g.factorError slot values = (weight * ·) <$> graph.factorError slot values
  error_eq : ∀ values, g.error values =
    (fun errors => (List.zipWith (· * ·) weights errors).sum) <$> graph.factorErrors values
  block_eq : ∀ slot weight f, weights[slot]? = some weight → graph.get? slot = some f →
    ∃ f', g.get? slot = some f' ∧ ∀ values wanted,
      f'.linearize values wanted = GraphFactor.Weighted.scaleSystem weight <$> f.linearize values wanted
  layout_eq : ∀ values, g.layout values = graph.layout values
  pattern_eq : ∀ values layout, g.pattern values layout = graph.pattern values layout
  system : ∀ values layout pattern r J, graph.pattern values layout = .ok pattern →
    graph.linearize values pattern = .ok (r, J) →
    ∃ r' J', g.linearize values pattern = .ok (r', J') ∧ J'.height = J.height ∧ J'.width = J.width ∧
      (∀ a b, a < J.width → b < J.width → J'.gram.get a b =
        ∑ slot ∈ Finset.range graph.size, weights.getD slot 0 * ∑ k ∈ Finset.range (graph.rowCount slot),
          J.get (graph.rowStart slot + k) a * J.get (graph.rowStart slot + k) b) ∧
      (∀ a, a < J.width → (J'.transposeMul r').getD a 0 =
        ∑ slot ∈ Finset.range graph.size, weights.getD slot 0 * ∑ k ∈ Finset.range (graph.rowCount slot),
          J.get (graph.rowStart slot + k) a * r.getD (graph.rowStart slot + k) 0)
  unsolvable : ∀ values layout pattern failure, graph.pattern values layout = .ok pattern →
    graph.linearize values pattern = .error failure → g.linearize values pattern = .error failure

theorem Reweights.factorError_eq {weights : Vec ℝ} {graph g : Graph ℝ}
    (reweights : Reweights weights graph.factors g.factors) {slot : Nat} {weight : ℝ}
    (present : weights[slot]? = some weight) (values : Values ℝ) :
    g.factorError slot values = (weight * ·) <$> graph.factorError slot values := by
  obtain ⟨admitted, f, f', here, there, weighted⟩ := reweights.slot present
  have found : graph.get? slot = some f := here
  have found' : g.get? slot = some f' := there
  rw [factorError, factorError, found, found']
  exact weighted.error_eq (by simpa using admitted) values

theorem Reweights.weighs {weights : Vec ℝ} {graph g : Graph ℝ}
    (reweights : Reweights weights graph.factors g.factors) (nonneg : ∀ weight ∈ weights, 0 ≤ weight) :
    Weighs graph weights g where
  frame := reweights.frame
  factorError_eq _ _ values present := reweights.factorError_eq present values
  error_eq values := reweights.error_eq values
  block_eq slot weight f present here := by
    obtain ⟨-, f₁, f', first, there, weighted⟩ := reweights.slot present
    obtain rfl : f₁ = f := Option.some.inj (first.symm.trans here)
    exact ⟨f', there, weighted.linearize_eq⟩
  layout_eq values := layout_of_frame reweights.frame values
  pattern_eq values layout := pattern_of_frame reweights.frame values layout
  system values layout pattern r J found linear := by
    obtain ⟨linear', length, short, formed⟩ := reweights.linearize_eq found linear
    refine ⟨_, _, linear', rfl, List.length_map _, fun a b row column => ?_, fun a column => ?_⟩
    · exact gram_rowWeights reweights.length_eq nonneg formed short row column
    · exact transposeMul_rowWeights reweights.length_eq nonneg formed length column
  unsolvable _ _ _ _ found failed := reweights.linearize_failed found failed

/-- Weights that are not negative weigh the slots, even ones change nothing, and one weighing after another is one by
the products. What cannot be weighed is refused at its first slot. -/
theorem reweight_weighs (graph : Graph ℝ) (weights : Vec ℝ) (plain : graph.hasRobustFactors = false)
    (count : weights.length = graph.size) (nonneg : ∀ weight ∈ weights, 0 ≤ weight) :
    (∃ g, graph.reweight weights = .ok g ∧ Weighs graph weights g) ∧
    (∃ g, graph.reweight (List.replicate graph.size 1) = .ok g ∧ Alike graph g) ∧
    (∀ v w : Vec ℝ, v.length = graph.size → w.length = graph.size → (∀ x ∈ v, 0 < x) → (∀ x ∈ w, 0 < x) →
      ∃ g₁ g₂ g, graph.reweight v = .ok g₁ ∧ g₁.reweight w = .ok g₂ ∧
        graph.reweight (List.zipWith (· * ·) v w) = .ok g ∧ Alike g g₂) ∧
    (∀ (K : Type) [Scalar K] (graph : Graph K) (weights : Vec K),
      (weights.length ≠ graph.size ∧
        graph.reweight weights = .failContinuation (.weightCountMismatch graph.size weights.length)) ∨
      (weights.length = graph.size ∧
        ∃ error, graph.FirstRefused weights error ∧ graph.reweight weights = .failModel error) ∨
      (weights.length = graph.size ∧ graph.Admits weights ∧ ∃ g, graph.reweight weights = .ok g)) := by
  refine ⟨?_, ?_, ?_, ?_⟩
  · obtain ⟨g, done, reweights⟩ := reweight_exists plain count nonneg
    exact ⟨g, done, reweights.weighs nonneg⟩
  · have ones : ∀ weight ∈ List.replicate graph.size (1 : ℝ), weight = 1 := fun weight => List.eq_of_mem_replicate
    have nonneg' : ∀ weight ∈ List.replicate graph.size (1 : ℝ), 0 ≤ weight := by
      intro weight member
      rw [ones weight member]
      exact zero_le_one
    obtain ⟨g, done, reweights⟩ := reweight_exists plain List.length_replicate nonneg'
    exact ⟨g, done, alike_of_slots (reweights.alike_one ones)⟩
  · intro v w left right positive positive'
    obtain ⟨g₁, done₁, first⟩ := reweight_exists plain left fun x member => (positive x member).le
    have same : g₁.size = graph.size := first.frame.length_eq.symm
    obtain ⟨g₂, done₂, second⟩ := reweight_exists first.plain (right.trans same.symm)
      fun x member => (positive' x member).le
    have products : ∀ x ∈ List.zipWith (· * ·) v w, 0 ≤ x := by
      intro x member
      rw [← List.map_uncurry_zip_eq_zipWith] at member
      obtain ⟨pair, present, rfl⟩ := List.mem_map.mp member
      obtain ⟨one, two⟩ := List.of_mem_zip present
      exact (mul_pos (positive _ one) (positive' _ two)).le
    have both : (List.zipWith (· * ·) v w).length = graph.size := by
      rw [List.length_zipWith, left, right, min_self]
    obtain ⟨g, done, reweights⟩ := reweight_exists plain both products
    exact ⟨g₁, g₂, g, done₁, done₂, done, alike_of_slots (first.alike_mul second reweights)⟩
  · intro K _ graph weights
    rcases graph.reweight_cases weights with miscounted | refused | ⟨same, admits, g, done, -⟩
    · exact .inl miscounted
    · exact .inr (.inl refused)
    · exact .inr (.inr ⟨same, admits, g, done⟩)

/-- Two priors, the first of half its weight and the second of three times: what the weighted graph has in the only column
of the variable. -/
theorem pulled_weighs : ∃ g r J, (pulled 1 2).reweight [1 / 2, 3] = .ok g ∧ Weighs (pulled 1 2) [1 / 2, 3] g ∧
    g.error (.beside 4) = .ok (1 / 2 * 8 + 3 * (9 / 8)) ∧
    g.linearize (.beside 4) (LeastSquares.Problem.pulled 1 2).pattern = .ok (r, J) ∧
    J.gram.get 0 0 = 1 / 2 * 1 + 3 * (1 / 4) ∧ (J.transposeMul r).getD 0 0 = 1 / 2 * 4 + 3 * (3 / 4) := by
  have plain : (pulled 1 2).hasRobustFactors = false := rfl
  have nonneg : ∀ weight ∈ [(1 / 2 : ℝ), 3], 0 ≤ weight := by norm_num
  obtain ⟨g, done, weighs⟩ := (reweight_weighs (pulled 1 2) [1 / 2, 3] plain rfl nonneg).1
  obtain ⟨-, layout, -, -, pattern, found, same⟩ :=
    LeastSquares.Problem.prepare_ok_iff.mp (LeastSquares.Problem.prepare_pulled 1 2 4)
  have linear := LeastSquares.Problem.linearize_pulled 1 2 4
  rw [same] at linear ⊢
  obtain ⟨r, J, linear', -, -, gram, gradient⟩ := weighs.system (.beside 4) layout pattern _ _ found linear
  have first : (⟨2, [[(0, 1), (1, 1 / 2)]]⟩ : SparseMat ℝ).get 0 0 = 1 := rfl
  have second : (⟨2, [[(0, 1), (1, 1 / 2)]]⟩ : SparseMat ℝ).get 1 0 = 1 / 2 := rfl
  refine ⟨g, r, J, done, weighs, ?_, linear', ?_, ?_⟩
  · rw [weighs.error_eq, pulled_factorErrors]
    norm_num
  · rw [gram 0 0 Nat.one_pos Nat.one_pos]
    norm_num [size, pulled, Finset.sum_range_succ, rowCount, rowStart, Noise.dim, first, second]
  · rw [gradient 0 Nat.one_pos]
    norm_num [size, pulled, Finset.sum_range_succ, rowCount, rowStart, Noise.dim, first, second]

end Graph

end GraduatedFit
