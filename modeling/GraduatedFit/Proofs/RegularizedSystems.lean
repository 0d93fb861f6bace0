import GraduatedFit.Proofs.SameNumbers

/-! A system with something positive added to its diagonal has a solution, whatever the rank of its Jacobian, and so an
iteration that regularizes its system finds a step. -/

namespace GraduatedFit

open GraduatedFit.Elimination

namespace SparseMat

/-- The form of a damped matrix adds the damped squares of the vector to the squares of its image. -/
theorem damped_form {J : SparseMat ℝ} (formed : J.WellFormed) (damping : ℝ) (v : Nat → ℝ) :
    (J.damped (some damping)).form v =
      ∑ p ∈ Finset.range J.height, (∑ i ∈ Finset.range J.width, J.get p i * v i) ^ 2 +
        damping * ∑ i ∈ Finset.range J.width, v i ^ 2 := by
  have size : J.gram.length = J.width := length_gramOf _
  rw [Symmetric.form, length_damped, ← gram_form formed, Finset.mul_sum, ← Finset.sum_add_distrib]
  refine Finset.sum_congr rfl fun i member => ?_
  have applied := addDiagonal_apply J.gram damping v ((Finset.mem_range.mp member).trans_eq size.symm)
  rw [size] at applied
  calc
    _ = v i * (∑ j ∈ Finset.range J.width, J.gram.get i j * v j + damping * v i) := congrArg (v i * ·) applied
    _ = _ := by ring

/-- Something positive on the diagonal makes up for any rank. -/
theorem damped_positiveDefinite {J : SparseMat ℝ} (formed : J.WellFormed) {damping : ℝ} (positive : 0 < damping) :
    (J.damped (some damping)).PositiveDefinite := by
  rintro v ⟨i, inside, nonzero⟩
  rw [length_damped] at inside
  rw [damped_form formed]
  have images : 0 ≤ ∑ p ∈ Finset.range J.height, (∑ i ∈ Finset.range J.width, J.get p i * v i) ^ 2 :=
    Finset.sum_nonneg fun p _ => sq_nonneg _
  have squares : 0 < ∑ i ∈ Finset.range J.width, v i ^ 2 :=
    Finset.sum_pos' (fun i _ => sq_nonneg _) ⟨i, Finset.mem_range.mpr inside, sq_pos_iff.mpr nonzero⟩
  positivity

end SparseMat

namespace NormalEquations

variable {kept : NormalEquations ℝ} {r : Vec ℝ} {J : SparseMat ℝ} {damping : ℝ}

/-- A damped system is solved, and the solution has an entry for each column. -/
theorem solve_exists (fits : r.length = J.height) (formed : J.WellFormed) (positive : 0 < damping)
    (planned : kept.PlannedFor J.support true) :
    ∃ next x, kept.solve r J (some damping) = (next, .ok x) ∧ x.length = J.columns.length ∧
      next.PlannedFor J.support true ∧ next.gradient = some (J.transposeMul r) := by
  have planned : kept.PlannedFor J.support (some damping).isSome := planned
  obtain ⟨next, outcome, gradient⟩ := solve_planned fits planned
  have definite := SparseMat.damped_positiveDefinite formed positive
  rcases Plan.solve_cases (S := J.damped (some damping)) rfl ((J.transposeMul r).map (- ·)) with
    ⟨-, x, found, solves⟩ | ⟨indefinite, -⟩
  · have solved := outcome.trans found
    refine ⟨_, x, Prod.ext rfl solved, ?_, next, gradient x solved⟩
    rw [solves.length_eq, SparseMat.length_damped]
  · exact absurd definite indefinite

end NormalEquations

namespace LeastSquares

/-- What an iteration with scaling on or off finds in its state: a plan for its systems, and a scaling for their columns
where it needs one. -/
structure State.Equipped (useScaling : Bool) (places : List (List Nat)) (s : State ℝ) : Prop where
  planned : s.equations.PlannedFor places true
  sized : ∀ scaling, s.scaling = some scaling → scaling.factors.length = places.length
  scaled : useScaling = true → s.iteration ≠ 0 → ∃ scaling, s.scaling = some scaling

namespace State

variable {useScaling : Bool} {places : List (List Nat)} {s : State ℝ} {J : SparseMat ℝ} {r : Vec ℝ}

theorem start_equipped (useScaling : Bool) (places : List (List Nat)) (initial : Values ℝ) (cost : ℝ) :
    (start initial cost).Equipped useScaling places where
  planned := NormalEquations.plannedFor_nothing _ _
  sized scaling present := by cases present
  scaled _ later := absurd rfl later

/-- The first iteration makes the scaling that the others find. -/
theorem Equipped.updateScaling (equipped : s.Equipped useScaling places) (stored : J.support = places) :
    (s.updateScaling useScaling J).Equipped useScaling places ∧
      (useScaling = true → ∃ scaling, (s.updateScaling useScaling J).scaling = some scaling) := by
  unfold State.updateScaling
  split
  · refine ⟨⟨equipped.planned, fun scaling present => ?_, fun _ _ => ⟨_, rfl⟩⟩, fun _ => ⟨_, rfl⟩⟩
    obtain rfl := Option.some.inj present
    rw [← stored, SparseMat.support, List.length_map]
    exact List.length_map _
  · rename_i apart
    refine ⟨equipped, fun on => equipped.scaled on fun first => apart ?_⟩
    rw [on, first]
    rfl

/-- A regularized system leads to a step with an entry for each column. -/
theorem Equipped.direction_exists (equipped : s.Equipped useScaling places)
    (scales : useScaling = true → ∃ scaling, s.scaling = some scaling) (stored : J.support = places)
    (formed : J.WellFormed) (fits : r.length = J.height) {damping : ℝ} (positive : 0 < damping)
    (fault : LinearError → SystemFault) (noGradient : SolveError ℝ) :
    ∃ d, s.direction useScaling (some damping) fault noGradient r J = .ok d ∧
      d.step.length = places.length ∧ d.equations.PlannedFor places true := by
  have width : J.columns.length = places.length := by rw [← stored, SparseMat.support, List.length_map]
  obtain ⟨scaled, found, rows, support, well⟩ : ∃ scaled, s.scaledJacobian useScaling J = .ok scaled ∧
      scaled.height = J.height ∧ scaled.support = places ∧ scaled.WellFormed := by
    unfold scaledJacobian
    split
    · rename_i on
      obtain ⟨scaling, present⟩ := scales on
      have size : scaling.factors.length = J.columns.length := (equipped.sized scaling present).trans width.symm
      rw [present]
      exact ⟨_, rfl, rfl, (SparseMat.scaleColumns_support size).trans stored, SparseMat.scaleColumns_wellFormed formed⟩
    · exact ⟨J, rfl, rfl, stored, formed⟩
  have columns : scaled.columns.length = places.length := by rw [← support, SparseMat.support, List.length_map]
  obtain ⟨next, x, solved, length, planned, gradient⟩ :=
    NormalEquations.solve_exists (fits.trans rows.symm) well positive (support ▸ equipped.planned)
  have unscaled : (s.unscaledStep useScaling x).length = places.length := by
    unfold unscaledStep
    split
    · rename_i scaling present
      rw [ColumnScaling.unscale, List.length_zipWith, length, columns, equipped.sized scaling present, min_self]
    · exact length.trans columns
  refine ⟨⟨s.unscaledStep useScaling x, x, scaled.transposeMul r, next⟩, ?_, unscaled, support ▸ planned⟩
  rw [direction, found, Result.ok_bind, solved]
  simp only [Except.mapError, Result.ok_bind, gradient]
  rfl

end State

end LeastSquares

end GraduatedFit
