import GraduatedFit.Proofs.CholeskyFactor
import GraduatedFit.Proofs.MatrixInverse

/-! Noise models of covariances: a matrix has a model exactly if its lower triangle describes a positive definite matrix, and
the model whitens with the inverse of the factor of that matrix. -/

namespace GraduatedFit

open Matrix

namespace Noise

section Gaussian

variable {R : Mat ℝ} {n : Nat}

theorem error_gaussian (height : R.height = n) (width : R.width = n) {r : Vec ℝ} (length : r.length = n) :
    (gaussian R).error? r =
      some (1 / 2 * (r.components n ⬝ᵥ (((R.toMatrix n n)ᵀ * R.toMatrix n n) *ᵥ r.components n))) := by
  have whitened : (gaussian R).whiten? r = some (R.apply r) := Mat.mulVec?_eq_apply (length.trans width.symm)
  rw [error_plain rfl, whitened, Option.map_some, Vec.normSq_components ((Mat.length_apply R r).trans height),
    Mat.components_apply height width length, ← mulVec_mulVec, dotProduct_mulVec _ (R.toMatrix n n)ᵀ, vecMul_transpose]
  norm_num

/-- The standard deviations of a model whose information is not singular. -/
theorem sigmas_gaussian (height : R.height = n) (width : R.width = n) (regular : (R.toMatrix n n).det ≠ 0) :
    ∃ C : Mat ℝ, C.toMatrix n n = ((R.toMatrix n n)ᵀ * R.toMatrix n n)⁻¹ ∧
      (gaussian R).sigmas? = some ((List.range n).map fun i => √(C.get i i)) := by
  have shape : R.transpose.height = n ∧ R.transpose.width = n := ⟨(Mat.height_transpose R).trans width, height⟩
  obtain ⟨information, product, -⟩ := Mat.mul?_exists (shape.2.trans height.symm)
  obtain ⟨tall, wide, entries⟩ := Mat.toMatrix_mul shape ⟨height, width⟩ product
  rw [Mat.toMatrix_transpose height width] at entries
  have nonzero : (information.toMatrix n n).det ≠ 0 := by
    rw [entries, det_mul, det_transpose]
    exact mul_ne_zero regular regular
  obtain ⟨C, found, -, -, inverse⟩ := Mat.inverse_exists tall wide nonzero
  refine ⟨C, inverse.trans (congrArg _ entries), ?_⟩
  simp [sigmas?, product, found, width]

end Gaussian

section Covariances

variable {covariance R : Mat ℝ} {n : Nat}

theorem ofSqrtInformation_eq (height : R.height = n) (width : R.width = n) :
    ofSqrtInformation R = if n = 0 then invalid (.informationShape 0 0) else .ok (gaussian R) := by
  by_cases empty : n = 0
  · simp [ofSqrtInformation, height, width, empty]
  · simp [ofSqrtInformation, Mat.isSquare, height, width, empty]

/-- The square root of the information is the inverse of the factor of the matrix that the lower triangle describes, if that
matrix is positive definite. -/
theorem ofCovariance_cases (height : covariance.height = n) (width : covariance.width = n) :
    ((covariance.mirrored n).PosDef ∧ ∃ R L, ofCovariance covariance = ofSqrtInformation R ∧ R.height = n ∧ R.width = n ∧
        LowerFactor (covariance.mirrored n) L ∧ R.toMatrix n n = L⁻¹) ∨
      (¬(covariance.mirrored n).PosDef ∧ ofCovariance covariance = invalid .notPositiveDefinite) := by
  have square : covariance.isSquare = true := by simp [Mat.isSquare, height, width]
  unfold ofCovariance
  rw [square]
  rcases Symmetric.cholesky_ofLower height with ⟨positive, L, factored, length, factor⟩ | ⟨indefinite, failed⟩
  · have tall : L.toMat.height = n := (Mat.height_ofFn _ _ _).trans length
    have wide : L.toMat.width = n := length
    obtain ⟨R, inverted, height', width', inverse⟩ := Mat.inverse_exists tall wide factor.det_ne_zero
    exact .inl ⟨positive, R, _, by simp [factored, inverted], height', width', factor, inverse⟩
  · exact .inr ⟨indefinite, by simp [failed]⟩

theorem ofCovariance_exists_iff (height : covariance.height = n) (width : covariance.width = n) :
    (∃ model, ofCovariance covariance = .ok model) ↔ 0 < n ∧ (covariance.mirrored n).PosDef := by
  rcases ofCovariance_cases height width with ⟨positive, R, L, found, height', width', -⟩ | ⟨indefinite, failed⟩
  · rw [found, ofSqrtInformation_eq height' width']
    constructor
    · rintro ⟨model, made⟩
      split at made
      · cases made
      · rename_i nonempty
        exact ⟨Nat.pos_of_ne_zero nonempty, positive⟩
    · rintro ⟨nonempty, -⟩
      exact ⟨_, if_neg nonempty.ne'⟩
  · rw [failed]
    exact iff_of_false (by rintro ⟨model, made⟩; cases made) fun ⟨_, positive⟩ => indefinite positive

theorem ofCovariance_model (height : covariance.height = n) (width : covariance.width = n) {model : Noise ℝ}
    (made : ofCovariance covariance = .ok model) : ∃ R L, model = gaussian R ∧ R.height = n ∧ R.width = n ∧
      LowerFactor (covariance.mirrored n) L ∧ R.toMatrix n n = L⁻¹ := by
  rcases ofCovariance_cases height width with ⟨-, R, L, found, height', width', factor, inverse⟩ | ⟨-, failed⟩
  · rw [found, ofSqrtInformation_eq height' width'] at made
    split at made
    · cases made
    · exact ⟨R, L, (Except.ok.inj made).symm, height', width', factor, inverse⟩
  · rw [failed] at made
    cases made

/-- The deviations of a covariance are the roots of its diagonal. -/
theorem sigmas_of_factor {S L : Matrix (Fin n) (Fin n) ℝ} (height : R.height = n) (width : R.width = n)
    (factor : LowerFactor S L) (inverse : R.toMatrix n n = L⁻¹) (deviation : Nat → ℝ)
    (diagonal : ∀ i : Fin n, √(S i i) = deviation i) :
    (gaussian R).sigmas? = some ((List.range n).map deviation) := by
  have unit : IsUnit L.det := factor.det_ne_zero.isUnit
  have regular : (R.toMatrix n n).det ≠ 0 := by
    rw [inverse]
    exact (isUnit_nonsing_inv_det L unit).ne_zero
  obtain ⟨C, inverse', sigmas⟩ := sigmas_gaussian height width regular
  have same : C.toMatrix n n = S := by
    rw [inverse', inverse, factor.inverse_product, nonsing_inv_nonsing_inv S factor.det_matrix.isUnit]
  rw [sigmas]
  refine congrArg some (List.map_congr_left fun i member => ?_)
  have entry := diagonal ⟨i, List.mem_range.mp member⟩
  rwa [← same] at entry

/-- For a symmetric matrix there is a model exactly if it is positive definite. The model takes it to the identity, measures
residuals in the norm of its inverse, and has the roots of its diagonal for deviations. -/
theorem covariance_whitens (nonempty : 0 < n) (height : covariance.height = n) (width : covariance.width = n)
    (symmetric : (covariance.toMatrix n n).IsSymm) :
    ((∃ model, ofCovariance covariance = .ok model) ↔ (covariance.toMatrix n n).PosDef) ∧
    ∀ model, ofCovariance covariance = .ok model → ∃ R, model = gaussian R ∧ R.height = n ∧ R.width = n ∧
      R.toMatrix n n * covariance.toMatrix n n * (R.toMatrix n n)ᵀ = 1 ∧
      (∀ r : Vec ℝ, r.length = n → model.error? r =
        some (1 / 2 * (r.components n ⬝ᵥ ((covariance.toMatrix n n)⁻¹ *ᵥ r.components n)))) ∧
      model.sigmas? = some ((List.range n).map fun i => √(covariance.get i i)) := by
  have mirrored : covariance.mirrored n = covariance.toMatrix n n := Mat.mirrored_eq_iff.mpr symmetric
  constructor
  · rw [ofCovariance_exists_iff height width, mirrored, and_iff_right nonempty]
  · intro model made
    obtain ⟨R, L, rfl, height', width', factor, inverse⟩ := ofCovariance_model height width made
    rw [mirrored] at factor
    refine ⟨R, rfl, height', width', ?_, fun r length => ?_, sigmas_of_factor height' width' factor inverse _ fun i => rfl⟩
    · rw [inverse, factor.whitens]
    · rw [error_gaussian height' width' length, inverse, factor.inverse_product]

/-- Deviations three and five, and components that vary together. -/
noncomputable def correlated : Mat ℝ := ⟨2, [[9.0, 12.0], [12.0, 25.0]], by simp⟩

theorem correlated_factor : LowerFactor (correlated.toMatrix 2 2) !![3, 0; 4, 3] := by
  refine ⟨?_, ?_, ?_⟩
  · intro i j upper
    have above : i < j := upper
    fin_cases i <;> fin_cases j <;> simp_all
  · intro i
    fin_cases i <;> simp
  · ext i j
    fin_cases i <;> fin_cases j <;> norm_num [correlated, Mat.toMatrix, Mat.get, mul_apply, Fin.sum_univ_two]

theorem correlated_whitens : (0 < 2 ∧ correlated.height = 2 ∧ correlated.width = 2 ∧ (correlated.toMatrix 2 2).IsSymm) ∧
    ∃ model, ofCovariance correlated = .ok model ∧ model.sigmas? = some [3, 5] := by
  have symmetric : (correlated.toMatrix 2 2).IsSymm := correlated_factor.posDef.isHermitian
  obtain ⟨accepted, whitens⟩ := covariance_whitens Nat.two_pos rfl rfl symmetric
  obtain ⟨model, made⟩ := accepted.mpr correlated_factor.posDef
  obtain ⟨_, _, _, _, _, _, sigmas⟩ := whitens model made
  have first : √(correlated.get 0 0) = 3 := by
    rw [Real.sqrt_eq_iff_mul_self_eq_of_pos three_pos]
    norm_num [correlated, Mat.get]
  have second : √(correlated.get 1 1) = 5 := by
    rw [Real.sqrt_eq_iff_mul_self_eq_of_pos (by norm_num)]
    norm_num [correlated, Mat.get]
  refine ⟨⟨Nat.two_pos, rfl, rfl, symmetric⟩, model, made, ?_⟩
  rw [sigmas]
  simp [List.range_succ, first, second]

/-- What stands above the diagonal of a matrix has no part in its model, which is the model of the matrix that the lower
triangle describes. It is the model of the matrix itself exactly if that is symmetric. -/
theorem covariance_lower_triangle (height : covariance.height = n) (width : covariance.width = n) :
    (∀ other : Mat ℝ, other.height = n → other.width = n → (∀ i < n, ∀ j ≤ i, other.get i j = covariance.get i j) →
      ofCovariance other = ofCovariance covariance) ∧
    ((∃ model, ofCovariance covariance = .ok model) ↔ 0 < n ∧ (covariance.mirrored n).PosDef) ∧
    ∀ model, ofCovariance covariance = .ok model → ∃ R, model = gaussian R ∧ R.height = n ∧ R.width = n ∧
      (R.toMatrix n n)ᵀ * R.toMatrix n n = (covariance.mirrored n)⁻¹ ∧
      R.toMatrix n n * covariance.mirrored n * (R.toMatrix n n)ᵀ = 1 ∧
      (R.toMatrix n n * covariance.toMatrix n n * (R.toMatrix n n)ᵀ = 1 ↔ (covariance.toMatrix n n).IsSymm) := by
  refine ⟨fun other height' width' lower => ?_, ofCovariance_exists_iff height width, fun model made => ?_⟩
  · have square : other.isSquare = covariance.isSquare := by simp [Mat.isSquare, height, width, height', width']
    unfold ofCovariance
    rw [square, Symmetric.ofLower_congr height' height lower, height, width, height', width']
  · obtain ⟨R, L, rfl, height', width', factor, inverse⟩ := ofCovariance_model height width made
    refine ⟨R, rfl, height', width', ?_, ?_, ?_⟩
    · rw [inverse, factor.inverse_product]
    · rw [inverse, factor.whitens]
    · rw [inverse, factor.whitens_iff, eq_comm, Mat.mirrored_eq_iff]

/-- A covariance on one side of the diagonal only. -/
noncomputable def oneSided : Mat ℝ := ⟨2, [[1, 1], [0, 1]], by simp⟩

theorem oneSided_shape : oneSided.height = 2 ∧ oneSided.width = 2 := ⟨rfl, rfl⟩

theorem oneSided_mirrored : oneSided.mirrored 2 = 1 := by
  ext i j
  fin_cases i <;> fin_cases j <;> simp [oneSided, Mat.mirrored, Mat.get]

theorem oneSided_definite : (oneSided.mirrored 2).PosDef := oneSided_mirrored ▸ PosDef.one

theorem oneSided_asymmetric : ¬(oneSided.toMatrix 2 2).IsSymm := by
  intro symmetric
  have entry := symmetric.apply 0 1
  simp [oneSided, Mat.toMatrix, Mat.get] at entry

theorem oneSided_lower_triangle : (oneSided.height = 2 ∧ oneSided.width = 2) ∧
    ∃ R, ofCovariance oneSided = .ok (gaussian R) ∧ (R.toMatrix 2 2)ᵀ * R.toMatrix 2 2 = 1 := by
  obtain ⟨-, accepted, models⟩ := covariance_lower_triangle oneSided_shape.1 oneSided_shape.2
  obtain ⟨model, made⟩ := accepted.mpr ⟨Nat.two_pos, oneSided_definite⟩
  obtain ⟨R, rfl, -, -, inverse, -⟩ := models model made
  rw [oneSided_mirrored, inv_one] at inverse
  exact ⟨oneSided_shape, R, made, inverse⟩

/-- It is taken for a covariance, and the model does not take it to the identity. -/
theorem oneSided_accepted : ∃ R, ofCovariance oneSided = .ok (gaussian R) ∧ R.height = 2 ∧ R.width = 2 ∧
    R.toMatrix 2 2 * oneSided.toMatrix 2 2 * (R.toMatrix 2 2)ᵀ ≠ 1 := by
  obtain ⟨tall, wide⟩ := oneSided_shape
  obtain ⟨model, made⟩ := (ofCovariance_exists_iff tall wide).mpr ⟨Nat.two_pos, oneSided_definite⟩
  obtain ⟨R, L, rfl, height, width, factor, inverse⟩ := ofCovariance_model tall wide made
  refine ⟨R, made, height, width, fun whitened => oneSided_asymmetric ?_⟩
  rw [inverse, factor.whitens_iff, eq_comm] at whitened
  exact Mat.mirrored_eq_iff.mp whitened

end Covariances

end Noise

end GraduatedFit
