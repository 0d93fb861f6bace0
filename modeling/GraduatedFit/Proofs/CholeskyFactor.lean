import GraduatedFit.Proofs.DenseMatrices
import GraduatedFit.Proofs.PositiveDefinite

/-! The factor of a Cholesky factorization: lower triangular with a positive diagonal, and times its transpose the matrix. -/

namespace GraduatedFit

open Matrix

namespace Symmetric

variable {K : Type} [Scalar K]

theorem length_ofLower (A : Mat K) : (ofLower A).length = A.height := by simp [ofLower]

omit [Scalar K] in
theorem triangular_of_lengths {S : Symmetric K}
    (lengths : ∀ j, ∀ inside : j < S.length, S[j].below.length = S.length - (j + 1)) : S.Triangular := by
  induction S with
  | nil => trivial
  | cons column S ih =>
      refine ⟨by simpa using lengths 0 (Nat.succ_pos _), ih fun j inside => ?_⟩
      simpa using lengths (j + 1) (Nat.succ_lt_succ inside)

theorem ofLower_triangular (A : Mat K) : (ofLower A).Triangular :=
  triangular_of_lengths fun j inside => by simp [ofLower]

/-- What stands above the diagonal is not read. -/
theorem ofLower_congr {A B : Mat K} {n : Nat} (left : A.height = n) (right : B.height = n)
    (lower : ∀ i < n, ∀ j ≤ i, A.get i j = B.get i j) : ofLower A = ofLower B := by
  rw [ofLower, ofLower, left, right]
  refine List.map_congr_left fun j member => ?_
  have inside := List.mem_range.mp member
  rw [lower j inside j le_rfl]
  refine congrArg _ (List.map_congr_left fun i below => congrArg some (lower i ?_ j ?_))
  · obtain ⟨k, _, rfl⟩ := List.mem_range'.mp below
    omega
  · obtain ⟨k, _, rfl⟩ := List.mem_range'.mp below
    omega

theorem get_ofLower (A : Mat K) {i j : Nat} (row : i < A.height) (column : j < A.height) :
    (ofLower A).get i j = A.get (max i j) (min i j) := by
  have first : min i j < A.height := min_lt_of_left_lt row
  have last : max i j < A.height := max_lt row column
  rw [get, stored_table]
  obtain ⟨k, apart⟩ := Nat.exists_eq_add_of_le (min_le_max (a := i) (b := j))
  rw [apart, Nat.add_sub_cancel_left]
  cases k with
  | zero => simp [ofLower, first]
  | succ k =>
      have below : k < A.height - (min i j + 1) := by omega
      simp [ofLower, first, below, Nat.add_assoc, Nat.add_comm 1 k]

end Symmetric

namespace Cholesky

open GraduatedFit.Symmetric

/-- The entries of a factor, by its columns. -/
noncomputable def entry : Cholesky ℝ → Nat → Nat → ℝ
  | [], _, _ => 0
  | column :: _, 0, 0 => column.pivot
  | column :: _, i + 1, 0 => coefficient column.below i
  | _ :: _, 0, _ + 1 => 0
  | _ :: L, i + 1, j + 1 => entry L i j

theorem entry_upper (L : Cholesky ℝ) {i j : Nat} (upper : i < j) : L.entry i j = 0 := by
  induction L generalizing i j with
  | nil => rfl
  | cons column L ih =>
      obtain ⟨j, rfl⟩ := Nat.exists_eq_add_one.mpr (Nat.zero_lt_of_lt upper)
      cases i with
      | zero => rfl
      | succ i => exact ih (Nat.lt_of_succ_lt_succ upper)

theorem get_toMat (L : Cholesky ℝ) {i j : Nat} (row : i < L.length) (column : j < L.length) :
    L.toMat.get i j = L.entry i j := by
  rw [toMat, Mat.get_ofFn _ row column]
  clear row
  induction L generalizing i j with
  | nil => cases column
  | cons first L ih =>
      cases j with
      | zero =>
          cases i with
          | zero => simp [entry]
          | succ i =>
              have place : (first.below.getD i none).getD 0 = coefficient first.below i := by
                rw [coefficient, List.getD_eq_getElem?_getD]
                cases first.below[i]? <;> rfl
              simpa [entry] using place
      | succ j =>
          cases i with
          | zero => cases found : L[j]? <;> simp [found, entry]
          | succ i => simpa [entry] using ih (Nat.lt_of_succ_lt_succ column)

theorem cholesky_nil {L : Cholesky ℝ} (factored : cholesky? ([] : Symmetric ℝ) = some L) : L = [] := by
  rw [cholesky?] at factored
  exact (Option.some.inj factored).symm

/-- Every pivot is positive. -/
theorem entry_diagonal {S : Symmetric ℝ} {L : Cholesky ℝ} (factored : S.cholesky? = some L) {i : Nat}
    (inside : i < L.length) : 0 < L.entry i i := by
  induction i generalizing S L with
  | zero =>
      cases S with
      | nil =>
          obtain rfl := cholesky_nil factored
          cases inside
      | cons column S =>
          obtain ⟨positive, rest, -, rfl⟩ := cholesky_cons factored
          exact Real.sqrt_pos.mpr positive
  | succ i ih =>
      cases S with
      | nil =>
          obtain rfl := cholesky_nil factored
          cases inside
      | cons column S =>
          obtain ⟨-, rest, found, rfl⟩ := cholesky_cons factored
          exact ih found (Nat.lt_of_succ_lt_succ inside)

/-- The first row of a factor has its pivot only. -/
theorem sum_first_row (column : FactorColumn ℝ) (L : Cholesky ℝ) (i n : Nat) :
    ∑ k ∈ Finset.range (n + 1), entry (column :: L) 0 k * entry (column :: L) i k =
      column.pivot * entry (column :: L) i 0 := by
  rw [Finset.sum_range_succ', Finset.sum_eq_zero fun k _ => zero_mul _, zero_add]
  rfl

/-- An entry of the matrix is the product of two rows of its factor. -/
theorem entry_product {S : Symmetric ℝ} {L : Cholesky ℝ} (triangular : S.Triangular) (factored : S.cholesky? = some L) :
    L.length = S.length ∧ ∀ i < S.length, ∀ j < S.length,
      ∑ k ∈ Finset.range S.length, L.entry i k * L.entry j k = S.get i j := by
  -- on the number of columns: the first one is taken off and a smaller matrix is left
  induction size : S.length generalizing S L with
  | zero =>
      obtain rfl := List.length_eq_zero_iff.mp size
      obtain rfl := cholesky_nil factored
      exact ⟨rfl, fun i inside => by cases inside⟩
  | succ n ih =>
      obtain ⟨column, S, rfl⟩ := List.exists_cons_of_length_eq_add_one size
      obtain ⟨first, later⟩ := triangular
      obtain rfl : S.length = n := by simpa using size
      obtain ⟨positive, rest, found, rfl⟩ := cholesky_cons factored
      set d := column.diagonal.getD 0 with diagonal
      set below := column.below.map (·.map (· / √d)) with quotients
      have square : √d * √d = d := Real.mul_self_sqrt positive.le
      have root : √d ≠ 0 := (Real.sqrt_pos.mpr positive).ne'
      have sizes : below.length = S.length := by simp [quotients, first]
      have scaled (j : Nat) : √d * coefficient below j = coefficient column.below j := by
        rw [quotients, coefficient_quotient, mul_div_cancel₀ _ root]
      obtain ⟨length, product⟩ := ih (downdate_triangular sizes later) found (length_downdate below S)
      refine ⟨by rw [List.length_cons, length], fun i row j column => ?_⟩
      cases i with
      | zero =>
          rw [sum_first_row]
          cases j with
          | zero => exact square.trans (get_zero_zero _ _).symm
          | succ j => exact (scaled j).trans (get_zero_succ _ _ j).symm
      | succ i =>
          cases j with
          | zero =>
              rw [Finset.sum_congr rfl fun k _ => mul_comm _ _, sum_first_row]
              exact (scaled i).trans (get_succ_zero _ _ i).symm
          | succ j =>
              have reduced := product i (by omega) j (by omega)
              rw [get_downdate sizes later] at reduced
              rw [Finset.sum_range_succ', get_succ_succ]
              exact (congrArg (· + _) reduced).trans (sub_add_cancel _ _)

end Cholesky

/-- A triangular matrix with a positive diagonal whose product with its transpose is a given matrix. -/
structure LowerFactor {n : Nat} (S M : Matrix (Fin n) (Fin n) ℝ) : Prop where
  lower : M.IsLowerTriangular
  positive : ∀ i, 0 < M i i
  product : M * Mᵀ = S

namespace LowerFactor

variable {n : Nat} {S L M : Matrix (Fin n) (Fin n) ℝ}

theorem det_ne_zero (factor : LowerFactor S M) : M.det ≠ 0 := by
  rw [det_of_isLowerTriangular M factor.lower]
  exact Finset.prod_ne_zero_iff.mpr fun i _ => (factor.positive i).ne'

theorem det_matrix (factor : LowerFactor S M) : S.det ≠ 0 := by
  rw [← factor.product, det_mul, det_transpose]
  exact mul_ne_zero factor.det_ne_zero factor.det_ne_zero

theorem posDef (factor : LowerFactor S M) : S.PosDef := by
  have unit : IsUnit M := (isUnit_iff_isUnit_det M).mpr factor.det_ne_zero.isUnit
  rw [← factor.product, ← conjTranspose_eq_transpose_of_trivial]
  exact PosDef.mul_conjTranspose_self M (vecMul_injective_iff_isUnit.mpr unit)

/-- The diagonal of a product of triangular matrices. -/
theorem diag_mul_of_lower (left : L.IsLowerTriangular) (right : M.IsLowerTriangular) (i : Fin n) :
    (L * M) i i = L i i * M i i := by
  rw [mul_apply]
  refine Finset.sum_eq_single i (fun k _ other => ?_) (by simp)
  rcases lt_or_gt_of_ne other with before | after
  · rw [right before, mul_zero]
  · rw [left after, zero_mul]

theorem inverse_lower (factor : LowerFactor S M) : M⁻¹.IsLowerTriangular := by
  have : Invertible M := M.invertibleOfIsUnitDet factor.det_ne_zero.isUnit
  exact blockTriangular_inv_of_blockTriangular factor.lower

/-- The inverse of the factor takes the matrix to the identity, and no other matrix. -/
theorem whitens_iff (factor : LowerFactor S M) {T : Matrix (Fin n) (Fin n) ℝ} : M⁻¹ * T * (M⁻¹)ᵀ = 1 ↔ T = S := by
  have unit : IsUnit M.det := factor.det_ne_zero.isUnit
  constructor
  · intro whitened
    calc
      T = M * M⁻¹ * T * (M * M⁻¹)ᵀ := by rw [mul_nonsing_inv M unit, transpose_one, one_mul, mul_one]
      _ = M * (M⁻¹ * T * (M⁻¹)ᵀ) * Mᵀ := by simp only [transpose_mul, Matrix.mul_assoc]
      _ = S := by rw [whitened, mul_one, factor.product]
  · rintro rfl
    calc
      M⁻¹ * T * (M⁻¹)ᵀ = M⁻¹ * M * (M⁻¹ * M)ᵀ := by
        rw [← factor.product]
        simp only [transpose_mul, Matrix.mul_assoc]
      _ = 1 := by rw [nonsing_inv_mul M unit, transpose_one, one_mul]

theorem whitens (factor : LowerFactor S M) : M⁻¹ * S * (M⁻¹)ᵀ = 1 := factor.whitens_iff.mpr rfl

theorem inverse_product (factor : LowerFactor S M) : (M⁻¹)ᵀ * M⁻¹ = S⁻¹ := by
  rw [← factor.product, Matrix.mul_inv_rev, transpose_nonsing_inv]

/-- The only factor of the identity is the identity. -/
theorem eq_one (factor : LowerFactor 1 M) : M = 1 := by
  -- the inverse is the transpose, so that nothing stands below the diagonal either
  have inverse : M⁻¹ = Mᵀ := inv_eq_right_inv factor.product
  have upper : Mᵀ.IsLowerTriangular := inverse ▸ factor.inverse_lower
  have apart {i j : Fin n} (differ : i ≠ j) : M i j = 0 := by
    rcases lt_or_gt_of_ne differ with above | below
    · exact factor.lower above
    · exact upper below
  ext i j
  rcases eq_or_ne i j with rfl | differ
  · have square : M i i * M i i = 1 := by
      have diagonal := diag_mul_of_lower factor.lower upper i
      rwa [factor.product, one_apply_eq, transpose_apply, eq_comm] at diagonal
    rw [one_apply_eq]
    exact (mul_self_eq_one_iff.mp square).resolve_right (by linarith [factor.positive i])
  · rw [apart differ, one_apply_ne differ]

/-- A matrix has one factor. -/
theorem unique (left : LowerFactor S L) (right : LowerFactor S M) : L = M := by
  have unit : IsUnit M.det := right.det_ne_zero.isUnit
  have quotient : LowerFactor 1 (M⁻¹ * L) := by
    refine ⟨right.inverse_lower.mul left.lower, fun i => ?_, ?_⟩
    · have diagonal := diag_mul_of_lower right.lower (right.inverse_lower.mul left.lower) i
      rw [mul_nonsing_inv_cancel_left M L unit] at diagonal
      exact (mul_pos_iff_of_pos_left (right.positive i)).mp (diagonal ▸ left.positive i)
    · calc
        M⁻¹ * L * (M⁻¹ * L)ᵀ = M⁻¹ * (L * Lᵀ) * (M⁻¹)ᵀ := by simp only [transpose_mul, Matrix.mul_assoc]
        _ = 1 := by rw [left.product, right.whitens]
  calc
    L = M * (M⁻¹ * L) := (mul_nonsing_inv_cancel_left M L unit).symm
    _ = M := by rw [quotient.eq_one, mul_one]

end LowerFactor

/-- The symmetric matrix that the lower triangle of a matrix describes. -/
noncomputable def Mat.mirrored (n : Nat) (A : Mat ℝ) : Matrix (Fin n) (Fin n) ℝ := .of fun i j => A.get (max i j) (min i j)

theorem Mat.mirrored_isSymm (n : Nat) (A : Mat ℝ) : (A.mirrored n).IsSymm := by
  ext i j
  simp only [transpose_apply, mirrored, of_apply, Nat.max_comm, Nat.min_comm]

/-- A symmetric matrix is described by its lower triangle. -/
theorem Mat.mirrored_eq_iff {n : Nat} {A : Mat ℝ} : A.mirrored n = A.toMatrix n n ↔ (A.toMatrix n n).IsSymm := by
  constructor
  · intro same
    rw [← same]
    exact A.mirrored_isSymm n
  · intro symmetric
    ext i j
    rcases le_total i j with above | below
    · rw [mirrored, of_apply, max_eq_right (Fin.le_def.mp above), min_eq_left (Fin.le_def.mp above)]
      exact symmetric.apply i j
    · rw [mirrored, of_apply, max_eq_left (Fin.le_def.mp below), min_eq_right (Fin.le_def.mp below)]
      rfl

namespace Symmetric

variable {A : Mat ℝ} {n : Nat}

theorem form_components (S : Symmetric ℝ) (x : Nat → ℝ) :
    S.form x = (fun i : Fin S.length => x i) ⬝ᵥ ((Matrix.of fun i j : Fin S.length => S.get i j) *ᵥ fun i => x i) := by
  simp only [form, Finset.sum_range]
  rfl

/-- A matrix is positive definite if it is so as a matrix over a finite index type. -/
theorem positiveDefinite_iff_posDef {S : Symmetric ℝ} {n : Nat} (length : S.length = n) :
    S.PositiveDefinite ↔ (Matrix.of fun i j : Fin n => S.get i j).PosDef := by
  subst length
  constructor
  · intro definite
    refine PosDef.of_dotProduct_mulVec_pos (by ext i j; exact S.get_comm j i) fun x nonzero => ?_
    obtain ⟨i, here⟩ := Function.ne_iff.mp nonzero
    let extended (k : Nat) : ℝ := if inside : k < S.length then x ⟨k, inside⟩ else 0
    have same : (fun k : Fin S.length => extended k) = x := by
      funext k
      simp [extended]
    have positive := definite extended ⟨i, i.isLt, by simpa [extended] using here⟩
    rw [form_components, same] at positive
    simpa using positive
  · rintro positive x ⟨i, inside, nonzero⟩
    rw [form_components]
    exact positive.dotProduct_mulVec_pos fun zero => nonzero (congrFun zero ⟨i, inside⟩)

theorem positiveDefinite_ofLower (height : A.height = n) (positive : (A.mirrored n).PosDef) :
    (ofLower A).PositiveDefinite := by
  have entries : (Matrix.of fun i j : Fin n => (ofLower A).get i j) = A.mirrored n := by
    ext i j
    exact get_ofLower A (i.isLt.trans_eq height.symm) (j.isLt.trans_eq height.symm)
  rwa [positiveDefinite_iff_posDef ((length_ofLower A).trans height), entries]

/-- The lower triangle of a matrix is factored exactly where it describes a positive definite matrix. -/
theorem cholesky_ofLower (height : A.height = n) :
    ((A.mirrored n).PosDef ∧ ∃ L, (ofLower A).cholesky? = some L ∧ L.length = n ∧
        LowerFactor (A.mirrored n) (L.toMat.toMatrix n n)) ∨
      (¬(A.mirrored n).PosDef ∧ (ofLower A).cholesky? = none) := by
  have size : (ofLower A).length = n := (length_ofLower A).trans height
  have triangular := ofLower_triangular A
  rcases found : (ofLower A).cholesky? with _ | L
  · refine .inr ⟨fun positive => ?_, rfl⟩
    obtain ⟨L, factored⟩ := (cholesky_exists_iff triangular).mpr (positiveDefinite_ofLower height positive)
    rw [found] at factored
    cases factored
  · obtain ⟨length, product⟩ := Cholesky.entry_product triangular found
    have entry (i j : Fin n) : L.toMat.toMatrix n n i j = L.entry i j :=
      L.get_toMat (i.isLt.trans_eq (length.trans size).symm) (j.isLt.trans_eq (length.trans size).symm)
    have factor : LowerFactor (A.mirrored n) (L.toMat.toMatrix n n) := by
      refine ⟨fun i j upper => ?_, fun i => ?_, ?_⟩
      · rw [entry]
        exact L.entry_upper upper
      · rw [entry]
        exact Cholesky.entry_diagonal found (i.isLt.trans_eq (length.trans size).symm)
      · ext i j
        have whole := product i (i.isLt.trans_eq size.symm) j (j.isLt.trans_eq size.symm)
        rw [size, Finset.sum_range, get_ofLower A (i.isLt.trans_eq height.symm) (j.isLt.trans_eq height.symm)] at whole
        simpa only [mul_apply, transpose_apply, entry, Mat.mirrored, of_apply] using whole
    exact .inl ⟨factor.posDef, L, rfl, length.trans size, factor⟩

end Symmetric

end GraduatedFit
