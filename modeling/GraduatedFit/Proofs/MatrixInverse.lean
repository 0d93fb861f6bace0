import GraduatedFit.Proofs.PivotedElimination

/-! The inverse of a dense matrix, by whichever method it is looked for: it is found exactly where the determinant is not
zero, and then it is the inverse. -/

namespace GraduatedFit

open Matrix

namespace Mat

variable {A B : Mat ℝ} {n : Nat}

/-- What a search for the inverse of a matrix of `n` rows and columns answers: nothing exactly where there is none. -/
inductive Inverts (n : Nat) (A : Mat ℝ) : Option (Mat ℝ) → Prop
  | singular (det : (A.toMatrix n n).det = 0) : Inverts n A none
  | regular {B : Mat ℝ} (det : (A.toMatrix n n).det ≠ 0) (height : B.height = n) (width : B.width = n)
      (inverse : B.toMatrix n n = (A.toMatrix n n)⁻¹) : Inverts n A (some B)

section Cofactors

/-- The adjugate divided by the determinant. -/
theorem inverts_adjugate {d : ℝ} (det : d = (A.toMatrix n n).det) (height : B.height = n) (width : B.width = n)
    (entries : ∀ i j, B.toMatrix n n i j = (A.toMatrix n n).adjugate i j / d) :
    Inverts n A (if Scalar.eq d 0 then none else some B) := by
  by_cases zero : d = 0
  · rw [if_pos (by simpa using zero)]
    exact .singular (det.symm.trans zero)
  · rw [if_neg (by simpa using zero)]
    refine .regular (det ▸ zero) height width ?_
    ext i j
    rw [entries, inv_def, Ring.inverse_eq_inv', ← det, Matrix.smul_apply, smul_eq_mul, div_eq_inv_mul]

theorem inverse1_inverts (A : Mat ℝ) : Inverts 1 A A.inverse1? := by
  refine inverts_adjugate ?_ rfl rfl fun i j => ?_
  · rw [det_fin_one]
    rfl
  · rw [adjugate_subsingleton, Subsingleton.elim i 0, Subsingleton.elim j 0]
    rfl

theorem inverse2_inverts (A : Mat ℝ) : Inverts 2 A A.inverse2? := by
  refine inverts_adjugate ?_ rfl rfl fun i j => ?_
  · rw [det_fin_two]
    simp only [toMatrix_apply, Fin.coe_ofNat_eq_mod]
    ring
  · rw [adjugate_fin_two]
    fin_cases i <;> fin_cases j <;> rfl

theorem inverse3_inverts (A : Mat ℝ) : Inverts 3 A A.inverse3? := by
  refine inverts_adjugate ?_ rfl rfl fun i j => ?_
  · rw [det_fin_three]
    simp only [toMatrix_apply, minor, Fin.coe_ofNat_eq_mod]
    ring
  · rw [adjugate_fin_three]
    fin_cases i <;> fin_cases j <;> simp [toMatrix_apply, get, minor] <;> ring

theorem adjugate_eq_cofactor4 (A : Mat ℝ) (i j : Fin 4) : (A.toMatrix 4 4).adjugate i j = A.cofactor4 j i := by
  rw [adjugate_fin_succ_eq_det_submatrix, det_fin_three]
  fin_cases i <;> fin_cases j <;>
    simp [toMatrix_apply, cofactor4, alternate, List.range_succ, Fin.succAbove, Fin.lt_def] <;> ring

/-- The determinant by its expansion along the first column. -/
theorem det_eq_cofactor4 (A : Mat ℝ) : (A.toMatrix 4 4).det = A.get 0 0 * A.cofactor4 0 0 +
    A.get 1 0 * A.cofactor4 1 0 + A.get 2 0 * A.cofactor4 2 0 + A.get 3 0 * A.cofactor4 3 0 := by
  have expansion := congrFun (congrFun (adjugate_mul (A.toMatrix 4 4)) 0) 0
  simp only [mul_apply, Fin.sum_univ_four, adjugate_eq_cofactor4, toMatrix_apply, Matrix.smul_apply, one_apply_eq, smul_eq_mul,
    mul_one] at expansion
  rw [← expansion]
  simp only [Fin.coe_ofNat_eq_mod]
  ring

theorem inverse4_inverts (A : Mat ℝ) : Inverts 4 A A.inverse4? := by
  refine inverts_adjugate (det_eq_cofactor4 A).symm (by simp [ofFn, height]) rfl fun i j => ?_
  rw [toMatrix_ofFn, adjugate_eq_cofactor4, of_apply, mul_one_div]

end Cofactors

section Elimination

/-- One equation for each row, with a row of the identity for its constants. -/
noncomputable def unitEquations (n : Nat) (A : Mat ℝ) : List (Equation ℝ) :=
  List.zipWith Equation.mk A.rows (identity n).rows

theorem length_unitEquations (height : A.height = n) : (A.unitEquations n).length = n := by
  rw [unitEquations, List.length_zipWith]
  exact (congrArg₂ min height (height_identity n)).trans (min_self n)

theorem getElem_unitEquations (height : A.height = n) {i : Nat} (inside : i < (A.unitEquations n).length) :
    (A.unitEquations n)[i] = ⟨A.rows.getD i [], (identity n).rows.getD i []⟩ := by
  have bound := inside.trans_eq (length_unitEquations height)
  rw [List.getD_eq_getElem _ _ (bound.trans_eq height.symm),
    List.getD_eq_getElem _ _ (bound.trans_eq (height_identity n).symm)]
  exact List.getElem_zipWith

theorem mem_unitEquations (height : A.height = n) {i : Nat} (inside : i < n) :
    ⟨A.rows.getD i [], (identity n).rows.getD i []⟩ ∈ A.unitEquations n := by
  have bound := inside.trans_eq (length_unitEquations height).symm
  exact getElem_unitEquations height bound ▸ List.getElem_mem bound

theorem unitEquations_fit (height : A.height = n) (width : A.width = n) : ∀ e ∈ A.unitEquations n, e.Fits n n := by
  intro e member
  obtain ⟨i, inside, rfl⟩ := List.getElem_of_mem member
  have bound := inside.trans_eq (length_unitEquations height)
  rw [getElem_unitEquations height inside]
  exact ⟨(length_row (bound.trans_eq height.symm)).trans width, length_row (bound.trans_eq (height_identity n).symm)⟩

/-- Rows that satisfy the equations are those of the inverse. -/
theorem mul_eq_one_of_holds (height : A.height = n) (width : A.width = n) (tall : B.height = n) (wide : B.width = n)
    (holds : ∀ e ∈ A.unitEquations n, Equation.Holds B.rows e) : A.toMatrix n n * B.toMatrix n n = 1 := by
  obtain ⟨C, product, -, -, entries⟩ := mul?_exists (width.trans tall.symm)
  rw [← toMatrix_identity, ← (toMatrix_mul ⟨height, width⟩ ⟨tall, wide⟩ product).2.2]
  ext i c
  rw [toMatrix_apply, entries i (i.isLt.trans_eq height.symm) c (c.isLt.trans_eq wide.symm)]
  exact holds _ (mem_unitEquations height i.isLt) c

/-- Equations whose coefficients are dependent are those of a singular matrix. -/
theorem det_eq_zero_of_dependent (height : A.height = n) (width : A.width = n) {x : Vec ℝ} (length : x.length = n)
    (nonzero : ∃ i, x.getD i 0 ≠ 0) (vanishes : ∀ e ∈ A.unitEquations n, Vec.dot e.coefficients x = 0) :
    (A.toMatrix n n).det = 0 := by
  refine exists_mulVec_eq_zero_iff.mp ⟨x.components n, ?_, ?_⟩
  · obtain ⟨i, component⟩ := nonzero
    intro zero
    have inside : i < n := by
      by_contra outside
      exact component (List.getD_eq_default _ _ (length.trans_le (not_lt.mp outside)))
    exact component (congrFun zero ⟨i, inside⟩)
  · rw [← components_apply height width length]
    funext i
    rw [Vec.components, apply_getD]
    exact vanishes _ (mem_unitEquations height i.isLt)

theorem inverseByElimination_inverts (height : A.height = n) (width : A.width = n) :
    Inverts n A A.inverseByElimination? := by
  have found : A.inverseByElimination? = (Equation.solve? n (A.unitEquations n)).bind (ofRows? n) := by
    rw [inverseByElimination?, height]
    rfl
  have answers := Equation.solve_answers (length_unitEquations height) (unitEquations_fit height width)
  rw [found]
  generalize Equation.solve? n (A.unitEquations n) = rows at answers
  cases answers with
  | @solved rows length wide holds =>
      have inverse : A.toMatrix n n * (⟨n, rows, wide⟩ : Mat ℝ).toMatrix n n = 1 :=
        mul_eq_one_of_holds height width length rfl holds
      rw [Option.bind_some, ofRows?, dif_pos wide]
      exact .regular (isUnit_det_of_right_inverse inverse).ne_zero length rfl (inv_eq_right_inv inverse).symm
  | dependent length nonzero vanishes => exact .singular (det_eq_zero_of_dependent height width length nonzero vanishes)

end Elimination

theorem inverse_inverts (height : A.height = n) (width : A.width = n) : Inverts n A A.inverse? := by
  rw [inverse?, height]
  match n with
  | 0 => exact .regular (by simp) height width (Subsingleton.elim _ _)
  | 1 => exact inverse1_inverts A
  | 2 => exact inverse2_inverts A
  | 3 => exact inverse3_inverts A
  | 4 => exact inverse4_inverts A
  | _ + 5 => exact inverseByElimination_inverts height width

theorem inverse_exists (height : A.height = n) (width : A.width = n) (regular : (A.toMatrix n n).det ≠ 0) :
    ∃ B, A.inverse? = some B ∧ B.height = n ∧ B.width = n ∧ B.toMatrix n n = (A.toMatrix n n)⁻¹ := by
  have inverts := inverse_inverts height width
  generalize A.inverse? = found at inverts
  cases inverts with
  | singular det => exact absurd det regular
  | regular det height width inverse => exact ⟨_, rfl, height, width, inverse⟩

end Mat

end GraduatedFit
