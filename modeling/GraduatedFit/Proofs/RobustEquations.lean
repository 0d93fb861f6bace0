import GraduatedFit.Proofs.DenseMatrices
import GraduatedFit.Proofs.Extended

/-! The normal equations of a corrected block: its gradient is the one of the robust cost, and where the loss is convex its
Gram matrix has the part of the curvature along the gradient as well. -/

namespace GraduatedFit

open Matrix

namespace Correction

variable {loss : Loss ℝ} {s : ℝ}

theorem ofLoss_sqrtSlope (loss : Loss ℝ) (s : ℝ) : (ofLoss loss s).sqrtSlope = √(loss.jet s).slope := by
  by_cases plain : s = 0 ∨ (loss.jet s).curvature ≤ 0
  · rw [ofLoss_plain plain]
  · rw [ofLoss_convex plain]

/-- What the correction of the Jacobian adds to the Gram matrix along the gradient. -/
theorem ofLoss_curvature (nonneg : 0 ≤ s) (positive : 0 < (loss.jet s).slope)
    (convex : ¬(s = 0 ∨ (loss.jet s).curvature ≤ 0)) :
    let c := ofLoss loss s
    c.sqrtSlope ^ 2 * (c.alphaSqNorm ^ 2 * s - 2 * c.alphaSqNorm) = 2 * (loss.jet s).curvature := by
  have stretched := (stretch_pos nonneg positive convex).le
  have nonzero : s ≠ 0 := (not_or.mp convex).1
  rw [ofLoss_convex convex]
  dsimp only
  set root := √(1 + 2 * s * (loss.jet s).curvature / (loss.jet s).slope) with rooted
  have square : root ^ 2 = 1 + 2 * s * (loss.jet s).curvature / (loss.jet s).slope := Real.sq_sqrt stretched
  calc
    √(loss.jet s).slope ^ 2 * (((1 - root) / s) ^ 2 * s - 2 * ((1 - root) / s)) =
        (loss.jet s).slope * ((root ^ 2 - 1) / s) := by
      rw [Real.sq_sqrt positive.le]
      field_simp
      ring
    _ = 2 * (loss.jet s).curvature := by
      rw [square]
      field_simp
      ring

section Definedness

open Extended

/-- No root of a negative number is taken and nothing is divided by zero: with infinities and undefined values at hand the
correction is the same and consists of numbers. -/
theorem ofLoss_numbers (nonneg : 0 ≤ s) (positive : 0 < (loss.jet s).slope) {extended : Loss Extended}
    (jet : extended.jet (number s) =
      ⟨number (loss.jet s).value, number (loss.jet s).slope, number (loss.jet s).curvature⟩) :
    let c := ofLoss loss s
    ofLoss extended (number s) = ⟨number c.sqrtSlope, number c.residualScaling, number c.alphaSqNorm⟩ := by
  unfold ofLoss
  dsimp only
  rw [jet]
  simp only [number_zero, number_one, number_ofScientific, number_eq, number_le, number_mul,
    number_div _ positive.ne', number_add, number_sqrt positive.le, Scalar.two_real, Scalar.eq_real, Scalar.le_real,
    Scalar.sqrt_real, Bool.or_eq_true, decide_eq_true_eq]
  by_cases plain : s = 0 ∨ (loss.jet s).curvature ≤ 0
  · rw [if_pos plain, if_pos plain]
  · have stretched := stretch_pos nonneg positive plain
    have divisor : 1 - (1 - √(1 + 2 * s * (loss.jet s).curvature / (loss.jet s).slope)) ≠ 0 := by
      rw [sub_sub_cancel]
      exact (Real.sqrt_pos.mpr stretched).ne'
    rw [if_neg plain, if_neg plain, number_sqrt stretched.le, number_sub, number_sub, number_div _ divisor,
      number_div _ (not_or.mp plain).1]

end Definedness

section Systems

variable {c : Correction ℝ} {w : Vec ℝ} {B C : Mat ℝ} {m n : Nat}

/-- The corrected Jacobian is the Jacobian less a product of the residual and the gradient. -/
theorem jacobian_matrix (length : w.length = m) (height : B.height = m) (width : B.width = n)
    (found : c.jacobian? w B = some C) :
    C.toMatrix m n = c.sqrtSlope • (B.toMatrix m n - c.alphaSqNorm •
      vecMulVec (w.components m) ((B.toMatrix m n)ᵀ *ᵥ w.components m)) := by
  obtain ⟨rows, columns⟩ := jacobian_shape (length.trans height.symm) found
  -- both have the same image of every direction
  refine Matrix.ext_iff_mulVec.mpr fun x => ?_
  obtain ⟨d, wide, rfl⟩ := Vec.components_surjective x
  funext i
  have image : (B.apply d).length = m := (Mat.length_apply B d).trans height
  have entry := jacobian_apply (length.trans height.symm) (wide.trans width.symm) found (i.isLt.trans_eq height.symm)
  have along : w.components m ⬝ᵥ (B.toMatrix m n *ᵥ d.components n) =
      (B.toMatrix m n)ᵀ *ᵥ w.components m ⬝ᵥ d.components n := by
    rw [dotProduct_mulVec, mulVec_transpose]
  rw [← Mat.components_apply (rows.trans height) (columns.trans width) wide, Vec.components, entry,
    Vec.dot_components length image, Mat.components_apply height width wide, along, smul_mulVec, sub_mulVec, smul_mulVec,
    vecMulVec_mulVec, ← Mat.components_apply height width wide]
  simp only [Pi.smul_apply, Pi.sub_apply, smul_eq_mul, Vec.components, op_smul_eq_smul]
  ring

/-- The normal matrix of a corrected block. -/
theorem jacobian_gram (length : w.length = m) (height : B.height = m) (width : B.width = n)
    (found : c.jacobian? w B = some C) :
    let A := B.toMatrix m n
    let g := Aᵀ *ᵥ w.components m
    (C.toMatrix m n)ᵀ * C.toMatrix m n = c.sqrtSlope ^ 2 • (Aᵀ * A) +
      (c.sqrtSlope ^ 2 * (c.alphaSqNorm ^ 2 * Vec.normSq w - 2 * c.alphaSqNorm)) • vecMulVec g g := by
  intro A g
  have left : Aᵀ * vecMulVec (w.components m) g = vecMulVec g g := mul_vecMulVec _ _ _
  have right : vecMulVec g (w.components m) * A = vecMulVec g g := by rw [vecMulVec_mul, ← mulVec_transpose]
  have square : vecMulVec g (w.components m) * vecMulVec (w.components m) g = Vec.normSq w • vecMulVec g g := by
    rw [vecMulVec_mul_vecMulVec, ← Vec.normSq_components length, vecMulVec_smul]
  have corrected : C.toMatrix m n = c.sqrtSlope • (A - c.alphaSqNorm • vecMulVec (w.components m) g) :=
    jacobian_matrix length height width found
  rw [corrected, transpose_smul, transpose_sub, transpose_smul, transpose_vecMulVec]
  simp only [Matrix.smul_mul, Matrix.mul_smul, Matrix.sub_mul, Matrix.mul_sub, left, right, square]
  module

/-- The corrected residual meets the corrected Jacobian as the residual meets the Jacobian under the loss. -/
theorem jacobian_gradient (positive : 0 < (loss.jet (Vec.normSq w)).slope) (length : w.length = m) (height : B.height = m)
    (width : B.width = n) (found : (ofLoss loss (Vec.normSq w)).jacobian? w B = some C) :
    (C.toMatrix m n)ᵀ *ᵥ ((ofLoss loss (Vec.normSq w)).residual w).components m =
      (loss.jet (Vec.normSq w)).slope • ((B.toMatrix m n)ᵀ *ᵥ w.components m) := by
  obtain ⟨rows, columns⟩ := jacobian_shape (length.trans height.symm) found
  refine dotProduct_eq _ _ fun x => ?_
  obtain ⟨d, wide, rfl⟩ := Vec.components_surjective x
  have residual : ((ofLoss loss (Vec.normSq w)).residual w).length = m := (List.length_map _).trans length
  have slope := gradient_eq positive (length.trans height.symm) (wide.trans width.symm) found
  rw [Vec.dot_components residual ((Mat.length_apply C d).trans (rows.trans height)),
    Vec.dot_components length ((Mat.length_apply B d).trans height),
    Mat.components_apply (rows.trans height) (columns.trans width) wide, Mat.components_apply height width wide,
    dotProduct_mulVec, dotProduct_mulVec, ← mulVec_transpose, ← mulVec_transpose] at slope
  rw [slope, smul_dotProduct, smul_eq_mul]

/-- The corrected block has the gradient of the block under the loss. Its normal matrix is that of the block times the slope,
and where the loss is convex twice the curvature along the gradient of the block is added. The correction is well defined:
without a root of a negative number and without a division by zero. -/
theorem corrected_equations (positive : 0 < (loss.jet (Vec.normSq w)).slope) (length : w.length = m)
    (height : B.height = m) (width : B.width = n) :
    let s := Vec.normSq w
    let jet := loss.jet s
    let c := ofLoss loss s
    let J := B.toMatrix m n
    let g := Jᵀ *ᵥ w.components m
    (∃ C, c.jacobian? w B = some C ∧ C.height = m ∧ C.width = n ∧
      (C.toMatrix m n)ᵀ *ᵥ (c.residual w).components m = jet.slope • g ∧
      (s = 0 ∨ jet.curvature ≤ 0 → (C.toMatrix m n)ᵀ * C.toMatrix m n = jet.slope • (Jᵀ * J)) ∧
      (¬(s = 0 ∨ jet.curvature ≤ 0) →
        (C.toMatrix m n)ᵀ * C.toMatrix m n = jet.slope • (Jᵀ * J) + (2 * jet.curvature) • vecMulVec g g)) ∧
    ∀ extended : Loss Extended,
      extended.jet (.number s) = ⟨.number jet.value, .number jet.slope, .number jet.curvature⟩ →
      ofLoss extended (.number s) = ⟨.number c.sqrtSlope, .number c.residualScaling, .number c.alphaSqNorm⟩ := by
  intro s jet c J g
  have nonneg := Vec.normSq_nonneg w
  obtain ⟨C, found⟩ := c.jacobian_exists (length.trans height.symm)
  obtain ⟨rows, columns⟩ := jacobian_shape (length.trans height.symm) found
  have gram := jacobian_gram length height width found
  have slope : c.sqrtSlope ^ 2 = jet.slope := by rw [ofLoss_sqrtSlope, Real.sq_sqrt positive.le]
  refine ⟨⟨C, found, rows.trans height, columns.trans width, jacobian_gradient positive length height width found,
    fun plain => ?_, fun convex => ?_⟩, fun extended => ofLoss_numbers nonneg positive⟩
  · have unbent : c.alphaSqNorm = 0 := congrArg alphaSqNorm (ofLoss_plain plain)
    rw [gram, slope, unbent]
    simp [J]
  · have bent : c.sqrtSlope ^ 2 * (c.alphaSqNorm ^ 2 * s - 2 * c.alphaSqNorm) = 2 * jet.curvature :=
      ofLoss_curvature nonneg positive convex
    rw [gram, bent, slope]

/-- A loss that grows with the square, at a residual of squared norm five: its slope is eleven there and its curvature two. -/
theorem corrected_convex :
    let loss : Loss ℝ := .quadratic 1 1
    let w : Vec ℝ := [1, 2]
    (0 < (loss.jet (Vec.normSq w)).slope ∧ w.length = 2 ∧ (Mat.identity 2 : Mat ℝ).height = 2 ∧
      (Mat.identity 2 : Mat ℝ).width = 2) ∧
    ∃ C, (ofLoss loss (Vec.normSq w)).jacobian? w (Mat.identity 2) = some C ∧
      (C.toMatrix 2 2)ᵀ * C.toMatrix 2 2 = !![15, 8; 8, 27] := by
  intro loss w
  have norm : Vec.normSq w = 5 := by
    rw [Vec.normSq_real]
    norm_num [w]
  have slope : (loss.jet (Vec.normSq w)).slope = 11 := by
    rw [norm]
    norm_num [loss, Loss.quadratic]
  have curvature : (loss.jet (Vec.normSq w)).curvature = 2 := by norm_num [loss, Loss.quadratic]
  have positive : 0 < (loss.jet (Vec.normSq w)).slope := slope.symm ▸ by norm_num
  have components : w.components 2 = ![1, 2] := by
    ext i
    fin_cases i <;> rfl
  obtain ⟨⟨C, found, -, -, -, -, convex⟩, -⟩ :=
    corrected_equations (m := 2) (n := 2) (B := Mat.identity 2) positive rfl rfl rfl
  have bends : ¬(Vec.normSq w = 0 ∨ (loss.jet (Vec.normSq w)).curvature ≤ 0) := by
    rw [curvature, norm]
    norm_num
  refine ⟨⟨positive, rfl, rfl, rfl⟩, C, found, ?_⟩
  rw [convex bends, slope, curvature, components, Mat.toMatrix_identity]
  ext i j
  fin_cases i <;> fin_cases j <;> norm_num [vecMulVec]

end Systems

end Correction

end GraduatedFit
