import GraduatedFit.Proofs.RobustNoise
import GraduatedFit.Proofs.WhitenedShape

/-! The error of a noise model along a line: its derivative is the product of the whitened and corrected residual with
the image of the direction under the whitened and corrected Jacobian. -/

namespace GraduatedFit

namespace Vec

theorem normSq_eq_dot (a : Vec ℝ) : normSq a = dot a a := by
  rw [normSq_real, dot_real, List.zipWith_self]

theorem dot_zipWith_sub {a b d : Vec ℝ} {n : Nat} (left : a.length = n) (right : b.length = n) (wide : d.length = n)
    (x y z : ℝ) :
    dot (List.zipWith (fun entry t => (entry - x * t * y) * z) a b) d = (dot a d - x * dot b d * y) * z := by
  have both : (List.zipWith (fun entry t => (entry - x * t * y) * z) a b).length = n := by
    rw [List.length_zipWith, left, right, min_self]
  have entry : ∀ j ∈ Finset.range n,
      (List.zipWith (fun entry t => (entry - x * t * y) * z) a b).getD j 0 * d.getD j 0 =
        (a.getD j 0 * d.getD j 0 - x * y * (b.getD j 0 * d.getD j 0)) * z := by
    intro j member
    have bound := Finset.mem_range.mp member
    rw [List.getD_eq_getElem _ _ (both.symm ▸ bound), List.getElem_zipWith,
      List.getD_eq_getElem a _ (left.symm ▸ bound), List.getD_eq_getElem b _ (right.symm ▸ bound)]
    ring
  rw [dot_eq_range _ d n both wide, Finset.sum_congr rfl entry, ← Finset.sum_mul, Finset.sum_sub_distrib,
    ← Finset.mul_sum, ← dot_eq_range a d n left wide, ← dot_eq_range b d n right wide]
  ring

/-- The squared norm of a moving vector. -/
theorem normSq_hasDerivAt {v : ℝ → Vec ℝ} {slope : Vec ℝ} {n : Nat} (length : ∀ t, (v t).length = n)
    (size : slope.length = n) (moves : ∀ i < n, HasDerivAt (fun t => (v t).getD i 0) (slope.getD i 0) 0) :
    HasDerivAt (fun t => normSq (v t)) (2 * dot (v 0) slope) 0 := by
  have squares : (fun t => normSq (v t)) = fun t => ∑ i ∈ Finset.range n, (v t).getD i 0 * (v t).getD i 0 := by
    funext t
    rw [normSq_eq_dot, dot_eq_range _ _ n (length t) (length t)]
  rw [squares, dot_eq_range _ _ n (length 0) size, Finset.mul_sum]
  apply HasDerivAt.fun_sum
  intro i member
  have move := moves i (Finset.mem_range.mp member)
  exact (move.mul move).congr_deriv (by ring)

end Vec

namespace Mat

/-- The image of a vector. -/
noncomputable def apply (A : Mat ℝ) (d : Vec ℝ) : Vec ℝ := A.rows.map (Vec.dot · d)

theorem length_apply (A : Mat ℝ) (d : Vec ℝ) : (A.apply d).length = A.height := List.length_map _

theorem apply_getD (A : Mat ℝ) (d : Vec ℝ) (i : Nat) : (A.apply d).getD i 0 = Vec.dot (A.rows.getD i []) d := by
  have zero : Vec.dot [] d = 0 := by simp [Vec.dot_real]
  rw [apply, ← zero, List.getD_map]

theorem length_row {A : Mat ℝ} {i : Nat} (inside : i < A.height) : (A.rows.getD i []).length = A.width := by
  have bound : i < A.rows.length := inside
  rw [List.getD_eq_getElem _ _ bound]
  exact A.regular _ (List.getElem_mem bound)

/-- The products of a vector with the columns, applied to a direction, are the product with the image of it. -/
theorem dot_columns {A : Mat ℝ} {w d : Vec ℝ} (length : w.length = A.height) (wide : d.length = A.width) :
    Vec.dot (A.columns.map (Vec.dot w)) d = Vec.dot w (A.apply d) := by
  have column : ∀ j ∈ Finset.range A.width, (A.columns.map (Vec.dot w)).getD j 0 * d.getD j 0 =
      ∑ i ∈ Finset.range A.height, w.getD i 0 * (A.get i j * d.getD j 0) := by
    intro j member
    have bound : j < A.width := Finset.mem_range.mp member
    have entry : (A.columns.map (Vec.dot w)).getD j 0 = Vec.dot w (A.column j) := by
      simp [columns, bound]
    rw [entry, Vec.dot_eq_range w (A.column j) A.height length (List.length_map _), Finset.sum_mul]
    apply Finset.sum_congr rfl
    intro i inside
    have row : i < A.rows.length := Finset.mem_range.mp inside
    have value : (A.column j).getD i 0 = A.get i j := by
      simp [Mat.column, get, row]
    rw [value]
    ring
  have row : ∀ i ∈ Finset.range A.height, w.getD i 0 * (A.apply d).getD i 0 =
      ∑ j ∈ Finset.range A.width, w.getD i 0 * (A.get i j * d.getD j 0) := by
    intro i member
    rw [apply_getD, Vec.dot_eq_range _ d A.width (length_row (Finset.mem_range.mp member)) wide, Finset.mul_sum]
    rfl
  rw [Vec.dot_eq_range _ d A.width (by simp [columns]) wide, Finset.sum_congr rfl column, Finset.sum_comm,
    Vec.dot_eq_range w _ A.height length (length_apply A d), Finset.sum_congr rfl row]

end Mat

namespace Correction

/-- What the correction takes from the Jacobian it also takes into account in the residual. -/
theorem ofLoss_balance {loss : Loss ℝ} {s : ℝ} (nonneg : 0 ≤ s) (positive : 0 < (loss.jet s).slope) :
    let c := ofLoss loss s
    c.residualScaling * c.sqrtSlope * (1 - c.alphaSqNorm * s) = (loss.jet s).slope := by
  have root : √(loss.jet s).slope * √(loss.jet s).slope = (loss.jet s).slope := Real.mul_self_sqrt positive.le
  by_cases plain : s = 0 ∨ (loss.jet s).curvature ≤ 0
  · simp [ofLoss_plain plain, root]
  · have stretched := Real.sqrt_pos.mpr (stretch_pos nonneg positive plain)
    rw [ofLoss_convex plain]
    dsimp only
    rw [sub_sub_cancel, div_mul_cancel₀ _ (not_or.mp plain).1, sub_sub_cancel, mul_right_comm,
      div_mul_cancel₀ _ stretched.ne', root]

/-- The image of a direction is corrected along the residual. -/
theorem jacobian_apply {c : Correction ℝ} {w d : Vec ℝ} {B C : Mat ℝ} (length : w.length = B.height)
    (wide : d.length = B.width) (found : c.jacobian? w B = some C) {i : Nat} (inside : i < B.height) :
    (C.apply d).getD i 0 =
      ((B.apply d).getD i 0 - w.getD i 0 * Vec.dot w (B.apply d) * c.alphaSqNorm) * c.sqrtSlope := by
  have row : i < B.rows.length := inside
  have place : i < w.length := length ▸ inside
  rw [jacobian?, if_pos length] at found
  split at found
  · rename_i unscaled
    obtain rfl := Option.some.inj found
    have zero : c.alphaSqNorm = 0 := by simpa using unscaled
    have scaled : ((B.scale c.sqrtSlope).rows.getD i []) = (B.rows.getD i []).map (· * c.sqrtSlope) := by
      simp [Mat.scale, Mat.map, row]
    rw [Mat.apply_getD, scaled, Vec.dot_scaled, Mat.apply_getD, zero]
    ring
  · obtain rfl := Option.some.inj found
    have size := Mat.length_row inside
    have columns : (B.columns.map (Vec.dot w)).length = B.width := by simp [Mat.columns]
    have corrected : (List.zipWith (fun ri row => List.zipWith (fun entry t =>
        (entry - ri * t * c.alphaSqNorm) * c.sqrtSlope) row (B.columns.map (Vec.dot w))) w B.rows).getD i [] =
        List.zipWith (fun entry t => (entry - w.getD i 0 * t * c.alphaSqNorm) * c.sqrtSlope) (B.rows.getD i [])
          (B.columns.map (Vec.dot w)) := by
      simp [List.getD_eq_getElem?_getD, row, place]
    rw [Mat.apply_getD, Mat.apply_getD, ← Mat.dot_columns length wide]
    dsimp only
    rw [corrected, Vec.dot_zipWith_sub size columns wide]

/-- The corrected system has the gradient of the block under the loss. -/
theorem gradient_eq {loss : Loss ℝ} {w d : Vec ℝ} {B C : Mat ℝ} (positive : 0 < (loss.jet (Vec.normSq w)).slope)
    (length : w.length = B.height) (wide : d.length = B.width)
    (found : (ofLoss loss (Vec.normSq w)).jacobian? w B = some C) :
    Vec.dot ((ofLoss loss (Vec.normSq w)).residual w) (C.apply d) =
      (loss.jet (Vec.normSq w)).slope * Vec.dot w (B.apply d) := by
  have balance := ofLoss_balance (Vec.normSq_nonneg w) positive
  generalize ofLoss loss (Vec.normSq w) = c at balance found ⊢
  have height : (C.apply d).length = w.length := by
    rw [Mat.length_apply, (jacobian_shape length found).1, length]
  have row : ∀ i ∈ Finset.range w.length, w.getD i 0 * (C.apply d).getD i 0 =
      c.sqrtSlope * (w.getD i 0 * (B.apply d).getD i 0 -
        Vec.dot w (B.apply d) * c.alphaSqNorm * (w.getD i 0 * w.getD i 0)) := by
    intro i member
    rw [jacobian_apply length wide found (length ▸ Finset.mem_range.mp member)]
    ring
  have image : (B.apply d).length = w.length := (Mat.length_apply B d).trans length.symm
  calc
    Vec.dot (c.residual w) (C.apply d) = c.residualScaling * Vec.dot w (C.apply d) := Vec.dot_scaled _ _ _
    _ = c.residualScaling * (c.sqrtSlope *
        (Vec.dot w (B.apply d) - Vec.dot w (B.apply d) * c.alphaSqNorm * Vec.normSq w)) := by
      rw [Vec.dot_eq_range w (C.apply d) w.length rfl height, Finset.sum_congr rfl row, ← Finset.mul_sum,
        Finset.sum_sub_distrib, ← Finset.mul_sum, ← Vec.dot_eq_range w (B.apply d) w.length rfl image,
        ← Vec.dot_eq_range w w w.length rfl rfl, ← Vec.normSq_eq_dot]
    _ = c.residualScaling * c.sqrtSlope * (1 - c.alphaSqNorm * Vec.normSq w) * Vec.dot w (B.apply d) := by ring
    _ = (loss.jet (Vec.normSq w)).slope * Vec.dot w (B.apply d) := by rw [balance]

end Correction

/-- At a squared norm the slope of a loss is positive and the derivative of its value, from the right where the norm is
zero. -/
structure Loss.SmoothAt (loss : Loss ℝ) (s : ℝ) : Prop where
  positive : 0 < (loss.jet s).slope
  derivative : HasDerivWithinAt (fun s => (loss.jet s).value) (loss.jet s).slope (Set.Ici 0) s

namespace Noise

/-- The entries of the matrix that a model whitens with. -/
noncomputable def coefficient : Noise ℝ → Nat → Nat → ℝ
  | gaussian R, i, k => R.get i k
  | diagonal sigmas, i, k => if k = i then 1 / sigmas.getD i 0 else 0
  | isotropic _ sigma, i, k => if k = i then 1 / sigma else 0
  | unit _, i, k => if k = i then 1 else 0
  | robust _ base, i, k => base.coefficient i k

variable {model : Noise ℝ}

/-- Whitening is linear. -/
theorem whiten_getD {r w : Vec ℝ} (length : r.length = model.dim) (found : model.whiten? r = some w) {i : Nat}
    (inside : i < model.dim) :
    w.getD i 0 = ∑ k ∈ Finset.range model.dim, model.coefficient i k * r.getD k 0 := by
  have single (x : ℝ) (n : Nat) (bound : i < n) :
      ∑ k ∈ Finset.range n, (if k = i then x else 0) * r.getD k 0 = x * r.getD i 0 := by
    simp [ite_mul, bound]
  induction model with
  | gaussian R =>
      simp only [whiten?, Mat.mulVec?] at found
      split at found
      · rename_i wide
        obtain rfl := Option.some.inj found
        have square : R.width = R.height := wide.trans length
        have image := Mat.apply_getD R r i
        rw [Vec.dot_eq_range _ r R.width (Mat.length_row inside) wide.symm, square] at image
        exact image
      · cases found
  | diagonal sigmas =>
      simp only [whiten?, Vec.div?, Vec.zip?] at found
      split at found
      · obtain rfl := Option.some.inj found
        have size : i < r.length := length.symm ▸ inside
        have bound : i < sigmas.length := inside
        refine Eq.trans ?_ (single (1 / sigmas.getD i 0) _ inside).symm
        rw [List.getD_eq_getElem _ _ (by simpa using ⟨size, bound⟩), List.getElem_zipWith,
          List.getD_eq_getElem _ _ size, List.getD_eq_getElem _ _ bound]
        ring
      · cases found
  | isotropic n sigma =>
      obtain rfl := Option.some.inj found
      have size : i < r.length := length.symm ▸ inside
      refine Eq.trans ?_ (single (1 / sigma) _ inside).symm
      rw [List.getD_eq_getElem _ _ (by simpa using size), List.getElem_map, List.getD_eq_getElem _ _ size]
      ring
  | unit n =>
      obtain rfl := Option.some.inj found
      exact ((single 1 _ inside).trans (one_mul _)).symm
  | robust loss base ih => exact ih length found inside

theorem whiten_congr {r r' w : Vec ℝ} (length : r'.length = r.length) (found : model.whiten? r = some w) :
    ∃ w', model.whiten? r' = some w' := by
  induction model with
  | gaussian R =>
      simp only [whiten?, Mat.mulVec?] at found ⊢
      rw [length]
      split at found
      · rename_i wide
        exact ⟨_, if_pos wide⟩
      · cases found
  | diagonal sigmas =>
      simp only [whiten?, Vec.div?, Vec.zip?] at found ⊢
      rw [length]
      split at found
      · rename_i wide
        exact ⟨_, if_pos wide⟩
      · cases found
  | isotropic n sigma => exact ⟨_, rfl⟩
  | unit n => exact ⟨_, rfl⟩
  | robust loss base ih => exact ih found

/-- Whitening a Jacobian whitens the images of its directions. -/
theorem whiten_apply {A B : Mat ℝ} {d : Vec ℝ} (height : A.height = model.dim) (wide : d.length = A.width)
    (found : model.whitenJacobian? A = some B) : model.whiten? (A.apply d) = some (B.apply d) := by
  induction model with
  | gaussian R =>
      simp only [whitenJacobian?, Mat.mul?] at found
      split at found
      · rename_i square
        obtain rfl := Option.some.inj found
        simp only [whiten?, Mat.mulVec?]
        rw [if_pos (square.trans (Mat.length_apply A d).symm)]
        refine congrArg some (Eq.trans (List.map_congr_left fun row member => ?_) List.map_map.symm)
        exact (Mat.dot_columns ((R.regular row member).trans square) wide).symm
      · cases found
  | diagonal sigmas =>
      simp only [whitenJacobian?] at found
      split at found
      · obtain rfl := Option.some.inj found
        have same : A.height = sigmas.length := height
        simp only [whiten?, Vec.div?, Vec.zip?]
        rw [if_pos ((Mat.length_apply A d).trans same)]
        refine congrArg some (List.ext_getElem ?_ ?_)
        · simp [Mat.apply, Mat.mapRows, ← same, Mat.height]
        · intro i left right
          have bound : i < sigmas.length := by
            rw [List.length_zipWith] at left
            omega
          simp only [Mat.apply, Mat.mapRows, List.getElem_zipWith, List.getElem_map, List.getElem_mapIdx,
            List.getElem?_eq_getElem bound, Option.elim_some, Vec.dot_scaled]
          ring
      · cases found
  | isotropic n sigma =>
      obtain rfl := Option.some.inj found
      have scaled (row : Vec ℝ) : Vec.dot row d / sigma = Vec.dot (row.map (· / sigma)) d := by
        simp only [div_eq_mul_inv, Vec.dot_scaled]
        ring
      simp [whiten?, Mat.apply, Mat.map, scaled]
  | unit n =>
      obtain rfl := Option.some.inj found
      rfl
  | robust loss base ih => exact ih height found

/-- A residual that moves along a direction, at a rate that the Jacobian gives. -/
structure Moves (residual : ℝ → Vec ℝ) (A : Mat ℝ) (d : Vec ℝ) : Prop where
  wide : d.length = A.width
  length : ∀ t, (residual t).length = A.height
  slope : ∀ i < A.height, HasDerivAt (fun t => (residual t).getD i 0) ((A.apply d).getD i 0) 0

/-- The whitened residual moves at the rate that the whitened Jacobian gives. -/
theorem whiten_moves {residual : ℝ → Vec ℝ} {A B : Mat ℝ} {d w₀ : Vec ℝ} (moves : Moves residual A d)
    (height : A.height = model.dim) (start : model.whiten? (residual 0) = some w₀)
    (found : model.whitenJacobian? A = some B) :
    ∃ w : ℝ → Vec ℝ, (∀ t, model.whiten? (residual t) = some (w t)) ∧ w 0 = w₀ ∧ Moves w B d := by
  have whitened (t : ℝ) : ∃ w, model.whiten? (residual t) = some w :=
    whiten_congr ((moves.length t).trans (moves.length 0).symm) start
  choose w whitens using whitened
  have length (t : ℝ) : (residual t).length = model.dim := (moves.length t).trans height
  obtain ⟨rows, columns⟩ := shape_whitenJacobian height found
  refine ⟨w, whitens, Option.some.inj ((whitens 0).symm.trans start), moves.wide.trans columns.symm, ?_, ?_⟩
  · intro t
    rw [length_whiten (length t) (whitens t), rows]
  · intro i inside
    rw [rows] at inside
    have entries : (fun t => (w t).getD i 0) =
        fun t => ∑ k ∈ Finset.range model.dim, model.coefficient i k * (residual t).getD k 0 := by
      funext t
      exact whiten_getD (length t) (whitens t) inside
    have image := whiten_apply height moves.wide found
    rw [entries, whiten_getD ((Mat.length_apply A d).trans height) image inside]
    apply HasDerivAt.fun_sum
    intro k member
    exact (moves.slope k (height.symm ▸ Finset.mem_range.mp member)).const_mul (model.coefficient i k)

/-- At the whitened residual the loss of a robust model is smooth. -/
def SmoothAt (model : Noise ℝ) (r : Vec ℝ) : Prop :=
  ∀ loss w, model.loss? = some loss → model.whiten? r = some w → loss.value.SmoothAt (Vec.normSq w)

/-- The derivative of the error of a moving residual, from its whitened and corrected system. -/
theorem error_hasDerivAt {residual : ℝ → Vec ℝ} {A C : Mat ℝ} {d s : Vec ℝ} (moves : Moves residual A d)
    (height : A.height = model.dim) (smooth : model.SmoothAt (residual 0))
    (system : model.whitenSystem? (residual 0) (some A) = some (s, some C)) :
    ∃ cost : ℝ → ℝ, (∀ t, model.error? (residual t) = some (cost t)) ∧ HasDerivAt cost (Vec.dot s (C.apply d)) 0 := by
  by_cases plain : model.isRobust = false
  · obtain ⟨w₀, B, start, found, same⟩ := (whitenSystem_plain_iff plain).mp system
    obtain ⟨rfl, jacobian⟩ := Prod.mk.inj same
    obtain rfl := Option.some.inj jacobian
    obtain ⟨w, whitens, rfl, moved⟩ := whiten_moves moves height start found
    refine ⟨fun t => 0.5 * Vec.normSq (w t), ?_, ?_⟩
    · intro t
      rw [error_plain plain, whitens]
      rfl
    · have half := (Vec.normSq_hasDerivAt moved.length (Mat.length_apply _ d) moved.slope).const_mul 0.5
      exact half.congr_deriv (by ring)
  · cases model with
    | robust loss base =>
        obtain ⟨w₀, B, C', start, found, corrected, same⟩ := whitenSystem_robust_iff.mp system
        obtain ⟨rfl, jacobian⟩ := Prod.mk.inj same
        obtain rfl := Option.some.inj jacobian
        have fits : A.height = base.dim := height
        obtain ⟨w, whitens, rfl, moved⟩ := whiten_moves moves fits start found
        obtain ⟨positive, derivative⟩ := smooth loss (w 0) rfl start
        refine ⟨fun t => 0.5 * (loss.value.jet (Vec.normSq (w t))).value, ?_, ?_⟩
        · intro t
          rw [error_robust, whitens]
          rfl
        · have inner := Vec.normSq_hasDerivAt moved.length (Mat.length_apply _ d) moved.slope
          have outer := derivative.comp_hasDerivAt 0 inner (.of_forall fun t => Vec.normSq_nonneg (w t))
          rw [Correction.gradient_eq positive (moved.length 0) moved.wide corrected]
          exact (outer.const_mul 0.5).congr_deriv (by ring)
    | gaussian R | diagonal sigmas | isotropic n sigma | unit n => exact absurd rfl plain

end Noise

end GraduatedFit
