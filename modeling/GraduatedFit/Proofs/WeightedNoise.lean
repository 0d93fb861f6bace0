import GraduatedFit.Proofs.ExactArithmetic
import GraduatedFit.Noise

/-! A noise model under a weight whitens to the root of the weight times what it whitened to before. -/

namespace GraduatedFit

theorem Mat.eq_of_rows {K : Type} {A B : Mat K} (width : A.width = B.width) (rows : A.rows = B.rows) : A = B := by
  cases A
  cases B
  simp only [Mat.mk.injEq]
  exact ⟨width, rows⟩

namespace Vec

theorem dot_scaled (c : ℝ) (a b : Vec ℝ) : dot (a.map (· * c)) b = c * dot a b := by
  rw [dot_real, dot_real]
  induction a generalizing b with
  | nil => simp
  | cons x a ih =>
      cases b with
      | nil => simp
      | cons y b =>
          simp only [List.map_cons, List.zipWith_cons_cons, List.sum_cons, ih]
          ring

theorem normSq_scaled (c : ℝ) (a : Vec ℝ) : normSq (a.map (c * ·)) = c ^ 2 * normSq a := by
  rw [normSq_real, normSq_real]
  induction a with
  | nil => simp
  | cons x a ih =>
      simp only [List.map_cons, List.sum_cons] at ih ⊢
      rw [ih]
      ring

end Vec

namespace Noise

section Models

variable {K : Type} [Scalar K]

/-- Exactly the models without a robust loss have a scale to adjust. -/
theorem scaledByWeight_isSome (weight : K) (model : Noise K) :
    (model.scaledByWeight? weight).isSome = !model.isRobust := by
  cases model <;> rfl

theorem scaledByWeight_dim {weight : K} {model scaled : Noise K}
    (found : model.scaledByWeight? weight = some scaled) : scaled.dim = model.dim := by
  cases model with
  | gaussian R =>
      obtain rfl := Option.some.inj found
      simp [dim, Mat.height, Mat.scale, Mat.map]
  | diagonal sigmas =>
      obtain rfl := Option.some.inj found
      simp [dim]
  | isotropic n sigma =>
      obtain rfl := Option.some.inj found
      rfl
  | unit n =>
      obtain rfl := Option.some.inj found
      rfl
  | robust loss base => cases found

theorem scaledByWeight_plain {weight : K} {model scaled : Noise K}
    (found : model.scaledByWeight? weight = some scaled) :
    model.isRobust = false ∧ scaled.isRobust = false := by
  cases model with
  | robust loss base => cases found
  | gaussian R | diagonal sigmas | isotropic n sigma | unit n =>
      obtain rfl := Option.some.inj found
      exact ⟨rfl, rfl⟩

/-- Without a robust loss nothing is corrected. -/
theorem whitenSystem_plain {model : Noise K} (plain : model.isRobust = false) (r : Vec K) (J : Option (Mat K)) :
    model.whitenSystem? r J = (do return (← model.whiten? r, ← J.mapM model.whitenJacobian?)) := by
  cases model with
  | robust loss base => cases plain
  | gaussian R | diagonal sigmas | isotropic n sigma | unit n => rfl

theorem error_plain {model : Noise K} (plain : model.isRobust = false) (r : Vec K) :
    model.error? r = (model.whiten? r).map fun whitened => 0.5 * Vec.normSq whitened := by
  cases model with
  | robust loss base => cases plain
  | gaussian R | diagonal sigmas | isotropic n sigma | unit n =>
      unfold error?
      cases whiten? _ r <;> rfl

end Models

/-- A deviation divided by a root, also by that of zero. -/
theorem div_scaled (x sigma root : ℝ) : x / (sigma / root) = root * (x / sigma) := by
  rw [div_div_eq_mul_div, mul_comm x, mul_div_assoc]

variable {weight : ℝ} {model scaled : Noise ℝ}

theorem whiten_scaled (found : model.scaledByWeight? weight = some scaled) (r : Vec ℝ) :
    scaled.whiten? r = (model.whiten? r).map (List.map (√weight * ·)) := by
  cases model with
  | gaussian R =>
      obtain rfl := Option.some.inj found
      simp only [whiten?, Mat.mulVec?, Mat.scale, Mat.map]
      by_cases fits : R.width = r.length
      · simp [fits, Function.comp_def, Vec.dot_scaled]
      · simp [fits]
  | diagonal sigmas =>
      obtain rfl := Option.some.inj found
      simp only [whiten?, Vec.div?, Vec.zip?, List.length_map]
      split
      · simp only [Option.map_some, List.zipWith_map_right, List.map_zipWith]
        congr 2
        funext x sigma
        exact div_scaled x sigma (√weight)
      · rfl
  | isotropic n sigma =>
      obtain rfl := Option.some.inj found
      simp only [whiten?, Option.map_some, List.map_map]
      congr 2
      funext x
      exact div_scaled x sigma (√weight)
  | unit n =>
      obtain rfl := Option.some.inj found
      simp only [whiten?, Option.map_some]
      congr 2
      funext x
      rw [Scalar.sqrt_real, div_scaled, div_one]
  | robust loss base => cases found

/-- The same for a Jacobian of as many rows as the model has components. -/
theorem whitenJacobian_scaled (found : model.scaledByWeight? weight = some scaled) {J : Mat ℝ}
    (height : J.height = model.dim) :
    scaled.whitenJacobian? J = (model.whitenJacobian? J).map (Mat.map (√weight * ·)) := by
  cases model with
  | gaussian R =>
      obtain rfl := Option.some.inj found
      simp only [whitenJacobian?, Mat.mul?, Mat.scale, Mat.map]
      by_cases fits : R.width = J.height
      · simp only [fits, if_true, Option.map_some, Option.some.injEq]
        refine Mat.eq_of_rows rfl ?_
        simp [Mat.map, Function.comp_def, Vec.dot_scaled]
      · simp [fits]
  | diagonal sigmas =>
      obtain rfl := Option.some.inj found
      have rows : J.rows.length = sigmas.length := height
      simp only [whitenJacobian?, Mat.height, List.length_map, rows, le_refl, if_true, Option.map_some,
        Option.some.injEq]
      refine Mat.eq_of_rows rfl ?_
      simp only [Mat.map, Mat.mapRows]
      refine List.ext_getElem (by simp) fun i first second => ?_
      have inside : i < sigmas.length := by simpa [rows] using first
      have whitened (x : ℝ) : x * (1 / (sigmas[i] / √weight)) = √weight * (x * (1 / sigmas[i])) := by
        rw [div_scaled]
        ring
      simp only [List.getElem_mapIdx, List.getElem_map, List.getElem?_map, List.getElem?_eq_getElem inside,
        Option.map_some, Option.elim_some, List.map_map, Scalar.sqrt_real, whitened]
      rfl
  | isotropic n sigma =>
      obtain rfl := Option.some.inj found
      simp only [whitenJacobian?, Option.map_some, Option.some.injEq]
      refine Mat.eq_of_rows rfl ?_
      simp [Mat.map, Function.comp_def, div_scaled]
  | unit n =>
      obtain rfl := Option.some.inj found
      simp only [whitenJacobian?, Option.map_some, Option.some.injEq]
      refine Mat.eq_of_rows rfl ?_
      simp only [Mat.map, Scalar.sqrt_real, div_scaled, div_one]
  | robust loss base => cases found

/-- The error is multiplied by the weight. -/
theorem error_scaled (found : model.scaledByWeight? weight = some scaled) (nonneg : 0 ≤ weight) (r : Vec ℝ) :
    scaled.error? r = (model.error? r).map (weight * ·) := by
  obtain ⟨plain, plain'⟩ := scaledByWeight_plain found
  rw [error_plain plain, error_plain plain', whiten_scaled found, Option.map_map, Option.map_map]
  congr 1
  funext whitened
  simp only [Function.comp_apply, Vec.normSq_scaled, Real.sq_sqrt nonneg]
  ring

theorem whitenSystem_scaled (found : model.scaledByWeight? weight = some scaled) (r : Vec ℝ) {J : Option (Mat ℝ)}
    (height : ∀ A, J = some A → A.height = model.dim) :
    scaled.whitenSystem? r J = (model.whitenSystem? r J).map fun system =>
      (system.1.map (√weight * ·), system.2.map (Mat.map (√weight * ·))) := by
  obtain ⟨plain, plain'⟩ := scaledByWeight_plain found
  rw [whitenSystem_plain plain, whitenSystem_plain plain', whiten_scaled found]
  cases model.whiten? r with
  | none => rfl
  | some whitened =>
      cases J with
      | none => rfl
      | some A =>
          simp only [Option.mapM_some, whitenJacobian_scaled found (height A rfl)]
          cases model.whitenJacobian? A <;> rfl

end Noise

end GraduatedFit
