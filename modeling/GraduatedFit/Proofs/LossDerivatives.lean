import GraduatedFit.Proofs.ConcaveLosses

/-! The numbers of a loss at a squared norm are its value and the two derivatives of the value there. -/

namespace GraduatedFit.Loss

namespace Kind

open Filter Topology

variable {kind : Kind} {scale s : ℝ}

/-- The Huber loss has no second derivative where it turns from quadratic to linear. -/
def Regular (kind : Kind) (scale s : ℝ) : Prop := 0 < s ∧ (kind = huber → s ≠ scale * scale)

theorem Regular.eventually (regular : kind.Regular scale s) : ∀ᶠ t in 𝓝 s, kind.Regular scale t := by
  obtain ⟨above, apart⟩ := regular
  cases kind with
  | huber =>
      filter_upwards [eventually_gt_nhds above, eventually_ne_nhds (apart rfl)] with t positive differs
      exact ⟨positive, fun _ => differs⟩
  | cauchy | gemanMcClure =>
      filter_upwards [eventually_gt_nhds above] with t positive
      exact ⟨positive, nofun⟩

theorem tiny_le_half : (Scalar.tiny : ℝ) ≤ 1 / 2 := by
  have smaller : (2.0 : ℝ) ^ (-1022 : ℤ) ≤ 2.0 ^ (-1 : ℤ) := zpow_le_zpow_right₀ (by norm_num) (by norm_num)
  exact smaller.trans (by norm_num)

theorem tiny_le_one : (Scalar.tiny : ℝ) ≤ 1 := tiny_le_half.trans (by norm_num)

theorem loss_made (kind : Kind) (positive : 0 < scale) : ∃ loss, kind.loss scale = .ok loss ∧ loss.jet = kind.jet scale := by
  have admitted : checkScale scale = .ok scale := checkScale_ok_iff.mpr ⟨positive, rfl⟩
  cases kind with
  | huber => exact ⟨_, by rw [loss, Loss.huber, admitted]; rfl, rfl⟩
  | cauchy => exact ⟨_, by rw [loss, Loss.cauchy, admitted]; rfl, rfl⟩
  | gemanMcClure => exact gemanMcClure_made positive

theorem jet_zero : (kind.jet scale 0).value = 0 ∧ (kind.jet scale 0).slope = 1 := by
  cases kind with
  | huber =>
      rw [jet_huber_inside (mul_self_nonneg scale)]
      exact ⟨rfl, rfl⟩
  | cauchy =>
      constructor
      · simp [jet, cauchyJet, Scalar.log]
      · simp [jet, cauchyJet, tiny_le_one]
  | gemanMcClure => simp [jet, gemanMcClureJet]

theorem hasDerivAt_denominator (scale s : ℝ) :
    HasDerivAt (fun s => 1 + s * (1 / (scale * scale))) (1 / (scale * scale)) s := by
  have product := ((hasDerivAt_id s).mul_const (1 / (scale * scale))).const_add 1
  exact product.congr_deriv (one_mul _)

section Positive

variable (positive : 0 < scale)
include positive

theorem slope_zero : kind.slope scale 0 = 1 := by
  cases kind with
  | huber => rw [slope, Real.sqrt_zero, max_eq_left positive.le, div_self positive.ne']
  | cauchy => simp [slope]
  | gemanMcClure => simp [slope]

/-- The value lies below the tangent at zero. -/
theorem value_le (nonneg : 0 ≤ s) : (kind.jet scale s).value ≤ s := by
  have tangent : (kind.jet scale s).value ≤ _ := value_tangent positive le_rfl nonneg
  rwa [jet_zero.1, slope_zero positive, zero_add, one_mul, sub_zero] at tangent

/-- The tangent at a squared norm lies above the value at zero. -/
theorem value_nonneg (nonneg : 0 ≤ s) : 0 ≤ (kind.jet scale s).value := by
  have tangent : (kind.jet scale 0).value ≤ _ := value_tangent positive nonneg le_rfl
  have rise : 0 ≤ kind.slope scale s * s := mul_nonneg (slope_pos positive nonneg).le nonneg
  rw [jet_zero.1] at tangent
  linarith

theorem fraction_le_one (nonneg : 0 ≤ s) : 1 / (1 + s * (1 / (scale * scale))) ≤ 1 := by
  have rise : 0 ≤ s * (1 / (scale * scale)) := by positivity
  exact div_le_one_of_le₀ (by linarith) (by linarith)

/-- With its floor or without, a slope is positive and at most one. -/
theorem jet_slope_mem (nonneg : 0 ≤ s) : 0 < (kind.jet scale s).slope ∧ (kind.jet scale s).slope ≤ 1 := by
  cases kind with
  | huber =>
      rcases le_or_gt s (scale * scale) with inside | outside
      · rw [jet_huber_inside inside]
        exact ⟨one_pos, le_rfl⟩
      · have root : scale < √s := Real.lt_sqrt_of_sq_lt (by rwa [sq])
        rw [jet_huber_outside outside]
        exact ⟨lt_max_of_lt_right tiny_pos, max_le (div_le_one_of_le₀ root.le (Real.sqrt_nonneg s)) tiny_le_one⟩
  | cauchy =>
      simp only [jet, cauchyJet, Scalar.max_real]
      exact ⟨lt_max_of_lt_right tiny_pos, max_le (fraction_le_one positive nonneg) tiny_le_one⟩
  | gemanMcClure =>
      have fraction : 0 < 1 / (1 + s * (1 / (scale * scale))) := by positivity
      have below := fraction_le_one positive nonneg
      exact ⟨mul_pos fraction fraction, mul_le_one₀ below fraction.le below⟩

theorem hasDerivAt_fraction (nonneg : 0 ≤ s) :
    HasDerivAt (fun s => 1 / (1 + s * (1 / (scale * scale))))
      (-(1 / (scale * scale)) * (1 / (1 + s * (1 / (scale * scale)))) ^ 2) s := by
  have above : 1 + s * (1 / (scale * scale)) ≠ 0 := by positivity
  have inverse := (hasDerivAt_denominator scale s).fun_inv above
  simp only [← one_div] at inverse
  refine inverse.congr_deriv ?_
  field_simp

/-- The slope is the derivative of the value. -/
theorem value_hasDerivAt (regular : kind.Regular scale s) :
    HasDerivAt (fun s => (kind.jet scale s).value) (kind.slope scale s) s := by
  obtain ⟨above, apart⟩ := regular
  cases kind with
  | huber =>
      rcases lt_or_gt_of_ne (apart rfl) with inside | outside
      · have root : √s ≤ scale := Real.sqrt_le_iff.mpr ⟨positive.le, by rw [sq]; exact inside.le⟩
        have near : (fun s => (huber.jet scale s).value) =ᶠ[𝓝 s] fun s => s := by
          filter_upwards [eventually_lt_nhds inside] with t before
          rw [jet_huber_inside before.le]
        rw [slope, max_eq_left root, div_self positive.ne']
        exact (hasDerivAt_id' s).congr_of_eventuallyEq near
      · have root : scale < √s := Real.lt_sqrt_of_sq_lt (by rwa [sq])
        have near : (fun s => (huber.jet scale s).value) =ᶠ[𝓝 s] fun s => 2 * scale * √s - scale * scale := by
          filter_upwards [eventually_gt_nhds outside] with t after
          rw [jet_huber_outside after]
        have linear := ((Real.hasDerivAt_sqrt above.ne').const_mul (2 * scale)).sub_const (scale * scale)
        rw [slope, max_eq_right root.le]
        refine (linear.congr_of_eventuallyEq near).congr_deriv ?_
        field_simp
  | cauchy =>
      have argument : 1 + s * (1 / (scale * scale)) ≠ 0 := by positivity
      have logarithm := ((hasDerivAt_denominator scale s).log argument).const_mul (scale * scale)
      refine logarithm.congr_deriv ?_
      rw [slope]
      field_simp
  | gemanMcClure =>
      have product := (hasDerivAt_id' s).mul (hasDerivAt_fraction positive above.le)
      refine product.congr_deriv ?_
      have argument : 1 + s * (1 / (scale * scale)) ≠ 0 := by positivity
      rw [slope]
      field_simp
      ring

/-- The curvature is the derivative of the slope. -/
theorem slope_hasDerivAt (regular : kind.Regular scale s) (unfloored : kind.Unfloored scale s) :
    HasDerivAt (kind.slope scale) (kind.jet scale s).curvature s := by
  obtain ⟨above, apart⟩ := regular
  cases kind with
  | huber =>
      rcases lt_or_gt_of_ne (apart rfl) with inside | outside
      · have near : huber.slope scale =ᶠ[𝓝 s] fun _ => 1 := by
          filter_upwards [eventually_lt_nhds inside] with t before
          have root : √t ≤ scale := Real.sqrt_le_iff.mpr ⟨positive.le, by rw [sq]; exact before.le⟩
          rw [slope, max_eq_left root, div_self positive.ne']
        rw [jet_huber_inside inside.le]
        exact (hasDerivAt_const s 1).congr_of_eventuallyEq near
      · have root : scale < √s := Real.lt_sqrt_of_sq_lt (by rwa [sq])
        have near : huber.slope scale =ᶠ[𝓝 s] fun s => scale * (√s)⁻¹ := by
          filter_upwards [eventually_gt_nhds outside] with t after
          have root : scale < √t := Real.lt_sqrt_of_sq_lt (by rwa [sq])
          rw [slope, max_eq_right root.le, div_eq_mul_inv]
        have floor : Scalar.tiny ≤ scale / max scale √s := unfloored.resolve_left (by simp)
        rw [max_eq_right root.le] at floor
        have inverse := ((Real.hasDerivAt_sqrt above.ne').fun_inv (Real.sqrt_pos.mpr above).ne').const_mul scale
        rw [jet_huber_outside outside, max_eq_left floor]
        refine (inverse.congr_of_eventuallyEq near).congr_deriv ?_
        have square : √s ^ 2 = s := Real.sq_sqrt above.le
        rw [square]
        field_simp
  | cauchy =>
      refine (hasDerivAt_fraction positive above.le).congr_deriv ?_
      simp only [jet, cauchyJet]
      ring
  | gemanMcClure =>
      have fraction := hasDerivAt_fraction positive above.le
      refine (fraction.mul fraction).congr_deriv ?_
      simp only [jet, gemanMcClureJet, Scalar.two_real]
      ring

/-- The curvature is the second derivative of the value. -/
theorem deriv_value_hasDerivAt (regular : kind.Regular scale s) (unfloored : kind.Unfloored scale s) :
    HasDerivAt (deriv fun s => (kind.jet scale s).value) (kind.jet scale s).curvature s := by
  have near : (deriv fun s => (kind.jet scale s).value) =ᶠ[𝓝 s] kind.slope scale := by
    filter_upwards [regular.eventually] with t regular
    exact (value_hasDerivAt positive regular).deriv
  exact (slope_hasDerivAt positive regular unfloored).congr_of_eventuallyEq near

/-- Every loss of a valid scale starts out as the squared norm and grows ever more slowly: it lies below its tangents, and
what it gives next to its value are the derivatives of the value. -/
theorem loss_concave_jet (kind : Kind) : ∃ loss, kind.loss scale = .ok loss ∧
    (loss.jet 0).value = 0 ∧ (loss.jet 0).slope = 1 ∧
    ∀ s, 0 ≤ s →
      (0 ≤ (loss.jet s).value ∧ (loss.jet s).value ≤ s) ∧
      (0 < (loss.jet s).slope ∧ (loss.jet s).slope ≤ 1) ∧
      (loss.jet s).curvature ≤ 0 ∧
      (kind.Unfloored scale s →
        (∀ t, 0 ≤ t → (loss.jet t).value ≤ (loss.jet s).value + (loss.jet s).slope * (t - s)) ∧
        (kind.Regular scale s →
          HasDerivAt (fun s => (loss.jet s).value) (loss.jet s).slope s ∧
          HasDerivAt (deriv fun s => (loss.jet s).value) (loss.jet s).curvature s)) := by
  obtain ⟨loss, made, jet⟩ := loss_made kind positive
  refine ⟨loss, made, ?_⟩
  rw [jet]
  refine ⟨jet_zero.1, jet_zero.2, fun s nonneg => ⟨⟨value_nonneg positive nonneg, value_le positive nonneg⟩,
    jet_slope_mem positive nonneg, jet_curvature positive nonneg, fun unfloored => ?_⟩⟩
  rw [jet_slope positive unfloored]
  exact ⟨fun t nonneg' => value_tangent positive nonneg nonneg', fun regular =>
    ⟨value_hasDerivAt positive regular, deriv_value_hasDerivAt positive regular unfloored⟩⟩

end Positive

/-- The tangent of the Huber loss of scale one, from a squared norm of four to one below the scale. -/
theorem huber_concave_jet : ∃ loss, Kind.huber.loss 1 = .ok loss ∧
    (0 : ℝ) < 1 ∧ huber.Unfloored 1 4 ∧ huber.Regular 1 4 ∧
    (loss.jet (1 / 4)).value ≤ 3 + 1 / 2 * (1 / 4 - 4) ∧
    HasDerivAt (fun s => (loss.jet s).value) (1 / 2) 4 ∧
    HasDerivAt (deriv fun s => (loss.jet s).value) (-(1 / 16)) 4 := by
  have root : √(4 : ℝ) = 2 := by
    rw [show (4 : ℝ) = 2 ^ 2 by norm_num, Real.sqrt_sq (by norm_num)]
  have small := tiny_le_half
  have unfloored : huber.Unfloored 1 4 := by
    refine .inr ?_
    rw [slope, root]
    norm_num [small]
  have regular : huber.Regular 1 4 := ⟨by norm_num, fun _ => by norm_num⟩
  obtain ⟨loss, made, -, -, each⟩ := loss_concave_jet one_pos huber
  obtain ⟨-, -, -, smooth⟩ := each 4 (by norm_num)
  obtain ⟨tangent, derivatives⟩ := smooth unfloored
  have here : loss.jet 4 = ⟨3, 1 / 2, -(1 / 16)⟩ := by
    rw [(loss_jet made).2, jet_huber_outside (by norm_num), root]
    norm_num [small]
  rw [here] at tangent derivatives
  exact ⟨loss, made, one_pos, unfloored, regular, tangent _ (by norm_num), derivatives regular⟩

end Kind

end GraduatedFit.Loss
