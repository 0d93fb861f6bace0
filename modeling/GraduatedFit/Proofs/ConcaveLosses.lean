import GraduatedFit.Proofs.ReweightedLoss

/-! Losses that grow ever more slowly: each lies below its tangents, whose slopes are not negative. -/

namespace GraduatedFit.Loss

/-- The losses of a scale. -/
inductive Kind
  | huber
  | cauchy
  | gemanMcClure

namespace Kind

/-- The loss of a kind, where the scale is valid. -/
noncomputable def loss : Kind → ℝ → Result ℝ (Loss ℝ)
  | huber => Loss.huber
  | cauchy => Loss.cauchy
  | gemanMcClure => Loss.gemanMcClure

noncomputable def jet : Kind → ℝ → ℝ → Jet ℝ
  | huber, scale => huberJet scale (scale * scale)
  | cauchy, scale => cauchyJet (scale * scale) (1 / (scale * scale))
  | gemanMcClure, scale => gemanMcClureJet (1 / (scale * scale))

/-- The slope of the value, without the least positive number that keeps the slope of a loss from vanishing. For Huber it
is one up to the scale. -/
noncomputable def slope : Kind → ℝ → ℝ → ℝ
  | huber, scale, s => scale / max scale √s
  | cauchy, scale, s => 1 / (1 + s * (1 / (scale * scale)))
  | gemanMcClure, scale, s => 1 / (1 + s * (1 / (scale * scale))) * (1 / (1 + s * (1 / (scale * scale))))

/-- The least positive number takes no effect on the slope. Geman-McClure has no such floor. -/
def Unfloored (kind : Kind) (scale s : ℝ) : Prop := kind = gemanMcClure ∨ Scalar.tiny ≤ kind.slope scale s

variable {kind : Kind} {scale s t : ℝ} {loss : Loss ℝ}

theorem checkScale_ok_iff {scale' : ℝ} : checkScale scale = .ok scale' ↔ 0 < scale ∧ scale = scale' := by
  unfold checkScale
  by_cases positive : 0 < scale
  · simp [positive]
  · simp [positive, Result.failModel, Result.fail]

/-- The losses of a kind are those of positive scales, with the jets of the kind. -/
theorem loss_jet (made : kind.loss scale = .ok loss) : 0 < scale ∧ loss.jet = kind.jet scale := by
  cases kind <;>
  · obtain ⟨_, checked, returned⟩ := Result.bind_ok_iff.mp made
    obtain ⟨positive, rfl⟩ := checkScale_ok_iff.mp checked
    obtain rfl := Except.ok.inj returned
    exact ⟨positive, rfl⟩

theorem jet_huber_inside (inside : s ≤ scale * scale) : huber.jet scale s = ⟨s, 1, 0⟩ := by
  simp [jet, huberJet, not_lt.mpr inside]

theorem jet_huber_outside (outside : scale * scale < s) :
    huber.jet scale s = ⟨2 * scale * √s - scale * scale, max (scale / √s) Scalar.tiny,
      -max (scale / √s) Scalar.tiny / (2 * s)⟩ := by
  simp [jet, huberJet, outside, Scalar.two_real]

theorem tiny_pos : (0 : ℝ) < Scalar.tiny := by
  norm_num [Scalar.tiny]

section Positive

variable (positive : 0 < scale)
include positive

theorem slope_pos (nonneg : 0 ≤ s) : 0 < kind.slope scale s := by
  cases kind with
  | huber => exact div_pos positive (positive.trans_le (le_max_left _ _))
  | cauchy | gemanMcClure =>
      unfold slope
      positivity

/-- Where the floor takes no effect the slope of the loss is that of its value. -/
theorem jet_slope (unfloored : kind.Unfloored scale s) :
    (kind.jet scale s).slope = kind.slope scale s := by
  cases kind with
  | huber =>
      have above : Scalar.tiny ≤ scale / max scale √s := unfloored.resolve_left nofun
      rcases le_or_gt s (scale * scale) with inside | outside
      · have root : √s ≤ scale := Real.sqrt_le_iff.mpr ⟨positive.le, by rwa [sq]⟩
        rw [jet_huber_inside inside, slope, max_eq_left root, div_self positive.ne']
      · have root : scale < √s := Real.lt_sqrt_of_sq_lt (by rwa [sq])
        rw [max_eq_right root.le] at above
        rw [jet_huber_outside outside, slope, max_eq_right root.le, max_eq_left above]
  | cauchy =>
      have above : Scalar.tiny ≤ 1 / (1 + s * (1 / (scale * scale))) := unfloored.resolve_left nofun
      simp only [jet, cauchyJet, slope, Scalar.max_real, max_eq_left above]
  | gemanMcClure => rfl

/-- No loss of a scale curves upwards, with its floor or without. -/
theorem jet_curvature (nonneg : 0 ≤ s) : (kind.jet scale s).curvature ≤ 0 := by
  cases kind with
  | huber =>
      rcases le_or_gt s (scale * scale) with inside | outside
      · rw [jet_huber_inside inside]
      · rw [jet_huber_outside outside]
        have floor : 0 ≤ max (scale / √s) Scalar.tiny := tiny_pos.le.trans (le_max_right _ _)
        exact div_nonpos_of_nonpos_of_nonneg (neg_nonpos.mpr floor) (by linarith)
  | cauchy =>
      have product : 0 ≤ 1 / (scale * scale) * (1 / (1 + s * (1 / (scale * scale)))) *
          (1 / (1 + s * (1 / (scale * scale)))) := by positivity
      simp only [jet, cauchyJet, neg_mul]
      exact neg_nonpos.mpr product
  | gemanMcClure => exact gemanMcClure_concave (by positivity) nonneg

/-- The Huber loss lies below every line that touches it at a norm of at least the scale. -/
theorem huber_below_lines {u : ℝ} (large : scale ≤ u) (nonneg : 0 ≤ t) :
    (huber.jet scale t).value ≤ scale * u - scale * scale + scale / u * t := by
  have above : 0 < u := positive.trans_le large
  rcases le_or_gt t (scale * scale) with inside | outside
  · rw [jet_huber_inside inside]
    have gap : scale * u - scale * scale + scale / u * t - t = (u - scale) * (scale * u - t) / u := by
      field_simp
      ring
    have within : t ≤ scale * u := inside.trans (mul_le_mul_of_nonneg_left large positive.le)
    have nonneg' : 0 ≤ (u - scale) * (scale * u - t) / u :=
      div_nonneg (mul_nonneg (by linarith) (by linarith)) above.le
    linarith
  · rw [jet_huber_outside outside]
    have root := Real.sq_sqrt nonneg
    have gap : scale * u - scale * scale + scale / u * √t ^ 2 - (2 * scale * √t - scale * scale) =
        scale * (u - √t) ^ 2 / u := by
      field_simp
      ring
    have nonneg' : 0 ≤ scale * (u - √t) ^ 2 / u := by positivity
    rw [root] at gap
    linarith

theorem huber_on_line (nonneg : 0 ≤ s) :
    (huber.jet scale s).value = scale * max scale √s - scale * scale + scale / max scale √s * s := by
  rcases le_or_gt s (scale * scale) with inside | outside
  · have root : √s ≤ scale := Real.sqrt_le_iff.mpr ⟨positive.le, by rwa [sq]⟩
    rw [jet_huber_inside inside, max_eq_left root, div_self positive.ne']
    ring
  · have root : scale < √s := Real.lt_sqrt_of_sq_lt (by rwa [sq])
    have above : 0 < √s := positive.trans root
    have quotient : scale / √s * s = scale * √s := by
      nth_rewrite 2 [← Real.mul_self_sqrt nonneg]
      field_simp
    rw [jet_huber_outside outside, max_eq_right root.le, quotient]
    ring

/-- The tangent of the Huber loss at a squared norm is the line at its norm, or at the scale where that is larger. -/
theorem huber_tangent (nonneg : 0 ≤ s) (nonneg' : 0 ≤ t) :
    (huber.jet scale t).value ≤ (huber.jet scale s).value + huber.slope scale s * (t - s) := by
  have below := huber_below_lines positive (le_max_left scale √s) nonneg'
  rw [huber_on_line positive nonneg, slope]
  linarith

/-- The logarithm of a quotient is at most the quotient less one. -/
theorem cauchy_tangent (nonneg : 0 ≤ s) (nonneg' : 0 ≤ t) :
    (cauchy.jet scale t).value ≤ (cauchy.jet scale s).value + cauchy.slope scale s * (t - s) := by
  have square : 0 < scale * scale := mul_pos positive positive
  have before : 0 < 1 + s * (1 / (scale * scale)) := by positivity
  have after : 0 < 1 + t * (1 / (scale * scale)) := by positivity
  have ratio := Real.log_le_sub_one_of_pos (div_pos after before)
  rw [Real.log_div after.ne' before.ne'] at ratio
  have rise : scale * scale * ((1 + t * (1 / (scale * scale))) / (1 + s * (1 / (scale * scale))) - 1) =
      1 / (1 + s * (1 / (scale * scale))) * (t - s) := by
    field_simp
    ring
  calc
    scale * scale * Real.log (1 + t * (1 / (scale * scale))) =
        scale * scale * Real.log (1 + s * (1 / (scale * scale))) + scale * scale *
          (Real.log (1 + t * (1 / (scale * scale))) - Real.log (1 + s * (1 / (scale * scale)))) := by ring
    _ ≤ scale * scale * Real.log (1 + s * (1 / (scale * scale))) +
        scale * scale * ((1 + t * (1 / (scale * scale))) / (1 + s * (1 / (scale * scale))) - 1) :=
      add_le_add_right (mul_le_mul_of_nonneg_left ratio square.le) _
    _ = scale * scale * Real.log (1 + s * (1 / (scale * scale))) +
        1 / (1 + s * (1 / (scale * scale))) * (t - s) := by rw [rise]

/-- The value of the Geman-McClure loss is the surrogate of an error that is the squared norm. -/
theorem gemanMcClure_tangent (nonneg : 0 ≤ s) (nonneg' : 0 ≤ t) :
    (gemanMcClure.jet scale t).value ≤ (gemanMcClure.jet scale s).value + gemanMcClure.slope scale s * (t - s) := by
  have square : 0 < scale * scale := mul_pos positive positive
  have quotient (x : ℝ) (nonneg : 0 ≤ x) : 1 / (1 + x * (1 / (scale * scale))) = scale * scale / (x + scale * scale) := by
    field_simp
    ring
  have tangent := Continuation.gemanMcClure_tangent square nonneg nonneg'
  simp only [jet, gemanMcClureJet, slope, quotient s nonneg, quotient t nonneg']
  calc
    t * (scale * scale / (t + scale * scale)) = scale * scale * t / (scale * scale + t) := by ring
    _ ≤ scale * scale * s / (scale * scale + s) + (scale * scale / (s + scale * scale)) ^ 2 * (t - s) := tangent
    _ = _ := by ring

/-- Each loss of a scale lies below its tangents. -/
theorem value_tangent (nonneg : 0 ≤ s) (nonneg' : 0 ≤ t) :
    (kind.jet scale t).value ≤ (kind.jet scale s).value + kind.slope scale s * (t - s) := by
  cases kind with
  | huber => exact huber_tangent positive nonneg nonneg'
  | cauchy => exact cauchy_tangent positive nonneg nonneg'
  | gemanMcClure => exact gemanMcClure_tangent positive nonneg nonneg'

end Positive

end Kind

end GraduatedFit.Loss
