import GraduatedFit.Proofs.ExactArithmetic
import GraduatedFit.Continuation.Weight

/-! The weight of an error is the slope of a line above a concave surrogate of the error. -/

namespace GraduatedFit.Continuation

namespace Family

/-- What an error counts for at a scaled threshold: it grows ever more slowly and stays bounded. -/
noncomputable def surrogate : Family → ℝ → ℝ → ℝ
  | gemanMcClure, c, e => c * e / (c + e)
  | truncatedLeastSquares, c, e => if e ≤ c then e else 3.0 * c / 2.0 - c ^ 2 / (e + c)

end Family

theorem rationalWeight_real (c e : ℝ) : rationalWeight e c = (c / (e + c)) ^ 2 := (sq _).symm

theorem gemanMcClureWeight_real {mu threshold e : ℝ} (positive : 0 < mu * threshold) :
    gemanMcClureWeight e mu threshold = (mu * threshold / (e + mu * threshold)) ^ 2 := by
  rw [gemanMcClureWeight, Scalar.eq_real]
  by_cases zero : e = 0
  · rw [if_pos (by simpa using zero), zero, zero_add, div_self positive.ne', one_pow]
  · rw [if_neg (by simpa using zero), rationalWeight_real]

theorem truncatedWeight_inside {mu threshold e : ℝ} (inside : e ≤ mu * threshold) :
    truncatedWeight e mu threshold = 1 := by
  rw [truncatedWeight, Scalar.le_real, if_pos (by simpa using inside)]

theorem truncatedWeight_outside {mu threshold e : ℝ} (outside : mu * threshold < e) :
    truncatedWeight e mu threshold = (mu * threshold / (e + mu * threshold)) ^ 2 := by
  rw [truncatedWeight, Scalar.le_real, if_neg (by simpa using outside), rationalWeight_real]

/-- The reciprocal stays above its tangents. -/
theorem reciprocal_tangent {c s t : ℝ} (first : 0 < s) (second : 0 < t) :
    c ^ 2 / s - c ^ 2 / t ≤ (c / s) ^ 2 * (t - s) := by
  have gap : (c / s) ^ 2 * (t - s) - (c ^ 2 / s - c ^ 2 / t) = c ^ 2 * (t - s) ^ 2 / (s ^ 2 * t) := by
    field_simp
  have nonneg : 0 ≤ c ^ 2 * (t - s) ^ 2 / (s ^ 2 * t) := by positivity
  linarith

theorem gemanMcClure_tangent {c e e' : ℝ} (positive : 0 < c) (nonneg : 0 ≤ e) (nonneg' : 0 ≤ e') :
    c * e' / (c + e') ≤ c * e / (c + e) + (c / (e + c)) ^ 2 * (e' - e) := by
  have first : 0 < e + c := by linarith
  have second : 0 < e' + c := by linarith
  have shape (x : ℝ) (denominator : 0 < x + c) : c * x / (c + x) = c - c ^ 2 / (x + c) := by
    rw [add_comm c x]
    field_simp
    ring
  have tangent := reciprocal_tangent (c := c) first second
  have difference : e' + c - (e + c) = e' - e := by ring
  rw [shape e first, shape e' second]
  rw [difference] at tangent
  linarith

/-- At the threshold the truncated surrogate is the error itself, and above it less. -/
theorem truncated_below_error {c e : ℝ} (positive : 0 < c) (outside : c < e) : 3 * c / 2 - c ^ 2 / (e + c) ≤ e := by
  have denominator : 0 < e + c := by linarith
  have gap : e - (3 * c / 2 - c ^ 2 / (e + c)) = (e - c) * (2 * e + c) / (2 * (e + c)) := by
    field_simp
    ring
  have nonneg : 0 ≤ (e - c) * (2 * e + c) / (2 * (e + c)) :=
    div_nonneg (mul_nonneg (by linarith) (by linarith)) (by linarith)
  linarith

/-- Seen from above the threshold an error below it is under the line as well. -/
theorem truncated_line_above {c e e' : ℝ} (positive : 0 < c) (outside : c < e) (inside : e' ≤ c) :
    e' ≤ 3 * c / 2 - c ^ 2 / (e + c) + (c / (e + c)) ^ 2 * (e' - e) := by
  have denominator : 0 < e + c := by linarith
  have gap : 3 * c / 2 - c ^ 2 / (e + c) + (c / (e + c)) ^ 2 * (e' - e) - e' =
      c / 2 * (1 - 2 * (c / (e + c))) ^ 2 + (c - e') * (1 - (c / (e + c)) ^ 2) := by
    field_simp
    ring
  have fraction : (c / (e + c)) ^ 2 ≤ 1 :=
    pow_le_one₀ (div_pos positive denominator).le ((div_le_one denominator).mpr (by linarith))
  -- the gap is a square and a product of two numbers that are not negative
  have square : 0 ≤ c / 2 * (1 - 2 * (c / (e + c))) ^ 2 := by positivity
  have rest : 0 ≤ (c - e') * (1 - (c / (e + c)) ^ 2) := mul_nonneg (by linarith) (by linarith)
  linarith

namespace Family

theorem surrogate_truncated (c e : ℝ) :
    truncatedLeastSquares.surrogate c e = if e ≤ c then e else 3 * c / 2 - c ^ 2 / (e + c) := by
  rw [surrogate]
  norm_num

/-- The surrogate is concave with the weight as its slope. -/
theorem surrogate_tangent (family : Family) {mu threshold e e' : ℝ} (positive : 0 < mu * threshold)
    (nonneg : 0 ≤ e) (nonneg' : 0 ≤ e') :
    family.surrogate (mu * threshold) e' ≤
      family.surrogate (mu * threshold) e + family.weight e mu threshold * (e' - e) := by
  cases family with
  | gemanMcClure =>
      rw [weight, gemanMcClureWeight_real positive]
      exact gemanMcClure_tangent positive nonneg nonneg'
  | truncatedLeastSquares =>
      rw [surrogate_truncated, surrogate_truncated, weight]
      by_cases here : e ≤ mu * threshold
      · rw [truncatedWeight_inside here, if_pos here]
        by_cases there : e' ≤ mu * threshold
        · rw [if_pos there]
          linarith
        · rw [if_neg there]
          have below := truncated_below_error positive (not_le.mp there)
          linarith
      · rw [truncatedWeight_outside (not_le.mp here), if_neg here]
        by_cases there : e' ≤ mu * threshold
        · rw [if_pos there]
          exact truncated_line_above positive (not_le.mp here) there
        · rw [if_neg there]
          have tangent := reciprocal_tangent (c := mu * threshold) (s := e + mu * threshold)
            (t := e' + mu * threshold) (by linarith) (by linarith)
          have difference : e' + mu * threshold - (e + mu * threshold) = e' - e := by ring
          rw [difference] at tangent
          linarith

end Family

/-- What the errors of a graph count for: a trusted one for itself, and each other one for its surrogate. -/
noncomputable def surrogateCost (family : Family) (c : ℝ) (trusted : Nat → Bool) (errors : List ℝ) : ℝ :=
  (errors.mapIdx fun slot e => if trusted slot then e else family.surrogate c e).sum

/-- The surrogate cost of new errors is below that of the old ones by at least the descent of the weighted sum. -/
theorem surrogateCost_tangent (family : Family) {mu threshold : ℝ} (positive : 0 < mu * threshold)
    (trusted : Nat → Bool) {errors errors' : List ℝ} (count : errors'.length = errors.length)
    (nonneg : ∀ e ∈ errors, 0 ≤ e) (nonneg' : ∀ e ∈ errors', 0 ≤ e) :
    let weights := Continuation.weights family errors mu threshold trusted
    surrogateCost family (mu * threshold) trusted errors' ≤
      surrogateCost family (mu * threshold) trusted errors +
        ((List.zipWith (· * ·) weights errors').sum - (List.zipWith (· * ·) weights errors).sum) := by
  induction errors generalizing errors' trusted with
  | nil =>
      obtain rfl : errors' = [] := List.length_eq_zero_iff.mp count
      simp [surrogateCost, Continuation.weights]
  | cons e errors ih =>
      obtain ⟨e', errors', rfl⟩ := List.exists_cons_of_length_eq_add_one count
      have rest := ih (fun slot => trusted (slot + 1)) (by simpa using count)
        (fun x member => nonneg x (.tail _ member)) (fun x member => nonneg' x (.tail _ member))
      have first : (if trusted 0 then e' else family.surrogate (mu * threshold) e') ≤
          (if trusted 0 then e else family.surrogate (mu * threshold) e) +
            (if trusted 0 then 1 else family.weight e mu threshold) * (e' - e) := by
        cases trusted 0 with
        | true => simp
        | false => exact family.surrogate_tangent positive (nonneg e (.head _)) (nonneg' e' (.head _))
      simp only [surrogateCost, Continuation.weights, List.mapIdx_cons, List.zipWith_cons_cons, List.sum_cons]
        at rest ⊢
      linarith

end GraduatedFit.Continuation
