import GraduatedFit.Proofs.Surrogate

/-! The shape of the weights: one at small errors, falling with the error, and the more slowly the larger the control
parameter and the threshold are. -/

namespace GraduatedFit.Continuation

section Rational

variable {e e' c c' : ℝ}

theorem rationalWeight_pos (nonneg : 0 ≤ e) (positive : 0 < c) : 0 < rationalWeight e c := by
  rw [rationalWeight_real]
  positivity

theorem rationalWeight_zero (positive : 0 < c) : rationalWeight 0 c = 1 := by
  rw [rationalWeight_real, zero_add, div_self positive.ne', one_pow]

/-- A rational weight falls with the error and rises with the scaled threshold. -/
theorem rationalWeight_le_rationalWeight (nonneg : 0 ≤ e) (larger : e ≤ e') (positive : 0 < c') (smaller : c' ≤ c) :
    rationalWeight e' c' ≤ rationalWeight e c := by
  have here : 0 < e + c := by linarith
  have there : 0 < e' + c' := by linarith
  have products : c' * e ≤ c * e' := mul_le_mul smaller larger nonneg (positive.trans_le smaller).le
  have quotients : c' / (e' + c') ≤ c / (e + c) := by
    rw [div_le_div_iff₀ there here]
    linarith
  rw [rationalWeight_real, rationalWeight_real]
  exact pow_le_pow_left₀ (div_pos positive there).le quotients 2

theorem rationalWeight_le_one (nonneg : 0 ≤ e) (positive : 0 < c) : rationalWeight e c ≤ 1 :=
  (rationalWeight_le_rationalWeight le_rfl nonneg positive le_rfl).trans_eq (rationalWeight_zero positive)

/-- A rational weight is below a square where the share of the scaled threshold is below the root. -/
theorem rationalWeight_lt_sq {share : ℝ} (nonneg : 0 ≤ e) (positive : 0 < c) (below : c < share * (e + c)) :
    rationalWeight e c < share ^ 2 := by
  have total : 0 < e + c := by linarith
  rw [rationalWeight_real]
  exact pow_lt_pow_left₀ ((div_lt_iff₀ total).mpr below) (div_pos positive total).le two_ne_zero

theorem rationalWeight_eq_one_iff (nonneg : 0 ≤ e) (positive : 0 < c) : rationalWeight e c = 1 ↔ e = 0 := by
  constructor
  · intro even
    by_contra nonzero
    have above : 0 < e := nonneg.lt_of_ne' nonzero
    have below : rationalWeight e c < 1 ^ 2 := rationalWeight_lt_sq nonneg positive (by linarith)
    rw [even, one_pow] at below
    exact below.false
  · rintro rfl
    exact rationalWeight_zero positive

theorem rationalWeight_lt_quarter (positive : 0 < c) (outside : c < e) : rationalWeight e c < 1 / 4 := by
  have below : rationalWeight e c < (1 / 2) ^ 2 :=
    rationalWeight_lt_sq (positive.trans outside).le positive (by linarith)
  norm_num at below
  linarith

end Rational

section Weights

variable {e e' mu mu' threshold threshold' : ℝ}

theorem gemanMcClureWeight_eq_rational (positive : 0 < mu * threshold) :
    gemanMcClureWeight e mu threshold = rationalWeight e (mu * threshold) := by
  rw [gemanMcClureWeight_real positive, rationalWeight_real]

theorem truncatedWeight_eq_rational (outside : mu * threshold < e) :
    truncatedWeight e mu threshold = rationalWeight e (mu * threshold) := by
  rw [truncatedWeight_outside outside, rationalWeight_real]

/-- Past the scaled threshold a truncated weight jumps below a quarter. -/
theorem truncatedWeight_lt_quarter (positive : 0 < mu * threshold) (outside : mu * threshold < e) :
    truncatedWeight e mu threshold < 1 / 4 := by
  rw [truncatedWeight_eq_rational outside]
  exact rationalWeight_lt_quarter positive outside

theorem truncatedWeight_eq_one_iff (positive : 0 < mu * threshold) :
    truncatedWeight e mu threshold = 1 ↔ e ≤ mu * threshold := by
  refine ⟨fun even => ?_, truncatedWeight_inside⟩
  by_contra outside
  have below := truncatedWeight_lt_quarter positive (not_le.mp outside)
  rw [even] at below
  norm_num at below

theorem gemanMcClureWeight_eq_one_iff (nonneg : 0 ≤ e) (positive : 0 < mu * threshold) :
    gemanMcClureWeight e mu threshold = 1 ↔ e = 0 := by
  rw [gemanMcClureWeight_eq_rational positive]
  exact rationalWeight_eq_one_iff nonneg positive

/-- The two families differ inside of the scaled threshold, where truncated losses keep all of the weight. -/
theorem gemanMcClureWeight_le_truncatedWeight (nonneg : 0 ≤ e) (positive : 0 < mu * threshold) :
    gemanMcClureWeight e mu threshold ≤ truncatedWeight e mu threshold := by
  rw [gemanMcClureWeight_eq_rational positive]
  rcases le_or_gt e (mu * threshold) with inside | outside
  · rw [truncatedWeight_inside inside]
    exact rationalWeight_le_one nonneg positive
  · rw [truncatedWeight_eq_rational outside]

namespace Family

/-- Errors that are not negative have positive weights of at most one. -/
theorem weight_unit (family : Family) (nonneg : 0 ≤ e) (positive : 0 < mu * threshold) :
    0 < family.weight e mu threshold ∧ family.weight e mu threshold ≤ 1 := by
  have rational := And.intro (rationalWeight_pos nonneg positive) (rationalWeight_le_one nonneg positive)
  cases family with
  | gemanMcClure =>
      rw [weight, gemanMcClureWeight_eq_rational positive]
      exact rational
  | truncatedLeastSquares =>
      rw [weight]
      rcases le_or_gt e (mu * threshold) with inside | outside
      · rw [truncatedWeight_inside inside]
        exact ⟨one_pos, le_rfl⟩
      · rw [truncatedWeight_eq_rational outside]
        exact rational

/-- A weight falls with the error and rises with the control parameter and the threshold, also across the jump of
truncated losses: an error that is inside stays inside. -/
theorem weight_le_weight (family : Family) (nonneg : 0 ≤ e) (larger : e ≤ e') (positive : 0 < mu') (smaller : mu' ≤ mu)
    (positive' : 0 < threshold') (smaller' : threshold' ≤ threshold) :
    family.weight e' mu' threshold' ≤ family.weight e mu threshold := by
  have scaled : 0 < mu' * threshold' := mul_pos positive positive'
  have below : mu' * threshold' ≤ mu * threshold :=
    mul_le_mul smaller smaller' positive'.le (positive.trans_le smaller).le
  have rational := rationalWeight_le_rationalWeight nonneg larger scaled below
  cases family with
  | gemanMcClure =>
      rw [weight, gemanMcClureWeight_eq_rational scaled, gemanMcClureWeight_eq_rational (scaled.trans_le below)]
      exact rational
  | truncatedLeastSquares =>
      rcases le_or_gt e (mu * threshold) with inside | outside
      · have full : truncatedLeastSquares.weight e mu threshold = 1 := truncatedWeight_inside inside
        rw [full]
        exact (truncatedLeastSquares.weight_unit (nonneg.trans larger) scaled).2
      · have outside' : mu' * threshold' < e' := (below.trans_lt outside).trans_le larger
        rw [weight, truncatedWeight_eq_rational outside, truncatedWeight_eq_rational outside']
        exact rational

end Family

end Weights

section Slots

variable {K : Type} [Scalar K] (family : Family) (errors : List K) (mu threshold : K) (pinned : Nat → Bool)

@[simp]
theorem length_weights : (weights family errors mu threshold pinned).length = errors.length := List.length_mapIdx

theorem getElem?_weights (slot : Nat) : (weights family errors mu threshold pinned)[slot]? =
    errors[slot]?.map fun e => if pinned slot then 1 else family.weight e mu threshold := List.getElem?_mapIdx

end Slots

open Family

/-- Weights are positive and at most one. They fall with the error and rise with the control parameter and the threshold,
all three at once. Truncated losses keep all of the weight up to the scaled threshold and less than a quarter past it,
Geman-McClure losses keep all of it at zero only, and never more than truncated ones. Errors are weighed in the order of
their slots, and a pinned slot has weight one. -/
theorem weights_shaped {e mu threshold : ℝ} (nonneg : 0 ≤ e) (positive : 0 < mu) (positive' : 0 < threshold) :
    (∀ family : Family,
      (0 < family.weight e mu threshold ∧ family.weight e mu threshold ≤ 1) ∧
      ∀ e' mu' threshold', e ≤ e' → 0 < mu' → mu' ≤ mu → 0 < threshold' → threshold' ≤ threshold →
        family.weight e' mu' threshold' ≤ family.weight e mu threshold) ∧
    (truncatedLeastSquares.weight e mu threshold = 1 ↔ e ≤ mu * threshold) ∧
    (gemanMcClure.weight e mu threshold = 1 ↔ e = 0) ∧
    (truncatedLeastSquares.weight e mu threshold ≠ 1 → truncatedLeastSquares.weight e mu threshold < 1 / 4) ∧
    gemanMcClure.weight e mu threshold ≤ truncatedLeastSquares.weight e mu threshold ∧
    ∀ (K : Type) [Scalar K] (family : Family) (errors : List K) (m b : K) (pinned : Nat → Bool),
      (weights family errors m b pinned).length = errors.length ∧
      ∀ slot e, errors[slot]? = some e →
        (weights family errors m b pinned)[slot]? = some (if pinned slot then 1 else family.weight e m b) := by
  have scaled : 0 < mu * threshold := mul_pos positive positive'
  have inside := truncatedWeight_eq_one_iff (e := e) scaled
  refine ⟨fun family => ⟨family.weight_unit nonneg scaled, ?_⟩, inside, gemanMcClureWeight_eq_one_iff nonneg scaled,
    fun less => truncatedWeight_lt_quarter scaled (not_le.mp (mt inside.mpr less)),
    gemanMcClureWeight_le_truncatedWeight nonneg scaled, ?_⟩
  · intro e' mu' threshold' larger low smaller low' smaller'
    exact family.weight_le_weight nonneg larger low smaller low' smaller'
  · intro K _ family errors m b pinned
    refine ⟨length_weights family errors m b pinned, fun slot e found => ?_⟩
    rw [getElem?_weights, found, Option.map_some]

/-- An error at the scaled threshold loses more than three quarters of its weight when the control parameter is halved,
unless it is pinned. -/
theorem halved_shaped : (0 : ℝ) ≤ 1 ∧ (0 : ℝ) < 1 / 2 ∧ (0 : ℝ) < 1 ∧
    truncatedLeastSquares.weight (1 : ℝ) 1 1 = 1 ∧ gemanMcClure.weight (1 : ℝ) 1 1 ≠ 1 ∧
    (∀ family : Family, family.weight (1 : ℝ) (1 / 2) 1 ≤ family.weight 1 1 1) ∧
    truncatedLeastSquares.weight (1 : ℝ) (1 / 2) 1 < 1 / 4 ∧
    (weights truncatedLeastSquares [(1 : ℝ), 1] (1 / 2) 1 (· == 1))[0]? =
      some (truncatedLeastSquares.weight 1 (1 / 2) 1) ∧
    (weights truncatedLeastSquares [(1 : ℝ), 1] (1 / 2) 1 (· == 1))[1]? = some 1 := by
  have low : (0 : ℝ) < 1 / 2 := by norm_num
  obtain ⟨each, inside, zero, -⟩ := weights_shaped (zero_le_one' ℝ) one_pos one_pos
  obtain ⟨-, inside', -, quarter, -, slots⟩ := weights_shaped (zero_le_one' ℝ) low one_pos
  obtain ⟨-, entries⟩ := slots ℝ truncatedLeastSquares [1, 1] (1 / 2) 1 (· == 1)
  refine ⟨zero_le_one, low, one_pos, inside.mpr (by norm_num), mt zero.mp one_ne_zero, fun family => ?_,
    quarter (mt inside'.mp (by norm_num)), entries 0 1 rfl, entries 1 1 rfl⟩
  exact (each family).2 1 (1 / 2) 1 le_rfl low (by norm_num) one_pos le_rfl

end GraduatedFit.Continuation
