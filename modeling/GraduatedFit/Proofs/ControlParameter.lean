import GraduatedFit.Proofs.InlierThreshold

/-! How the control parameter moves in exact arithmetic: upwards by a constant factor, or downwards by one until it is
one. -/

namespace GraduatedFit.Continuation

theorem largestError_le_iff {errors : List ℝ} {bound : ℝ} :
    largestError errors ≤ bound ↔ 0 ≤ bound ∧ ∀ e ∈ errors, e ≤ bound := by
  suffices ∀ start : ℝ, errors.foldl (fun largest e => if Scalar.isNaN e || Scalar.lt largest e then e else largest)
      start ≤ bound ↔ start ≤ bound ∧ ∀ e ∈ errors, e ≤ bound from this 0
  induction errors with
  | nil => simp
  | cons e errors ih =>
      intro start
      rw [List.foldl_cons, ih, List.forall_mem_cons, ← and_assoc]
      refine and_congr_left fun _ => ?_
      simp only [Scalar.isNaN_real, Scalar.lt_real, Bool.false_or, decide_eq_true_eq]
      split
      · rename_i below
        exact ⟨fun bounded => ⟨below.le.trans bounded, bounded⟩, And.right⟩
      · rename_i above
        exact ⟨fun bounded => ⟨bounded, (not_lt.mp above).trans bounded⟩, And.left⟩

/-- The largest error is the greatest one, unless that is negative. -/
theorem largestError_eq {errors : List ℝ} {worst : ℝ} (greatest : IsGreatest {e | e ∈ errors} worst)
    (nonneg : 0 ≤ worst) : largestError errors = worst := by
  have above : largestError errors ≤ worst := largestError_le_iff.mpr ⟨nonneg, fun _ member => greatest.2 member⟩
  obtain ⟨-, below⟩ := largestError_le_iff.mp (le_refl (largestError errors))
  exact le_antisymm above (below worst greatest.1)

/-- What a growing power of a step reaches, it reaches first somewhere. -/
theorem exists_isLeast_pow {step scale : ℝ} (growing : 1 < step) (positive : 0 < scale) (start : Nat) (bound : ℝ) :
    ∃ n, IsLeast {n : Nat | start ≤ n ∧ bound ≤ scale * step ^ n} n := by
  obtain ⟨m, beyond⟩ := pow_unbounded_of_one_lt (bound / scale) growing
  have enough : bound ≤ scale * step ^ (start + m) := by
    rw [← div_le_iff₀' positive]
    exact beyond.le.trans (pow_le_pow_right₀ growing.le (Nat.le_add_left m start))
  have reached : {n : Nat | start ≤ n ∧ bound ≤ scale * step ^ n}.Nonempty := ⟨_, start.le_add_right m, enough⟩
  exact ⟨_, Nat.sInf_mem reached, fun _ => Nat.sInf_le⟩

/-- From index one on a sequence falls by a constant factor and stays above one, until an index from which on it is one.
Its first value may be anything. -/
structure FallsToOne (mu : Nat → ℝ) (step : ℝ) (n : Nat) : Prop where
  above : ∀ i, 1 ≤ i → i < n → mu i = mu 0 / step ^ i ∧ 1 < mu i
  falls : ∀ i, 1 ≤ i → i < n → mu (i + 1) < mu i
  one : ∀ i, 1 ≤ i → n ≤ i → mu i = 1

theorem FallsToOne.eq_one_iff {mu : Nat → ℝ} {step : ℝ} {n i : Nat} (falls : FallsToOne mu step n) (later : 1 ≤ i) :
    mu i = 1 ↔ n ≤ i := by
  refine ⟨fun one => ?_, falls.one i later⟩
  by_contra before
  obtain ⟨-, above⟩ := falls.above i later (not_le.mp before)
  exact above.ne one.symm

namespace Optimizer

variable {o : Optimizer ℝ} {mu : ℝ}

section Truncated

variable (truncated : o.config.family = .truncatedLeastSquares)
include truncated

/-- Successive control parameters are apart by a multiple of the smaller one. -/
theorem muConverged_truncated_iff (positive : 0 < mu) (growing : 1 < o.config.muStep) :
    o.muConverged (o.nextMu mu) mu = true ↔ mu * (o.config.muStep - 1) ≤ o.config.costTolerance := by
  have apart : mu * o.config.muStep - mu = mu * (o.config.muStep - 1) := by ring
  have nonneg : 0 ≤ mu * (o.config.muStep - 1) := mul_nonneg positive.le (by linarith)
  rw [muConverged, nextMu, truncated, Family.nextMu, Family.muConverged, Scalar.abs_real, Scalar.le_real, apart,
    abs_of_nonneg nonneg, decide_eq_true_iff]

theorem muAt_truncated_le (nonneg : 0 ≤ mu) (growing : 1 < o.config.muStep) (i : Nat) : mu ≤ o.muAt mu i := by
  rw [muAt_truncated truncated]
  exact le_mul_of_one_le_right nonneg (one_le_pow₀ growing.le)

end Truncated

section GemanMcClure

variable (falling : o.config.family = .gemanMcClure)
include falling

theorem muConverged_gemanMcClure_iff : o.muConverged (o.nextMu mu) mu = true ↔ o.nextMu mu = 1 := by
  rw [muConverged, falling, Family.muConverged, Scalar.eq_real, decide_eq_true_iff]

/-- With Geman-McClure losses the control parameter falls by the same factor in every iteration, but not below one. -/
theorem muAt_gemanMcClure (growing : 1 < o.config.muStep) (i : Nat) :
    o.muAt mu (i + 1) = max (mu / o.config.muStep ^ (i + 1)) 1 := by
  have next (x : ℝ) : o.nextMu x = max (x / o.config.muStep) 1 := by
    rw [nextMu, falling, Family.nextMu, Scalar.max_real]
  induction i with
  | zero => rw [muAt_succ, muAt_zero, next, zero_add, pow_one]
  | succ i ih =>
      have positive : 0 < o.config.muStep := one_pos.trans growing
      have below : 1 / o.config.muStep ≤ 1 := (div_le_one positive).mpr growing.le
      rw [muAt_succ, ih, next, ← max_div_div_right positive.le, max_assoc, max_eq_right below, div_div, ← pow_succ]

/-- The first power that reaches the control parameter to begin with says when it is one. -/
theorem muAt_fallsToOne (growing : 1 < o.config.muStep) {n : Nat}
    (least : IsLeast {n : Nat | 1 ≤ n ∧ mu ≤ o.config.muStep ^ n} n) : FallsToOne (o.muAt mu) o.config.muStep n := by
  have power (i : Nat) : 0 < o.config.muStep ^ i := pow_pos (one_pos.trans growing) i
  have above (i : Nat) (before : i + 1 < n) : 1 < mu / o.config.muStep ^ (i + 1) := by
    rw [one_lt_div (power _)]
    by_contra within
    exact before.not_ge (least.2 ⟨Nat.le_add_left 1 i, not_lt.mp within⟩)
  refine ⟨fun i later before => ?_, fun i later before => ?_, fun i later reached => ?_⟩ <;>
    obtain ⟨i, rfl⟩ := Nat.exists_eq_add_of_le' later
  · rw [muAt_gemanMcClure falling growing, max_eq_left (above i before).le]
    exact ⟨rfl, above i before⟩
  · have positive : 0 < mu := (div_pos_iff_of_pos_right (power _)).mp (one_pos.trans (above i before))
    have smaller : mu / o.config.muStep ^ (i + 1 + 1) < mu / o.config.muStep ^ (i + 1) :=
      div_lt_div_of_pos_left positive (power _) (pow_lt_pow_right₀ growing (Nat.lt_succ_self _))
    rw [muAt_gemanMcClure falling growing, muAt_gemanMcClure falling growing, max_eq_left (above i before).le]
    exact max_lt smaller (above i before)
  · have below : mu ≤ o.config.muStep ^ (i + 1) := least.1.2.trans (pow_le_pow_right₀ growing.le reached)
    rw [muAt_gemanMcClure falling growing, max_eq_right ((div_le_one (power _)).mpr below)]

end GemanMcClure

end Optimizer

end GraduatedFit.Continuation
