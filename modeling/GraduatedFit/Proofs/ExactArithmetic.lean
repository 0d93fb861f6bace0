import Mathlib
import GraduatedFit.Vec

/-! The real numbers as scalars: every operation is exact and every number is finite. -/

namespace GraduatedFit

/-- A quotient by zero is zero. A deviation under a weight of zero is zero here and infinite in floating point; either
way it whitens to zero. -/
noncomputable instance : Scalar ℝ where
  sqrt := Real.sqrt
  log := Real.log
  lt a b := decide (a < b)
  le a b := decide (a ≤ b)
  eq a b := decide (a = b)
  finite _ := true
  epsilon := 2.0 ^ (-52 : ℤ)
  tiny := 2.0 ^ (-1022 : ℤ)

namespace Scalar

@[simp]
theorem lt_real (a b : ℝ) : lt a b = decide (a < b) := rfl

@[simp]
theorem le_real (a b : ℝ) : le a b = decide (a ≤ b) := rfl

@[simp]
theorem eq_real (a b : ℝ) : eq a b = decide (a = b) := rfl

@[simp]
theorem finite_real (a : ℝ) : finite a = true := rfl

@[simp]
theorem sqrt_real (a : ℝ) : sqrt a = √a := rfl

theorem two_real : (2.0 : ℝ) = 2 := by norm_num

@[simp]
theorem isNaN_real (a : ℝ) : isNaN a = false := by simp [isNaN]

@[simp]
theorem abs_real (a : ℝ) : abs a = |a| := by
  unfold abs
  rcases lt_or_ge a 0 with negative | nonneg
  · simp [negative, abs_of_neg]
  · simp [nonneg.not_gt, abs_of_nonneg nonneg]

@[simp]
theorem max_real (a b : ℝ) : Scalar.max a b = a ⊔ b := by
  unfold Scalar.max
  rcases lt_or_ge a b with below | above
  · simp [below, below.le]
  · simp [above, above.not_gt]

@[simp]
theorem min_real (a b : ℝ) : Scalar.min a b = a ⊓ b := by
  unfold Scalar.min
  rcases lt_or_ge b a with below | above
  · simp [below, below.le]
  · simp [above, above.not_gt]

@[simp]
theorem positive_real (a : ℝ) : positive a = decide (0 < a) := by simp [positive]

@[simp]
theorem nonNegative_real (a : ℝ) : nonNegative a = decide (0 ≤ a) := by simp [nonNegative]

end Scalar

namespace Vec

@[simp]
theorem sum_real (xs : Vec ℝ) : Vec.sum xs = List.sum xs := by
  rw [List.sum_eq_foldl]
  rfl

theorem dot_real (a b : Vec ℝ) : Vec.dot a b = (List.zipWith (· * ·) a b).sum := sum_real _

theorem normSq_real (a : Vec ℝ) : Vec.normSq a = (a.map fun x => x * x).sum := sum_real _

theorem normSq_nonneg (a : Vec ℝ) : 0 ≤ Vec.normSq a := by
  rw [normSq_real]
  apply List.sum_nonneg
  intro square member
  obtain ⟨x, -, rfl⟩ := List.mem_map.mp member
  exact mul_self_nonneg x

/-- A sum over a list by positions. -/
theorem sum_eq_range (xs : List ℝ) : xs.sum = ∑ i ∈ Finset.range xs.length, xs.getD i 0 := by
  induction xs with
  | nil => simp
  | cons x xs ih =>
      rw [List.sum_cons, List.length_cons, Finset.sum_range_succ', ih, add_comm]
      simp

theorem dot_eq_range (a b : Vec ℝ) (n : Nat) (left : a.length = n) (right : b.length = n) :
    Vec.dot a b = ∑ i ∈ Finset.range n, a.getD i 0 * b.getD i 0 := by
  rw [dot_real, sum_eq_range]
  have length : (List.zipWith (· * ·) a b).length = n := by simp [left, right]
  rw [length]
  apply Finset.sum_congr rfl
  intro i inside
  have bound := Finset.mem_range.mp inside
  simp [List.getD_eq_getElem?_getD, left, right, bound]

end Vec

end GraduatedFit
