import GraduatedFit.Proofs.AffineFactors
import GraduatedFit.Proofs.ScaledSystem

/-! The linearization of a measured distance lies below the distance: it is a tangent of a convex function. -/

namespace GraduatedFit

namespace Vec

variable {a b d e u : Vec ℝ} {n : Nat}

theorem dot_zipWith_add (left : a.length = n) (right : b.length = n) (wide : u.length = n) :
    dot u (List.zipWith (· + ·) a b) = dot u a + dot u b := by
  have sum : (List.zipWith (· + ·) a b).length = n := by rw [List.length_zipWith, left, right, min_self]
  rw [dot_eq_range _ _ n wide sum, dot_eq_range _ _ n wide left, dot_eq_range _ _ n wide right, ← Finset.sum_add_distrib]
  exact Finset.sum_congr rfl fun i _ => by rw [getD_zipWith_add (left.trans right.symm), mul_add]

/-- A vector and its opposite side by side, applied to two vectors side by side. -/
theorem dot_opposite (left : a.length = n) (right : b.length = n) (wide : u.length = n) :
    dot (u ++ u.map (- ·)) (a ++ b) = dot u (List.zipWith (· - ·) a b) := by
  have opposite : dot (u.map (- ·)) b = dot u (b.map (- ·)) := by
    rw [dot_real, dot_real, List.zipWith_map_left, List.zipWith_map_right]
    simp only [neg_mul, mul_neg]
  rw [Factor.zipWith_sub_eq_add, dot_zipWith_add left (by simp [right]) wide, ← opposite, dot_real, dot_real, dot_real,
    List.zipWith_append (wide.trans left.symm), List.sum_append]

theorem dot_le_norm (left : a.length = n) (right : b.length = n) : dot a b ≤ norm a * norm b := by
  rw [dot_eq_range _ _ n left right, norm, norm, normSq_eq_range _ left, normSq_eq_range _ right]
  exact Real.sum_mul_le_sqrt_mul_sqrt _ _ _

theorem norm_neg (a : Vec ℝ) : norm (a.map (- ·)) = norm a := by
  have opposite := normSq_scaled (-1) a
  simp only [neg_one_mul] at opposite
  rw [norm, norm, opposite, neg_one_sq, one_mul]

theorem norm_zeros (n : Nat) : norm (List.replicate n (0 : ℝ)) = 0 := by
  rw [norm, normSq_real]
  simp

/-- What a vector of at most the norm one measures of the sum of two vectors is at most the norm of the sum. -/
theorem dot_add_le_norm (left : d.length = n) (right : e.length = n) (wide : u.length = n) (short : norm u ≤ 1) :
    dot u d + dot u e ≤ norm (List.zipWith (· + ·) d e) := by
  have sum : (List.zipWith (· + ·) d e).length = n := by rw [List.length_zipWith, left, right, min_self]
  calc
    dot u d + dot u e = dot u (List.zipWith (· + ·) d e) := (dot_zipWith_add left right wide).symm
    _ ≤ norm u * norm (List.zipWith (· + ·) d e) := dot_le_norm wide sum
    _ ≤ norm (List.zipWith (· + ·) d e) := mul_le_of_le_one_left (Real.sqrt_nonneg _) short

end Vec

namespace Factor

open Vec

/-- The unit vector along a difference, or zero where the difference is none. -/
noncomputable def direction (d : Vec ℝ) : Vec ℝ := d.map (· / norm d)

variable {d x y : Vec ℝ} {n : Nat}

theorem length_direction (d : Vec ℝ) : (direction d).length = d.length := List.length_map _

theorem dot_direction (d : Vec ℝ) : dot (direction d) d = norm d := by
  have square : dot d d = norm d * norm d := by
    rw [← normSq_eq_dot]
    exact (Real.mul_self_sqrt (normSq_nonneg d)).symm
  have quotient : dot (direction d) d = norm d * norm d / norm d := by
    simp only [direction, div_eq_mul_inv, dot_scaled, square, mul_comm]
  rw [quotient, mul_self_div_self]

theorem norm_direction (d : Vec ℝ) : norm (direction d) = if norm d = 0 then 0 else 1 := by
  have scaled : normSq (direction d) = (norm d)⁻¹ ^ 2 * normSq d := by
    rw [direction, ← normSq_scaled]
    simp only [div_eq_inv_mul]
  have length : 0 ≤ norm d := Real.sqrt_nonneg _
  have root : norm (direction d) = (norm d)⁻¹ * norm d := by
    rw [Vec.norm, scaled, Scalar.sqrt_real, Real.sqrt_mul (sq_nonneg _), Real.sqrt_sq (inv_nonneg.mpr length)]
    rfl
  rw [root]
  split
  · rename_i zero
    rw [zero, inv_zero, zero_mul]
  · rename_i nonzero
    exact inv_mul_cancel₀ nonzero

theorem norm_direction_le (d : Vec ℝ) : norm (direction d) ≤ 1 := by
  rw [norm_direction]
  split <;> norm_num

/-- Equal points, or points that are more than a rounding apart. -/
def Apart (x y : Vec ℝ) : Prop := x = y ∨ Scalar.epsilon < norm (List.zipWith (· - ·) x y)

theorem difference_self (x : Vec ℝ) : List.zipWith (· - ·) x x = List.replicate x.length 0 := by
  rw [List.zipWith_self]
  simp

theorem epsilon_pos : (0 : ℝ) < Scalar.epsilon := by
  norm_num [Scalar.epsilon]

/-- Between points that are apart there is a distance that counts unless they are equal. -/
theorem Apart.epsilon_lt_iff (apart : Apart x y) : Scalar.epsilon < norm (List.zipWith (· - ·) x y) ↔ x ≠ y := by
  rcases apart with rfl | distant
  · rw [difference_self, norm_zeros]
    simp [epsilon_pos.le]
  · refine iff_of_true distant ?_
    rintro rfl
    rw [difference_self, norm_zeros] at distant
    exact absurd (distant.trans epsilon_pos) (lt_irrefl _)

theorem Apart.norm_direction (apart : Apart x y) :
    norm (direction (List.zipWith (· - ·) x y)) = if x = y then 0 else 1 := by
  rw [Factor.norm_direction]
  refine if_congr ?_ rfl rfl
  by_cases same : x = y
  · subst same
    rw [difference_self, norm_zeros]
    simp
  · have distant := apart.epsilon_lt_iff.mpr same
    exact iff_of_false (epsilon_pos.trans distant).ne' same

/-- A row for two points of a dimension. -/
theorem regular_row {row : Vec ℝ} (wide : row.length = 2 * n) :
    ∃ J, Mat.ofRows? (2 * n) [row] = some J ∧ J.width = 2 * n ∧ J.rows = [row] :=
  ⟨_, dif_pos (by simpa using wide), rfl, rfl⟩

/-- The row of a range has the unit vector in its first half and the opposite in its second. -/
theorem rangeJacobian_exists (length : d.length = n) : ∃ J, rangeJacobian? n d = some J ∧ J.width = 2 * n ∧
    J.rows = [if Scalar.epsilon < norm d then direction d ++ (direction d).map (- ·) else List.replicate (2 * n) 0] := by
  unfold rangeJacobian?
  simp only [Scalar.lt_real, decide_eq_true_eq]
  split
  · rw [if_pos length.ge, List.take_of_length_le length.le]
    exact regular_row (by simp [length, two_mul])
  · exact regular_row List.length_replicate

theorem Apart.row_eq (apart : Apart x y) (left : x.length = n) :
    let d := List.zipWith (· - ·) x y
    (if Scalar.epsilon < norm d then direction d ++ (direction d).map (- ·) else List.replicate (2 * n) 0) =
      direction d ++ (direction d).map (- ·) := by
  intro d
  split
  · rfl
  · rename_i near
    have same : x = y := not_not.mp (mt apart.epsilon_lt_iff.mpr near)
    have zeros : d = List.replicate n 0 := by
      rw [show d = List.zipWith (· - ·) x y from rfl, ← same, difference_self, left]
    rw [zeros]
    simp [direction, norm_zeros, two_mul]

theorem difference?_eq (same : x.length = y.length) : difference? [x, y] = some (List.zipWith (· - ·) x y) := by
  simp [difference?, sub?, zip?, same]

theorem linearize_distance (range : ℝ) (same : x.length = y.length) {J : Mat ℝ}
    (row : rangeJacobian? n (List.zipWith (· - ·) x y) = some J) (wanted : Bool) :
    (distance range n).linearize? [x, y] wanted =
      some ([norm (List.zipWith (· - ·) x y) - range], if wanted then some J else none) := by
  cases wanted <;> simp [distance, ofParts, difference?_eq same, row]

/-- The difference of displaced points is displaced by the difference of the displacements. -/
theorem difference_moved {h k : Vec ℝ} : List.zipWith (· - ·) (List.zipWith (· + ·) x h) (List.zipWith (· + ·) y k) =
    List.zipWith (· + ·) (List.zipWith (· - ·) x y) (List.zipWith (· - ·) h k) := by
  refine List.ext_getElem (by simp only [List.length_zipWith]; omega) fun i _ _ => ?_
  simp only [List.getElem_zipWith]
  ring

theorem difference_translated {v : Vec ℝ} (left : x.length = n) (wide : v.length = n) :
    List.zipWith (· - ·) (List.zipWith (· + ·) x v) (List.zipWith (· + ·) y v) = List.zipWith (· - ·) x y := by
  refine List.ext_getElem (by simp only [List.length_zipWith]; omega) fun i _ _ => ?_
  simp only [List.getElem_zipWith, add_sub_add_right_eq_sub]

theorem range_made {range : ℝ} (nonneg : 0 ≤ range) (positive : 0 < n) : Factor.range range n = .ok (distance range n) := by
  simp [Factor.range, nonneg, positive.ne']

/-- The linearization of a distance lies below the distance, with rows that are opposite in their halves, and it does not
change where both points are moved alike. -/
theorem distance_linearizes (range : ℝ) (left : x.length = n) (right : y.length = n) (apart : Apart x y) :
    (0 ≤ range → 0 < n → Factor.range range n = .ok (distance range n)) ∧
    ∃ (r : ℝ) (u : Vec ℝ) (J : Mat ℝ), (distance range n).linearize? [x, y] true = some ([r], some J) ∧
      J.width = 2 * n ∧ J.rows = [u ++ u.map (- ·)] ∧ u.length = n ∧
      norm u = (if x = y then 0 else 1) ∧ norm (u.map (- ·)) = (if x = y then 0 else 1) ∧
      (∀ h k : Vec ℝ, h.length = n → k.length = n → ∃ r' s : ℝ,
        (∀ wanted, ∃ J', (distance range n).linearize? [List.zipWith (· + ·) x h, List.zipWith (· + ·) y k] wanted =
          some ([r'], J')) ∧
        J.mulVec? (h ++ k) = some [s] ∧ r + s ≤ r') ∧
      ∀ v : Vec ℝ, v.length = n →
        (distance range n).linearize? [List.zipWith (· + ·) x v, List.zipWith (· + ·) y v] true = some ([r], some J) := by
  refine ⟨range_made, ?_⟩
  set d := List.zipWith (· - ·) x y with difference
  have length : d.length = n := by rw [difference, List.length_zipWith, left, right, min_self]
  have wide : (direction d).length = n := (length_direction d).trans length
  obtain ⟨J, row, width, rows⟩ := rangeJacobian_exists length
  rw [apart.row_eq left] at rows
  refine ⟨norm d - range, direction d, J, linearize_distance range (left.trans right.symm) row true, width, rows, wide,
    apart.norm_direction, (norm_neg _).trans apart.norm_direction, fun h k moves moves' => ?_, fun v moves => ?_⟩
  · set e := List.zipWith (· - ·) h k with displacement
    have size : e.length = n := by rw [displacement, List.length_zipWith, moves, moves', min_self]
    have moved : (List.zipWith (· + ·) d e).length = n := by rw [List.length_zipWith, length, size, min_self]
    obtain ⟨J', row', -⟩ := rangeJacobian_exists moved
    have sizes : (List.zipWith (· + ·) x h).length = (List.zipWith (· + ·) y k).length := by
      rw [List.length_zipWith, List.length_zipWith, left, right, moves, moves']
    rw [difference, displacement, ← difference_moved] at row'
    refine ⟨norm (List.zipWith (· + ·) d e) - range, dot (direction d) e,
      fun wanted => ⟨_, by rw [linearize_distance range sizes row', difference_moved]⟩, ?_, ?_⟩
    · rw [Mat.mulVec?, if_pos (by rw [width, List.length_append, moves, moves', two_mul]), rows, List.map_singleton,
        dot_opposite moves moves' wide]
    · have above := dot_add_le_norm length size wide (norm_direction_le d)
      rw [dot_direction] at above
      linarith
  · have sizes : (List.zipWith (· + ·) x v).length = (List.zipWith (· + ·) y v).length := by
      rw [List.length_zipWith, List.length_zipWith, left, right]
    have translated := difference_translated (y := y) left moves
    rw [linearize_distance range sizes (by rw [translated]; exact row), translated]
    rfl

/-- A point at a distance of five from the origin, and its image across the first axis. -/
theorem five_linearizes : List.length [(3 : ℝ), 4] = 2 ∧ List.length [(0 : ℝ), 0] = 2 ∧ Apart [3, 4] [0, 0] ∧
    Factor.range (4 : ℝ) 2 = .ok (distance 4 2) ∧
    ∃ (r : ℝ) (u : Vec ℝ) (J : Mat ℝ), (distance 4 2).linearize? [[3, 4], [0, 0]] true = some ([r], some J) ∧
      J.rows = [u ++ u.map (- ·)] ∧ norm u = 1 ∧
      ∃ r' s : ℝ, (∃ J', (distance 4 2).linearize? [[3, -4], [0, 0]] true = some ([r'], J')) ∧
        J.mulVec? [0, -8, 0, 0] = some [s] ∧ r + s ≤ r' := by
  have differ : [(3 : ℝ), 4] ≠ [0, 0] := by simp
  have five : norm (List.zipWith (· - ·) [(3 : ℝ), 4] [0, 0]) = 5 := by
    rw [Vec.norm, normSq_real, Scalar.sqrt_real]
    norm_num
  have apart : Apart [(3 : ℝ), 4] [0, 0] := .inr (by rw [five]; norm_num [Scalar.epsilon])
  obtain ⟨made, r, u, J, here, -, rows, -, unit, -, moved, -⟩ :=
    distance_linearizes 4 (show List.length [(3 : ℝ), 4] = 2 from rfl) (show List.length [(0 : ℝ), 0] = 2 from rfl) apart
  rw [if_neg differ] at unit
  obtain ⟨r', s, there, image, above⟩ := moved [0, -8] [0, 0] rfl rfl
  have across : [List.zipWith (· + ·) [(3 : ℝ), 4] [0, -8], List.zipWith (· + ·) [(0 : ℝ), 0] [0, 0]] =
      [[3, -4], [0, 0]] := by norm_num
  rw [across] at there
  exact ⟨rfl, rfl, apart, made (by norm_num) two_pos, r, u, J, here, rows, unit, r', s, there true, image, above⟩

end Factor

end GraduatedFit
