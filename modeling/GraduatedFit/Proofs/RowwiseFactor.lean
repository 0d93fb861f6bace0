import GraduatedFit.Proofs.CholeskyFactor

/-! The factor of a symmetric matrix row by row: each entry comes from those before it in its row and in the row of its
column. The matrix is positive definite exactly if no row leaves the diagonal with nothing. -/

namespace GraduatedFit

namespace Symmetric

/-- The entries of the factor. They are of use as far as the pivots are positive. -/
noncomputable def factorEntry (S : Symmetric ℝ) (i j : Nat) : ℝ :=
  if i < j then 0
  else
    let rest := S.get i j - ∑ m : Fin j, factorEntry S i m * factorEntry S j m
    if i = j then √rest else rest / factorEntry S j j
termination_by (i, j)
decreasing_by
  · exact Prod.Lex.right i m.isLt
  · rename_i within
    rcases Nat.lt_or_eq_of_le (Nat.le_of_not_lt within) with below | same
    · exact Prod.Lex.left _ _ below
    · exact same ▸ Prod.Lex.right j m.isLt
  · exact Prod.Lex.left _ _ (by omega)

/-- What the columns before `j` leave of an entry in it. -/
noncomputable def remainder (S : Symmetric ℝ) (i j : Nat) : ℝ :=
  S.get i j - ∑ m ∈ Finset.range j, S.factorEntry i m * S.factorEntry j m

variable {S : Symmetric ℝ} {i j : Nat}

theorem factorEntry_above (above : i < j) : S.factorEntry i j = 0 := by
  rw [factorEntry, if_pos above]

theorem factorEntry_diagonal (S : Symmetric ℝ) (i : Nat) : S.factorEntry i i = √(S.remainder i i) := by
  rw [factorEntry, if_neg (lt_irrefl i), remainder, Finset.sum_range]
  simp

theorem factorEntry_below (below : j < i) : S.factorEntry i j = S.remainder i j / S.factorEntry j j := by
  rw [factorEntry, if_neg below.not_gt, remainder, Finset.sum_range]
  simp [below.ne']

/-- An entry of the matrix on or below the diagonal is the product of two rows of the factor, up to its column. -/
theorem factorEntry_product (within : j ≤ i) (positive : 0 < S.remainder j j) :
    ∑ m ∈ Finset.range (j + 1), S.factorEntry i m * S.factorEntry j m = S.get i j := by
  have square : √(S.remainder j j) * √(S.remainder j j) = S.remainder j j := Real.mul_self_sqrt positive.le
  have last : S.factorEntry i j * S.factorEntry j j = S.remainder i j := by
    rcases within.eq_or_lt with rfl | below
    · rw [factorEntry_diagonal, square]
    · have nonzero : S.factorEntry j j ≠ 0 := by
        rw [factorEntry_diagonal]
        exact (Real.sqrt_pos.mpr positive).ne'
      rw [factorEntry_below below, div_mul_cancel₀ _ nonzero]
  rw [Finset.sum_range_succ, last, remainder]
  ring

/-- What is above the diagonal adds nothing to a product of rows. -/
theorem sum_rows_eq {L : Nat → Nat → ℝ} (upper : ∀ i j, i < j → L i j = 0) {n : Nat} (inside : j < n) :
    ∑ m ∈ Finset.range n, L i m * L j m = ∑ m ∈ Finset.range (j + 1), L i m * L j m := by
  refine (Finset.sum_subset (Finset.range_subset_range.mpr inside) fun m _ outside => ?_).symm
  rw [upper j m (by simpa using outside), mul_zero]

/-- Where all pivots are positive the matrix is the factor times its transpose. -/
theorem factorEntry_matrix {n : Nat} (positive : ∀ k < n, 0 < S.remainder k k) (row : i < n) (column : j < n) :
    ∑ m ∈ Finset.range n, S.factorEntry i m * S.factorEntry j m = S.get i j := by
  have upper : ∀ i j, i < j → S.factorEntry i j = 0 := fun i j => factorEntry_above
  rcases le_total j i with below | above
  · rw [sum_rows_eq upper column, factorEntry_product below (positive j column)]
  · rw [get_comm, ← factorEntry_product above (positive i row), ← sum_rows_eq upper row]
    exact Finset.sum_congr rfl fun m _ => mul_comm _ _

/-- A lower triangular factor with a positive diagonal is that of its product. -/
theorem factorEntry_unique {L : Nat → Nat → ℝ} {n : Nat} (upper : ∀ i j, i < j → L i j = 0)
    (diagonal : ∀ i < n, 0 < L i i)
    (product : ∀ i < n, ∀ j < n, ∑ m ∈ Finset.range n, L i m * L j m = S.get i j) (row : i < n) (within : j ≤ i) :
    S.factorEntry i j = L i j := by
  -- on the row, and on the column within it, as the entries come from each other
  induction i using Nat.strong_induction_on generalizing j with
  | _ i rows =>
    induction j using Nat.strong_induction_on with
    | _ j columns =>
      have column : j < n := within.trans_lt row
      have same : S.remainder i j = L i j * L j j := by
        have entry := product i row j column
        rw [sum_rows_eq upper column, Finset.sum_range_succ] at entry
        rw [remainder, ← entry, sub_eq_iff_eq_add']
        refine congrArg (· + _) (Finset.sum_congr rfl fun m member => ?_)
        have before := Finset.mem_range.mp member
        rw [columns m before (before.le.trans within)]
        rcases within.eq_or_lt with rfl | below
        · rw [columns m before before.le]
        · rw [rows j below (below.trans row) before.le]
      rcases within.eq_or_lt with rfl | below
      · rw [factorEntry_diagonal, same, Real.sqrt_mul_self (diagonal j row).le]
      · rw [factorEntry_below below, same, rows j below column le_rfl, mul_div_cancel_right₀ _ (diagonal j column).ne']

/-- The form of the matrix is the sum of the squares of what the transposed factor makes of the vector. -/
theorem form_factorEntry (positive : ∀ k < S.length, 0 < S.remainder k k) (x : Nat → ℝ) :
    S.form x = ∑ m ∈ Finset.range S.length, (∑ i ∈ Finset.range S.length, S.factorEntry i m * x i) ^ 2 := by
  calc
    S.form x = ∑ i ∈ Finset.range S.length, ∑ j ∈ Finset.range S.length, ∑ m ∈ Finset.range S.length,
        (S.factorEntry i m * x i) * (S.factorEntry j m * x j) := by
      refine Finset.sum_congr rfl fun i row => ?_
      rw [Finset.mul_sum]
      refine Finset.sum_congr rfl fun j column => ?_
      rw [← factorEntry_matrix positive (Finset.mem_range.mp row) (Finset.mem_range.mp column), Finset.sum_mul,
        Finset.mul_sum]
      exact Finset.sum_congr rfl fun m _ => by ring
    _ = ∑ i ∈ Finset.range S.length, ∑ m ∈ Finset.range S.length, ∑ j ∈ Finset.range S.length,
        (S.factorEntry i m * x i) * (S.factorEntry j m * x j) := Finset.sum_congr rfl fun i _ => Finset.sum_comm
    _ = ∑ m ∈ Finset.range S.length, ∑ i ∈ Finset.range S.length, ∑ j ∈ Finset.range S.length,
        (S.factorEntry i m * x i) * (S.factorEntry j m * x j) := Finset.sum_comm
    _ = _ := Finset.sum_congr rfl fun m _ => by rw [sq, Finset.sum_mul_sum]

/-- A matrix is positive definite exactly if the pivots of all rows are positive. -/
theorem positiveDefinite_iff_remainder (triangular : S.Triangular) :
    S.PositiveDefinite ↔ ∀ k < S.length, 0 < S.remainder k k := by
  constructor
  · intro definite k inside
    obtain ⟨L, factored⟩ := (cholesky_exists_iff triangular).mpr definite
    obtain ⟨count, product⟩ := Cholesky.entry_product triangular factored
    have upper : ∀ i j, i < j → L.entry i j = 0 := fun i j => L.entry_upper
    have pivot (i : Nat) (inside : i < S.length) : 0 < L.entry i i :=
      Cholesky.entry_diagonal factored (inside.trans_eq count.symm)
    have same := @factorEntry_unique S k k _ _ upper pivot product inside le_rfl
    rw [factorEntry_diagonal] at same
    exact Real.sqrt_pos.mp (same ▸ pivot k inside)
  · rintro positive x ⟨i, inside, nonzero⟩
    -- the last component that is not zero leaves a square that is not zero
    obtain ⟨last, present, greatest⟩ := Finset.exists_max_image ((Finset.range S.length).filter (x · ≠ 0)) id
      ⟨i, by simpa using ⟨inside, nonzero⟩⟩
    obtain ⟨bound, here⟩ := Finset.mem_filter.mp present
    have pivot : 0 < S.factorEntry last last := by
      rw [factorEntry_diagonal]
      exact Real.sqrt_pos.mpr (positive last (Finset.mem_range.mp bound))
    have alone : ∑ i ∈ Finset.range S.length, S.factorEntry i last * x i = S.factorEntry last last * x last := by
      refine Finset.sum_eq_single_of_mem last bound fun i member apart => ?_
      rcases lt_or_gt_of_ne apart with before | after
      · rw [factorEntry_above before, zero_mul]
      · have zero : x i = 0 := by
          by_contra other
          exact after.not_ge (greatest i (Finset.mem_filter.mpr ⟨member, other⟩))
        rw [zero, mul_zero]
    rw [form_factorEntry positive]
    refine Finset.sum_pos' (fun m _ => sq_nonneg _) ⟨last, bound, ?_⟩
    rw [alone]
    exact sq_pos_of_ne_zero (mul_ne_zero pivot.ne' here)

end Symmetric

end GraduatedFit
