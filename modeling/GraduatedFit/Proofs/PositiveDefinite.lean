import GraduatedFit.Proofs.EliminationPlan

/-! A symmetric matrix has a Cholesky factorization exactly if it is positive definite, in whatever order its rows and
columns stand. -/

namespace GraduatedFit

namespace Symmetric

/-- The quadratic form of a matrix. -/
noncomputable def form (S : Symmetric ℝ) (x : Nat → ℝ) : ℝ :=
  ∑ i ∈ Finset.range S.length, x i * ∑ j ∈ Finset.range S.length, S.get i j * x j

def PositiveDefinite (S : Symmetric ℝ) : Prop := ∀ x : Nat → ℝ, (∃ i < S.length, x i ≠ 0) → 0 < S.form x

/-- The inner product of a vector with the numbers of a column. -/
noncomputable def columnDot (entries : List (Option ℝ)) (n : Nat) (x : Nat → ℝ) : ℝ :=
  ∑ j ∈ Finset.range n, coefficient entries j * x j

theorem form_congr {S T : Symmetric ℝ} (length : T.length = S.length)
    (same : ∀ i j, i < S.length → j < S.length → T.get i j = S.get i j) (x : Nat → ℝ) : T.form x = S.form x := by
  rw [form, form, length]
  refine Finset.sum_congr rfl fun i row => congrArg (x i * ·) (Finset.sum_congr rfl fun j column => ?_)
  rw [same i j (Finset.mem_range.mp row) (Finset.mem_range.mp column)]

theorem form_congr_vector (S : Symmetric ℝ) {x y : Nat → ℝ} (same : ∀ i < S.length, x i = y i) : S.form x = S.form y := by
  refine Finset.sum_congr rfl fun i row => ?_
  rw [same i (Finset.mem_range.mp row)]
  refine congrArg (y i * ·) (Finset.sum_congr rfl fun j column => ?_)
  rw [same j (Finset.mem_range.mp column)]

theorem form_zero (S : Symmetric ℝ) : (S.form fun _ => 0) = 0 := by simp [form]

theorem positiveDefinite_congr {S T : Symmetric ℝ} (length : T.length = S.length)
    (same : ∀ i j, i < S.length → j < S.length → T.get i j = S.get i j) : T.PositiveDefinite ↔ S.PositiveDefinite := by
  unfold PositiveDefinite
  rw [length]
  refine forall_congr' fun x => imp_congr_right fun _ => ?_
  rw [form_congr length same]

section Columns

variable {column : SymColumn ℝ} {S : Symmetric ℝ}

/-- The form of a matrix from its first column and the rest. -/
theorem form_cons (column : SymColumn ℝ) (S : Symmetric ℝ) (x : Nat → ℝ) :
    form (column :: S) x = column.diagonal.getD 0 * (x 0 * x 0) +
      (x 0 + x 0) * columnDot column.below S.length (fun i => x (i + 1)) + form S fun i => x (i + 1) := by
  have cross : ∑ i ∈ Finset.range S.length, x (i + 1) * (coefficient column.below i * x 0) =
      x 0 * columnDot column.below S.length fun i => x (i + 1) := by
    rw [columnDot, Finset.mul_sum]
    exact Finset.sum_congr rfl fun i _ => by ring
  simp only [form, List.length_cons, Finset.sum_range_succ', get_succ_succ, get_succ_zero, get_zero_succ,
    get_zero_zero, mul_add, Finset.sum_add_distrib, cross, columnDot]
  ring

theorem form_downdate {entries : List (Option ℝ)} (length : entries.length = S.length) (triangular : S.Triangular)
    (x : Nat → ℝ) : form (downdate entries S) x = form S x - columnDot entries S.length x ^ 2 := by
  have row (i : Nat) : ∑ j ∈ Finset.range S.length, (downdate entries S).get i j * x j =
      ∑ j ∈ Finset.range S.length, S.get i j * x j - coefficient entries i * columnDot entries S.length x := by
    rw [columnDot, Finset.mul_sum, ← Finset.sum_sub_distrib]
    refine Finset.sum_congr rfl fun j _ => ?_
    rw [get_downdate length triangular]
    ring
  have square : ∑ i ∈ Finset.range S.length, x i * (coefficient entries i * columnDot entries S.length x) =
      columnDot entries S.length x ^ 2 := by
    rw [sq]
    nth_rewrite 2 [columnDot]
    rw [Finset.sum_mul]
    exact Finset.sum_congr rfl fun i _ => by ring
  simp only [form, length_downdate, row, mul_sub, Finset.sum_sub_distrib, square]

variable (first : column.below.length = S.length) (triangular : S.Triangular)
include first triangular

/-- The square that is completed when the first column is taken off. -/
theorem form_eliminate (positive : 0 < column.diagonal.getD 0) (x : Nat → ℝ) :
    let pivot := √(column.diagonal.getD 0)
    let below := column.below.map (·.map (· / pivot))
    form (column :: S) x = (pivot * x 0 + columnDot below S.length fun i => x (i + 1)) ^ 2 +
      form (downdate below S) fun i => x (i + 1) := by
  intro pivot below
  have root : pivot ≠ 0 := (Real.sqrt_pos.mpr positive).ne'
  have square : pivot * pivot = column.diagonal.getD 0 := Real.mul_self_sqrt positive.le
  have scaled : columnDot column.below S.length (fun i => x (i + 1)) =
      pivot * columnDot below S.length fun i => x (i + 1) := by
    rw [columnDot, columnDot, Finset.mul_sum]
    refine Finset.sum_congr rfl fun j _ => ?_
    rw [coefficient_quotient]
    field_simp
  rw [form_cons, form_downdate (by simp [below, first]) triangular, scaled, ← square]
  ring

/-- A matrix is positive definite if its first pivot is positive and so is what is left. -/
theorem positiveDefinite_cons_iff :
    let pivot := √(column.diagonal.getD 0)
    let below := column.below.map (·.map (· / pivot))
    PositiveDefinite (column :: S) ↔ 0 < column.diagonal.getD 0 ∧ (downdate below S).PositiveDefinite := by
  intro pivot below
  constructor
  · intro positive
    have diagonal : 0 < column.diagonal.getD 0 := by
      have corner := positive (fun i => if i = 0 then 1 else 0) ⟨0, Nat.succ_pos _, by simp⟩
      simpa [form_cons, columnDot, form] using corner
    have root : pivot ≠ 0 := (Real.sqrt_pos.mpr diagonal).ne'
    refine ⟨diagonal, fun y ⟨i, inside, nonzero⟩ => ?_⟩
    rw [length_downdate] at inside
    -- the first component that makes the completed square vanish
    have whole := positive (fun i => i.casesOn (-(columnDot below S.length y) / pivot) y)
      ⟨i + 1, Nat.succ_lt_succ inside, nonzero⟩
    rw [form_eliminate first triangular diagonal] at whole
    have vanishing : pivot * (-(columnDot below S.length y) / pivot) + columnDot below S.length y = 0 := by
      field_simp
      ring
    simpa [vanishing, pivot, below] using whole
  · rintro ⟨diagonal, rest⟩ x ⟨i, inside, nonzero⟩
    rw [form_eliminate first triangular diagonal]
    by_cases later : ∃ i < (downdate below S).length, x (i + 1) ≠ 0
    · exact add_pos_of_nonneg_of_pos (sq_nonneg _) (rest _ later)
    · have zero (i : Nat) (bound : i < S.length) : x (i + 1) = 0 := by
        by_contra other
        exact later ⟨i, by rwa [length_downdate], other⟩
      have here : x 0 ≠ 0 := by
        cases i with
        | zero => exact nonzero
        | succ i => exact absurd (zero i (Nat.lt_of_succ_lt_succ inside)) nonzero
      have dot : columnDot below S.length (fun i => x (i + 1)) = 0 :=
        Finset.sum_eq_zero fun i member => mul_eq_zero_of_right _ (zero i (Finset.mem_range.mp member))
      have rest_zero : form (downdate below S) (fun i => x (i + 1)) = 0 := by
        rw [form_congr_vector _ fun i bound => zero i (bound.trans_eq (length_downdate _ _)), form_zero]
      have root : 0 < pivot := Real.sqrt_pos.mpr diagonal
      calc
        0 < (pivot * x 0) ^ 2 := sq_pos_of_ne_zero (mul_ne_zero root.ne' here)
        _ = (pivot * x 0 + columnDot below S.length fun i => x (i + 1)) ^ 2 +
            form (downdate below S) fun i => x (i + 1) := by rw [dot, rest_zero, add_zero, add_zero]

end Columns

/-- The factorization succeeds exactly on the matrices that are positive definite. -/
theorem cholesky_exists_iff {S : Symmetric ℝ} (triangular : S.Triangular) :
    (∃ L, S.cholesky? = some L) ↔ S.PositiveDefinite := by
  -- on the number of columns, since the first one is taken off the others
  induction size : S.length generalizing S with
  | zero =>
      obtain rfl := List.length_eq_zero_iff.mp size
      refine iff_of_true ⟨[], by rw [cholesky?]⟩ ?_
      rintro x ⟨i, inside, -⟩
      cases inside
  | succ n ih =>
      obtain ⟨column, S, rfl⟩ := List.exists_cons_of_length_eq_add_one size
      obtain ⟨first, later⟩ := triangular
      have shorter : S.length = n := by simpa using size
      have rest := ih (downdate_triangular (by simp [first]) later)
        ((length_downdate (column.below.map (·.map (· / √(column.diagonal.getD 0)))) S).trans shorter)
      refine Iff.trans ?_ (positiveDefinite_cons_iff first later).symm
      rw [← rest]
      constructor
      · rintro ⟨L, factored⟩
        obtain ⟨positive, rest, found, -⟩ := Cholesky.cholesky_cons factored
        exact ⟨positive, rest, found⟩
      · rintro ⟨positive, rest, found⟩
        refine ⟨⟨√(column.diagonal.getD 0), column.below.map (·.map (· / √(column.diagonal.getD 0)))⟩ :: rest, ?_⟩
        rw [cholesky?]
        dsimp only
        rw [if_pos (by simpa using positive), Scalar.sqrt_real, found]
        rfl

theorem cholesky_cases {S : Symmetric ℝ} (triangular : S.Triangular) :
    (S.PositiveDefinite ∧ ∃ L, S.cholesky? = some L) ∨ (¬S.PositiveDefinite ∧ S.cholesky? = none) := by
  rw [← cholesky_exists_iff triangular]
  cases S.cholesky? with
  | none => exact .inr ⟨by simp, rfl⟩
  | some L => exact .inl ⟨⟨L, rfl⟩, L, rfl⟩

end Symmetric

namespace Elimination

/-- A positive definite system has one solution at the most. -/
theorem Solves.unique {S : Symmetric ℝ} (positive : S.PositiveDefinite) {b x y : Vec ℝ} (left : Solves S b x)
    (right : Solves S b y) : x = y := by
  have zero : S.form (fun i => x.getD i 0 - y.getD i 0) = 0 := by
    refine Finset.sum_eq_zero fun i member => ?_
    have inside := Finset.mem_range.mp member
    have row : ∑ j ∈ Finset.range S.length, S.get i j * (x.getD j 0 - y.getD j 0) = 0 := by
      simp only [mul_sub, Finset.sum_sub_distrib, left.row i inside, right.row i inside, sub_self]
    rw [row, mul_zero]
  apply List.ext_getElem (left.length_eq.trans right.length_eq.symm)
  intro i here there
  by_contra differ
  have nonzero : x.getD i 0 - y.getD i 0 ≠ 0 := by
    rw [List.getD_eq_getElem _ _ here, List.getD_eq_getElem _ _ there]
    exact sub_ne_zero.mpr differ
  exact (positive _ ⟨i, here.trans_eq left.length_eq, nonzero⟩).ne' zero

namespace Plan

/-- In another order a vector has the same form with the reordered matrix. -/
theorem form_reorder {order : List Nat} {S : Symmetric ℝ} (perm : order.Perm (List.range S.length)) (x : Nat → ℝ) :
    (S.reorder order).form (fun k => x (order.getD k 0)) = S.form x := by
  have length : order.length = S.length := by simpa using perm.length_eq
  have size : (S.reorder order).length = S.length := by rw [Symmetric.reorder, Symmetric.length_select, length]
  rw [Symmetric.form, Symmetric.form, size,
    sum_perm perm fun r => x r * ∑ c ∈ Finset.range S.length, S.get r c * x c]
  refine Finset.sum_congr rfl fun k row => congrArg (x (order.getD k 0) * ·) ?_
  rw [sum_perm perm fun c => S.get (order.getD k 0) c * x c]
  refine Finset.sum_congr rfl fun l column => congrArg (· * x (order.getD l 0)) ?_
  exact Symmetric.get_select S.table order k l ((Finset.mem_range.mp row).trans_eq length.symm)
    ((Finset.mem_range.mp column).trans_eq length.symm)

theorem positiveDefinite_reorder {order : List Nat} {S : Symmetric ℝ} (perm : order.Perm (List.range S.length)) :
    (S.reorder order).PositiveDefinite ↔ S.PositiveDefinite := by
  have length : order.length = S.length := by simpa using perm.length_eq
  have size : (S.reorder order).length = S.length := by rw [Symmetric.reorder, Symmetric.length_select, length]
  have distinct : order.Nodup := perm.nodup_iff.mpr List.nodup_range
  constructor
  · rintro positive x ⟨c, inside, nonzero⟩
    have present : c ∈ order := perm.mem_iff.mpr (List.mem_range.mpr inside)
    have place := List.idxOf_lt_length_of_mem present
    have back : order.getD (order.idxOf c) 0 = c := by
      rw [List.getD_eq_getElem _ _ place]
      exact List.getElem_idxOf _
    rw [← form_reorder perm]
    exact positive _ ⟨order.idxOf c, by rwa [size, ← length], by rwa [back]⟩
  · rintro positive x ⟨k, inside, nonzero⟩
    have place : k < order.length := by rwa [length, ← size]
    have rank (l : Nat) (bound : l < order.length) : order.idxOf (order.getD l 0) = l := by
      rw [List.getD_eq_getElem _ _ bound]
      exact distinct.idxOf_getElem _ _
    have member : order.getD k 0 < S.length := by
      rw [List.getD_eq_getElem _ _ place]
      exact List.mem_range.mp (perm.mem_iff.mp (List.getElem_mem _))
    have whole := positive (fun c => x (order.idxOf c)) ⟨order.getD k 0, member, by rwa [rank k place]⟩
    rw [← form_reorder perm] at whole
    refine whole.trans_eq (Symmetric.form_congr_vector _ fun l bound => ?_)
    rw [rank l (by rwa [length, ← size])]

end Plan

end Elimination

end GraduatedFit
