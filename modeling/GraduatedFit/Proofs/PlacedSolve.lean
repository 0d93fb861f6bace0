import GraduatedFit.Proofs.EliminatedRows

/-! A system is solved in places that were laid out for the ties of its unknowns exactly if it is positive definite. -/

namespace GraduatedFit

namespace Elimination

open Places

namespace Workspace

section Columns

variable {S : Symmetric ℝ} {places : Places} {before : List (List Nat)} (fits : FitsIn S places before)
  {w : Workspace ℝ} (eliminated : w.Eliminated S places before before.length)
include fits eliminated

/-- The places below the diagonal of a column hold the rows that depend on it, with the entries of the factor. -/
theorem foldl_below {β : Type} (f : β → Nat → ℝ → β) {j : Nat} (column : j < before.length) (b : β) :
    (places.below j).foldl (fun b place => f b (places.rows.getD place 0) (w.factor.getD place 0)) b =
      (dependents (reachedBy places.parents before) j before.length).foldl (fun b i => f b i (S.factorEntry i j)) b := by
  rw [below, fits.serves.laid.start_succ j column, Nat.add_sub_cancel_left]
  refine foldl_places (fun t i present b => ?_) b
  rw [eliminated.filled.entry_eq j column t i present, fits.serves.laid.row_eq j column t i present]

end Columns

section Forward

variable {S : Symmetric ℝ} {places : Places} {before : List (List Nat)}

/-- The first `m` unknowns of the triangular system are found, and their parts are taken off the other rows. -/
structure Substituted (S : Symmetric ℝ) (n m : Nat) (b : Vec ℝ) (x : Array ℝ) : Prop where
  size_eq : x.size = n
  solved : ∀ i < m, ∑ j ∈ Finset.range (i + 1), S.factorEntry i j * x.getD j 0 = b.getD i 0
  left : ∀ i < n, m ≤ i → x.getD i 0 = b.getD i 0 - ∑ j ∈ Finset.range m, S.factorEntry i j * x.getD j 0

variable (fits : FitsIn S places before)

include fits in
theorem Substituted.next {m : Nat} {b : Vec ℝ} {x x' : Array ℝ} (inside : m < before.length)
    (pivot : S.factorEntry m m ≠ 0) (substituted : Substituted S before.length m b x)
    (done : x' = (dependents (reachedBy places.parents before) m before.length).foldl
      (fun x' i => x'.modify i (· - S.factorEntry i m * (x.getD m 0 / S.factorEntry m m)))
      (x.setIfInBounds m (x.getD m 0 / S.factorEntry m m))) :
    Substituted S before.length (m + 1) b x' := by
  set y := x.getD m 0 / S.factorEntry m m with found
  have entry {i : Nat} (bound : i < before.length) :
      x'.getD i 0 = if i = m then y else x.getD i 0 - S.factorEntry i m * y := by
    rw [done, fits.takenOff before.length substituted.size_eq bound, if_pos bound]
  have earlier {i : Nat} (above : i < m) : x'.getD i 0 = x.getD i 0 := by
    rw [entry (above.trans inside), if_neg above.ne, Symmetric.factorEntry_above above, zero_mul, sub_zero]
  have here : x'.getD m 0 = y := by rw [entry inside, if_pos rfl]
  have sums (i : Nat) : ∑ j ∈ Finset.range m, S.factorEntry i j * x'.getD j 0 =
      ∑ j ∈ Finset.range m, S.factorEntry i j * x.getD j 0 :=
    Finset.sum_congr rfl fun j member => by rw [earlier (Finset.mem_range.mp member)]
  have sizes := size_modify_each id (fun i z => z - S.factorEntry i m * y)
    (dependents (reachedBy places.parents before) m before.length) (x.setIfInBounds m y)
  refine ⟨done ▸ sizes.trans (Array.size_setIfInBounds.trans substituted.size_eq), fun i within => ?_,
    fun i bound after => ?_⟩
  · rcases Nat.lt_or_eq_of_le (Nat.le_of_lt_succ within) with above | rfl
    · rw [← substituted.solved i above]
      refine Finset.sum_congr rfl fun j member => ?_
      have := Finset.mem_range.mp member
      rw [earlier (by omega)]
    · rw [Finset.sum_range_succ, sums, here, found, mul_div_cancel₀ _ pivot, substituted.left i inside le_rfl]
      ring
  · have apart : i ≠ m := by omega
    rw [entry bound, if_neg apart, Finset.sum_range_succ, sums, here, substituted.left i bound (by omega)]
    ring

end Forward

section Backward

variable {S : Symmetric ℝ} {places : Places} {before : List (List Nat)}

/-- The unknowns of the transposed system from the `m`-th on are found; the others stand for its right-hand side. -/
structure SubstitutedBack (S : Symmetric ℝ) (n m : Nat) (y x : Array ℝ) : Prop where
  size_eq : x.size = n
  solved : ∀ j < n, m ≤ j → ∑ i ∈ Finset.range n, S.factorEntry i j * x.getD i 0 = y.getD j 0
  left : ∀ j < m, x.getD j 0 = y.getD j 0

/-- A fold that takes one product after another off a number. -/
theorem foldl_subtract (c : Nat → ℝ) (xs : List Nat) (start : ℝ) :
    xs.foldl (fun y i => y - c i) start = start - (xs.map c).sum := by
  induction xs generalizing start with
  | nil => simp
  | cons i xs ih =>
      rw [List.foldl_cons, ih, List.map_cons, List.sum_cons]
      ring

variable (fits : FitsIn S places before)
include fits

/-- The products of a column with a vector, over the rows that depend on it. -/
theorem sum_dependents {m : Nat} (x : Nat → ℝ) :
    ((dependents (reachedBy places.parents before) m before.length).map fun i => S.factorEntry i m * x i).sum =
      ∑ i ∈ (Finset.range before.length).erase m, S.factorEntry i m * x i := by
  have distinct := dependents_nodup (reachedBy places.parents before) m before.length
  rw [← List.sum_toFinset _ distinct]
  refine Finset.sum_subset (fun i member => ?_) fun i member outside => ?_
  · obtain ⟨bound, depends⟩ := mem_dependents.mp (List.mem_toFinset.mp member)
    exact Finset.mem_erase.mpr ⟨(fits.below_of_depends bound depends).ne', Finset.mem_range.mpr bound⟩
  · obtain ⟨apart, inside⟩ := Finset.mem_erase.mp member
    have bound := Finset.mem_range.mp inside
    rcases lt_or_gt_of_ne apart with above | below
    · rw [Symmetric.factorEntry_above above, zero_mul]
    · have zero := fits.factorEntry_zero bound below fun depends =>
        outside (List.mem_toFinset.mpr (mem_dependents.mpr ⟨bound, depends⟩))
      rw [zero, zero_mul]

theorem SubstitutedBack.next {m : Nat} {y x x' : Array ℝ} (inside : m < before.length)
    (pivot : S.factorEntry m m ≠ 0) (substituted : SubstitutedBack S before.length (m + 1) y x)
    (done : x' = x.setIfInBounds m (((dependents (reachedBy places.parents before) m before.length).foldl
      (fun y i => y - S.factorEntry i m * x.getD i 0) (x.getD m 0)) / S.factorEntry m m)) :
    SubstitutedBack S before.length m y x' := by
  have size := substituted.size_eq
  have row : m ∈ Finset.range before.length := Finset.mem_range.mpr inside
  have others {i : Nat} (bound : i < before.length) (apart : i ≠ m) : x'.getD i 0 = x.getD i 0 := by
    rw [done, getD_setIfInBounds _ (bound.trans_eq size.symm), if_neg apart]
  have products (j : Nat) : ∑ i ∈ (Finset.range before.length).erase m, S.factorEntry i j * x'.getD i 0 =
      ∑ i ∈ (Finset.range before.length).erase m, S.factorEntry i j * x.getD i 0 := by
    refine Finset.sum_congr rfl fun i member => ?_
    obtain ⟨apart, bound⟩ := Finset.mem_erase.mp member
    rw [others (Finset.mem_range.mp bound) apart]
  have here : S.factorEntry m m * x'.getD m 0 =
      x.getD m 0 - ∑ i ∈ (Finset.range before.length).erase m, S.factorEntry i m * x.getD i 0 := by
    rw [done, getD_setIfInBounds _ (inside.trans_eq size.symm), if_pos rfl, mul_div_cancel₀ _ pivot,
      foldl_subtract fun i => S.factorEntry i m * x.getD i 0, sum_dependents fits fun i => x.getD i 0]
  refine ⟨done ▸ Array.size_setIfInBounds.trans size, fun j bound after => ?_, fun j above => ?_⟩
  · rw [← Finset.add_sum_erase _ _ row, products]
    rcases after.eq_or_lt with rfl | later
    · rw [here, substituted.left m (Nat.lt_succ_self m)]
      ring
    · have zero : S.factorEntry m j = 0 := Symmetric.factorEntry_above later
      rw [zero, zero_mul, ← substituted.solved j bound later, ← Finset.add_sum_erase _ _ row, zero, zero_mul]
  · rw [others (above.trans inside) above.ne, substituted.left j (by omega)]

end Backward

section Solutions

variable {S : Symmetric ℝ} {places : Places} {before : List (List Nat)} (fits : FitsIn S places before)
  {w : Workspace ℝ} (eliminated : w.Eliminated S places before before.length)
  (pivots : ∀ m < before.length, S.factorEntry m m ≠ 0)
include fits eliminated pivots

theorem forward_substituted {b : Vec ℝ} (length : b.length = before.length) {m : Nat} (within : m ≤ before.length) :
    Substituted S before.length m b ((List.range m).foldl (fun x j =>
      let y := x.getD j 0 / w.factor.getD (places.start j) 0
      (places.below j).foldl (fun x place =>
        x.modify (places.rows.getD place 0) (· - w.factor.getD place 0 * y)) (x.setIfInBounds j y)) b.toArray) := by
  induction m with
  | zero =>
      constructor
      · simpa using length
      · intro i above
        cases above
      · simp
  | succ m ih =>
      rw [List.range_succ, List.foldl_append]
      refine (ih (Nat.le_of_succ_le within)).next fits within (pivots m within) ?_
      rw [List.foldl_cons, List.foldl_nil]
      dsimp only
      rw [eliminated.filled.pivot_eq m within]
      exact foldl_below fits eliminated (fun (x : Array ℝ) i e => x.modify i (· - e * _)) within _

theorem backward_substituted {y : Array ℝ} {m : Nat} (within : m ≤ before.length) {x : Array ℝ}
    (substituted : SubstitutedBack S before.length m y x) :
    SubstitutedBack S before.length 0 y ((List.range m).foldr (fun j (x : Array ℝ) =>
      let y := (places.below j).foldl (fun y place =>
        y - w.factor.getD place 0 * x.getD (places.rows.getD place 0) 0) (x.getD j 0)
      x.setIfInBounds j (y / w.factor.getD (places.start j) 0)) x) := by
  induction m generalizing x with
  | zero => exact substituted
  | succ m ih =>
      rw [List.range_succ, List.foldr_append]
      refine ih (Nat.le_of_succ_le within) (substituted.next fits within (pivots m within) ?_)
      rw [List.foldr_cons, List.foldr_nil]
      dsimp only
      rw [eliminated.filled.pivot_eq m within]
      refine congrArg (fun z => x.setIfInBounds m (z / _)) ?_
      exact foldl_below fits eliminated (fun z i e => z - e * x.getD i 0) within _

omit fits eliminated pivots in
/-- A solution of the transposed system, whose right-hand side solves the system of the factor, solves that of the
matrix. -/
theorem product_solved {n : Nat} (positive : ∀ k < n, 0 < S.remainder k k) {b : Vec ℝ} {y x : Array ℝ}
    (forward : Substituted S n n b y) (backward : SubstitutedBack S n 0 y x) {i : Nat} (row : i < n) :
    ∑ c ∈ Finset.range n, S.get i c * x.getD c 0 = b.getD i 0 := by
  calc
    _ = ∑ c ∈ Finset.range n, ∑ m ∈ Finset.range n, S.factorEntry i m * (S.factorEntry c m * x.getD c 0) := by
      refine Finset.sum_congr rfl fun c column => ?_
      rw [← Symmetric.factorEntry_matrix positive row (Finset.mem_range.mp column), Finset.sum_mul]
      exact Finset.sum_congr rfl fun m _ => mul_assoc _ _ _
    _ = ∑ m ∈ Finset.range n, S.factorEntry i m * ∑ c ∈ Finset.range n, S.factorEntry c m * x.getD c 0 := by
      rw [Finset.sum_comm]
      exact Finset.sum_congr rfl fun m _ => (Finset.mul_sum _ _ _).symm
    _ = ∑ m ∈ Finset.range n, S.factorEntry i m * y.getD m 0 :=
      Finset.sum_congr rfl fun m column => by rw [backward.solved m (Finset.mem_range.mp column) (Nat.zero_le m)]
    _ = ∑ m ∈ Finset.range (i + 1), S.factorEntry i m * y.getD m 0 := by
      refine (Finset.sum_subset (Finset.range_subset_range.mpr row) fun m _ outside => ?_).symm
      rw [Symmetric.factorEntry_above (by simpa using outside), zero_mul]
    _ = b.getD i 0 := forward.solved i row

omit pivots in
/-- The numbers in the places give the solution of the system. -/
theorem solve_solves (positive : ∀ k < before.length, 0 < S.remainder k k) {b : Vec ℝ}
    (length : b.length = before.length) : Solves S b (w.solve places b) := by
  have pivots (m : Nat) (inside : m < before.length) : S.factorEntry m m ≠ 0 := by
    rw [Symmetric.factorEntry_diagonal]
    exact (Real.sqrt_pos.mpr (positive m inside)).ne'
  have forward := forward_substituted fits eliminated pivots length le_rfl
  have start := (⟨forward.size_eq, fun j bound after => absurd bound after.not_gt, fun _ _ => rfl⟩ :
    SubstitutedBack S before.length before.length _ _)
  have backward := backward_substituted fits eliminated pivots le_rfl start
  have entry (x : Array ℝ) (c : Nat) : x.toList.getD c 0 = x.getD c 0 := by
    rw [List.getD_eq_getElem?_getD, Array.getElem?_toList, Array.getD_eq_getD_getElem?]
  rw [solve, length]
  refine ⟨?_, fun i row => ?_⟩
  · rw [Array.length_toList, fits.length_eq]
    exact backward.size_eq
  · rw [fits.length_eq] at row ⊢
    refine (Finset.sum_congr rfl fun c _ => ?_).trans (product_solved positive forward backward row)
    rw [entry]

end Solutions

end Workspace

section Systems

variable {S : Symmetric ℝ} {before : List (List Nat)} {columns : List Nat}

/-- In places that were laid out for the entries of the matrix its system is solved if it is positive definite, and else
it is singular. -/
theorem solveInPlaces_cases (lists : Lists S before) (triangular : S.Triangular)
    (perm : columns.Perm (List.range S.length)) {b : Vec ℝ} (length : b.length = S.length) :
    (S.PositiveDefinite ∧ ∃ x, solveInPlaces (.ofNeighbours before) columns S b = .ok x ∧ Solves S b x) ∨
      (¬S.PositiveDefinite ∧
        solveInPlaces (.ofNeighbours before) columns S b = .fail (.linear .singularMatrix)) := by
  have fits := lists.fitsIn
  have count : (lowerRows columns S).length = before.length := by simp [lowerRows, lists.length_eq]
  rw [Symmetric.positiveDefinite_iff_remainder triangular, lists.length_eq, solveInPlaces]
  have listed : ∀ t entries, (lowerRows columns S)[t]? = some entries → Workspace.ListsRow S before (0 + t) entries :=
    fun t entries present => (Nat.zero_add t).symm ▸ lowerRows_lists lists perm present
  have rows := Workspace.foldlM_useRow fits (by omega) listed (Workspace.start_eliminated fits S)
  simp only [Nat.zero_add, count] at rows
  rcases rows with ⟨positive, w, done, eliminated⟩ | ⟨⟨t, short, singular⟩, failed⟩
  · refine .inl ⟨positive, w.solve _ b, ?_, Workspace.solve_solves fits eliminated positive ?_⟩
    · rw [done]
      rfl
    · rw [length, lists.length_eq]
  · refine .inr ⟨fun positive => singular (positive t short), ?_⟩
    rw [failed]
    rfl

end Systems

end Elimination

end GraduatedFit
