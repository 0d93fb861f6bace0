import GraduatedFit.Proofs.Cholesky
import GraduatedFit.Proofs.Results
import GraduatedFit.Elimination.Plan

/-! A plan solves every system of the shape that it was made for. -/

namespace GraduatedFit

open GraduatedFit.Symmetric

namespace Symmetric

variable {K : Type}

@[simp]
theorem length_select (table : Array (Array (Option K))) (order : List Nat) :
    (select table order).length = order.length := by
  induction order with
  | nil => rfl
  | cons j rest ih => simp [select, ih]

theorem select_triangular (table : Array (Array (Option K))) (order : List Nat) :
    (select table order).Triangular := by
  induction order with
  | nil => trivial
  | cons j rest ih => exact ⟨by simp, ih⟩

variable [Scalar K]

/-- The rows and columns of a selection are those that it names. -/
theorem get_select (table : Array (Array (Option K))) (order : List Nat) (i j : Nat)
    (row : i < order.length) (column : j < order.length) :
    (select table order).get i j = (stored? table (order.getD i 0) (order.getD j 0)).getD 0 := by
  induction order generalizing i j with
  | nil => cases row
  | cons first rest ih =>
      cases i with
      | zero =>
          cases j with
          | zero => simp [select]
          | succ j =>
              have inside : j < rest.length := by simpa using column
              rw [select, get_zero_succ, coefficient_map _ _ 0 _ inside, stored_comm]
              simp
      | succ i =>
          have above : i < rest.length := by simpa using row
          cases j with
          | zero =>
              rw [select, get_succ_zero, coefficient_map _ _ 0 _ above]
              simp
          | succ j =>
              rw [select, get_succ_succ, ih i j above (by simpa using column)]
              simp

end Symmetric

namespace Elimination

theorem completed_entries {rows : List Nat} {start : Nat} {entries completed : List (Option ℝ)}
    (found : (entries.zipIdx start).mapM (fun (entry, i) =>
      if rows.contains i then some (some (entry.getD 0)) else if entry.isNone then some none else none) =
      some completed) :
    completed.length = entries.length ∧
      ∀ i, coefficient completed i = coefficient entries i := by
  induction entries generalizing start completed with
  | nil =>
      obtain rfl : [] = completed := by simpa using found
      simp
  | cons entry entries ih =>
      rw [List.zipIdx_cons, Result.mapM_some_iff] at found
      cases found with
      | cons head tail =>
          obtain ⟨count, same⟩ := ih (Result.mapM_some_iff.mpr tail)
          refine ⟨by simp [count], fun i => ?_⟩
          cases i with
          | zero =>
              rw [coefficient_zero, coefficient_zero]
              dsimp only at head
              split at head
              · obtain rfl := Option.some.inj head
                rfl
              · split at head
                · rename_i absent
                  obtain rfl := Option.some.inj head
                  rw [Option.isNone_iff_eq_none.mp absent]
                · cases head
          | succ i => exact same i

theorem completed_column {rows : List Nat} {j : Nat} {column completed : SymColumn ℝ}
    (found : completeColumn? rows j column = some completed) :
    completed.diagonal.getD 0 = column.diagonal.getD 0 ∧ completed.below.length = column.below.length ∧
      ∀ i, coefficient completed.below i = coefficient column.below i := by
  simp only [completeColumn?, bind, Option.bind_eq_some_iff, pure, Option.some.injEq] at found
  obtain ⟨below, entries, rfl⟩ := found
  obtain ⟨count, same⟩ := completed_entries entries
  exact ⟨rfl, count, same⟩

theorem completed_matrix {places : Places} {start : Nat} {S completed : Symmetric ℝ}
    (triangular : S.Triangular)
    (found : (S.zipIdx start).mapM (fun (column, j) =>
      completeColumn? (places.rowsBelow j) j column) = some completed) :
    completed.Triangular ∧ completed.length = S.length ∧ ∀ i j, completed.get i j = S.get i j := by
  induction S generalizing start completed with
  | nil =>
      obtain rfl : [] = completed := by simpa using found
      exact ⟨trivial, rfl, fun _ _ => rfl⟩
  | cons column S ih =>
      obtain ⟨first, later⟩ := triangular
      rw [List.zipIdx_cons, Result.mapM_some_iff] at found
      cases found with
      | cons head tail =>
          obtain ⟨rest, count, same⟩ := ih later (Result.mapM_some_iff.mpr tail)
          obtain ⟨diagonal, size, entries⟩ := completed_column head
          refine ⟨⟨by rw [size, first, count], rest⟩, by simp [count], fun i j => ?_⟩
          cases i with
          | zero => cases j <;> simp [diagonal, entries]
          | succ i => cases j <;> simp [entries, same]

/-- `x` solves the system of a symmetric matrix with right-hand side `b`. -/
structure Solves (S : Symmetric ℝ) (b x : Vec ℝ) : Prop where
  length_eq : x.length = S.length
  row : ∀ i < S.length, ∑ j ∈ Finset.range S.length, S.get i j * x.getD j 0 = b.getD i 0

theorem cholesky_solves {S : Symmetric ℝ} {L : Cholesky ℝ} {b : Vec ℝ} (triangular : S.Triangular)
    (factored : S.cholesky? = some L) (length : b.length = S.length) : Solves S b (L.solve b) :=
  ⟨(Cholesky.solve_spec triangular factored length).1, (Cholesky.solve_spec triangular factored length).2⟩

theorem solveInBlocks_solves {places : Places} {S : Symmetric ℝ} {b x : Vec ℝ}
    (triangular : S.Triangular) (length : b.length = S.length)
    (solved : solveInBlocks places S b = .ok x) : Solves S b x := by
  unfold solveInBlocks at solved
  split at solved
  · rename_i completed found
    obtain ⟨whole, count, same⟩ := completed_matrix triangular found
    split at solved
    · rename_i L factored
      split at solved
      · obtain rfl := Except.ok.inj solved
        have solves := cholesky_solves whole factored (length.trans count.symm)
        constructor
        · exact solves.length_eq.trans count
        · intro i inside
          have row := solves.row i (inside.trans_eq count.symm)
          rw [count] at row
          simpa only [same] using row
      · cases solved
    · cases solved
  · cases solved

namespace Plan

/-- A plan that was made for a matrix of this shape: every unknown has its turn once. -/
structure Fits (plan : Plan) (shape : List (List Bool)) : Prop where
  shape_eq : plan.shape = shape
  order_perm : plan.order.Perm (List.range shape.length)

theorem ofSymmetric_fits {K : Type} [Scalar K] (S : Symmetric K) : (ofSymmetric S).Fits S.shape :=
  ⟨rfl, by simpa [ofSymmetric, Symmetric.shape] using GroupGraph.order_perm S.length _⟩

theorem solveOrdered_solves {plan : Plan} {S : Symmetric ℝ} {b x : Vec ℝ} (triangular : S.Triangular)
    (length : b.length = S.length) (solved : plan.solveOrdered true S b = .ok x) : Solves S b x := by
  unfold solveOrdered at solved
  split at solved
  · exact solveInBlocks_solves triangular length solved
  · simp only [if_true] at solved
    split at solved
    · rename_i L factored
      obtain rfl := Except.ok.inj solved
      exact cholesky_solves triangular factored length
    · cases solved

/-- A sum over all indices in another order. -/
theorem sum_perm {order : List Nat} {n : Nat} (perm : order.Perm (List.range n)) (f : Nat → ℝ) :
    ∑ c ∈ Finset.range n, f c = ∑ j ∈ Finset.range n, f (order.getD j 0) := by
  have length : order.length = n := by simpa using perm.length_eq
  calc
    ∑ c ∈ Finset.range n, f c = ((List.range n).map f).sum := by
      rw [Vec.sum_eq_range]
      simp only [List.length_map, List.length_range]
      apply Finset.sum_congr rfl
      intro c inside
      simp [List.getD_eq_getElem?_getD, Finset.mem_range.mp inside]
    _ = (order.map f).sum := (perm.map f).sum_eq.symm
    _ = ∑ j ∈ Finset.range n, f (order.getD j 0) := by
      rw [Vec.sum_eq_range, List.length_map, length]
      apply Finset.sum_congr rfl
      intro j inside
      simp [List.getD_eq_getElem?_getD, length, Finset.mem_range.mp inside]

/-- The solution in the order of the plan, put back into the order of the unknowns. -/
theorem solves_reordered {order : List Nat} {S : Symmetric ℝ} {b y : Vec ℝ}
    (perm : order.Perm (List.range S.length))
    (solves : Solves (S.reorder order) (order.map (b.getD · 0)) y) :
    Solves S b (((List.range order.length).map order.idxOf).map (y.getD · 0)) := by
  have length : order.length = S.length := by simpa using perm.length_eq
  have distinct : order.Nodup := perm.nodup_iff.mpr List.nodup_range
  have rank (j : Nat) (inside : j < S.length) : order.idxOf (order.getD j 0) = j := by
    rw [List.getD_eq_getElem _ _ (inside.trans_eq length.symm)]
    exact distinct.idxOf_getElem _ _
  have below (j : Nat) (inside : j < S.length) : order.getD j 0 < S.length := by
    rw [List.getD_eq_getElem _ _ (inside.trans_eq length.symm)]
    exact List.mem_range.mp (perm.mem_iff.mp (List.getElem_mem _))
  refine ⟨by simp [length], fun r inside => ?_⟩
  have present : r ∈ order := perm.mem_iff.mpr (List.mem_range.mpr inside)
  have place : order.idxOf r < S.length := length ▸ List.idxOf_lt_length_of_mem present
  have back : order.getD (order.idxOf r) 0 = r := by
    rw [List.getD_eq_getElem _ _ (place.trans_eq length.symm)]
    exact List.getElem_idxOf _
  have entry (c : Nat) (bound : c < S.length) :
      (((List.range order.length).map order.idxOf).map (y.getD · 0)).getD c 0 = y.getD (order.idxOf c) 0 := by
    simp [List.getD_eq_getElem?_getD, length, bound]
  -- row `r` of the matrix is the row of its rank in the order
  have row := solves.row (order.idxOf r) (by simpa [reorder, length] using place)
  rw [reorder, length_select, length] at row
  rw [sum_perm perm]
  calc
    _ = ∑ j ∈ Finset.range S.length, (select S.table order).get (order.idxOf r) j * y.getD j 0 := by
      apply Finset.sum_congr rfl
      intro j inside
      have bound := Finset.mem_range.mp inside
      rw [get_select _ _ _ _ (place.trans_eq length.symm) (bound.trans_eq length.symm), back,
        ← Symmetric.get, entry _ (below j bound), rank j bound]
    _ = b.getD r 0 := by
      rw [row, List.getD_eq_getElem _ _ (by simpa [length] using place), List.getElem_map,
        List.getElem_idxOf]

/-- A plan solves the systems of the shape that it fits. -/
theorem solve_solves {plan : Plan} {S : Symmetric ℝ} {b x : Vec ℝ}
    (fits : plan.Fits S.shape) (solved : plan.solve S b = .ok x) : Solves S b x := by
  have perm : plan.order.Perm (List.range S.length) := by
    simpa [Symmetric.shape] using fits.order_perm
  unfold solve at solved
  simp only [fits.shape_eq, beq_self_eq_true, Bool.not_true, Bool.false_and, Bool.false_eq_true,
    if_false, Result.bind_ok_iff, Result.pure_ok, Except.ok.injEq] at solved
  obtain ⟨y, ordered, rfl⟩ := solved
  exact solves_reordered perm
    (solveOrdered_solves (select_triangular _ _) (by simp [reorder]) ordered)

end Plan

end Elimination

end GraduatedFit
