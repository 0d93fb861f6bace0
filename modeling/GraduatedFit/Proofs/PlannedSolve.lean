import GraduatedFit.Proofs.EliminationTree
import GraduatedFit.Proofs.PositiveDefinite

/-! The plan of a shape solves exactly the systems of the shape that are positive definite, so that the result does not
depend on what else the shape has room for. -/

namespace GraduatedFit

namespace Symmetric

section Stored

variable {K : Type}

/-- Which entries are stored is a matter of the shape. -/
theorem isSome_stored (S : Symmetric K) (i j : Nat) :
    (stored? S.table i j).isSome = ((S.shape[min i j]?).bind (·[max i j - min i j]?)).getD false := by
  rw [stored_table, shape, List.getElem?_map]
  cases S[min i j]? with
  | none => rfl
  | some column =>
      rw [Option.bind_some, Option.map_some, Option.bind_some, ← List.map_cons, List.getElem?_map]
      cases (column.diagonal :: column.below)[max i j - min i j]? with
      | none => rfl
      | some entry => rfl

theorem isSome_stored_congr {S T : Symmetric K} (same : S.shape = T.shape) (i j : Nat) :
    (stored? S.table i j).isSome = (stored? T.table i j).isSome := by
  rw [isSome_stored, isSome_stored, same]

/-- A selection stores what the table stores in the rows and columns that it names. -/
theorem stored_select (table : Array (Array (Option K))) (order : List Nat) {i j : Nat} (row : i < order.length)
    (column : j < order.length) :
    stored? (select table order).table i j = stored? table (order.getD i 0) (order.getD j 0) := by
  induction order generalizing i j with
  | nil => cases row
  | cons first rest ih =>
      rw [stored_table]
      cases i with
      | zero =>
          cases j with
          | zero => simp [select]
          | succ j =>
              have inside : j < rest.length := by simpa using column
              simp [select, inside, stored_comm table first]
      | succ i =>
          have above : i < rest.length := by simpa using row
          cases j with
          | zero => simp [select, above]
          | succ j =>
              have entry := ih above (by simpa using column)
              rw [stored_table] at entry
              simpa [select, Nat.succ_max_succ, Nat.succ_min_succ] using entry

/-- An entry below the diagonal stands in its column. -/
theorem stored_below {S : Symmetric K} {j : Nat} {column : SymColumn K} (present : S[j]? = some column) (m : Nat) :
    stored? S.table (j + 1 + m) j = column.below[m]?.join := by
  have place : max (j + 1 + m) j - min (j + 1 + m) j = m + 1 := by omega
  rw [stored_table, place, Nat.min_eq_right (by omega), present]
  rfl

theorem Triangular.length_below {S : Symmetric K} (triangular : S.Triangular) {j : Nat} {column : SymColumn K}
    (present : S[j]? = some column) : j + 1 + column.below.length = S.length := by
  induction S generalizing j with
  | nil => cases present
  | cons first S ih =>
      obtain ⟨size, later⟩ := triangular
      cases j with
      | zero =>
          obtain rfl := Option.some.inj present
          rw [size, List.length_cons]
          omega
      | succ j =>
          have rest := ih later present
          rw [List.length_cons]
          omega

end Stored

end Symmetric

namespace Elimination

open GraduatedFit.Symmetric

/-- A column that has entries in the given rows only can be completed. -/
theorem completeColumn_exists {K : Type} [Scalar K] {rows : List Nat} {j : Nat} {column : SymColumn K}
    (room : ∀ m entry, column.below[m]? = some (some entry) → j + 1 + m ∈ rows) :
    ∃ completed, completeColumn? rows j column = some completed := by
  have each : ∀ p ∈ column.below.zipIdx (j + 1), ∃ c, (if rows.contains p.2 then some (some (p.1.getD 0))
      else if p.1.isNone then some none else none) = some c := by
    rintro ⟨entry, i⟩ member
    obtain ⟨m, stored⟩ := List.mem_iff_getElem?.mp member
    rw [List.getElem?_zipIdx, Option.map_eq_some_iff] at stored
    obtain ⟨present, found, same⟩ := stored
    obtain ⟨rfl, rfl⟩ := Prod.mk.inj same
    cases present with
    | none => cases rows.contains (j + 1 + m) <;> exact ⟨_, rfl⟩
    | some x =>
        have inside : rows.contains (j + 1 + m) = true := by simpa using room m x found
        exact ⟨_, if_pos inside⟩
  obtain ⟨below, entries⟩ := forall₂_exists each
  refine ⟨⟨some (column.diagonal.getD 0), below⟩, ?_⟩
  rw [completeColumn?, Result.mapM_some_iff.mpr entries]
  rfl

/-- A matrix that has entries in the given places only can be completed. -/
theorem complete_exists {K : Type} [Scalar K] {places : Places} {S : Symmetric K} (triangular : S.Triangular)
    (room : ∀ i j, j < i → i < S.length → (stored? S.table i j).isSome = true → i ∈ places.rowsBelow j) :
    ∃ completed, complete? places S = some completed := by
  have each : ∀ p ∈ S.zipIdx, ∃ c, completeColumn? (places.rowsBelow p.2) p.2 p.1 = some c := by
    rintro ⟨column, j⟩ member
    have present : S[j]? = some column := List.mem_zipIdx_iff_getElem?.mp member
    refine completeColumn_exists fun m entry found => ?_
    obtain ⟨inside, -⟩ := List.getElem?_eq_some_iff.mp found
    have size := triangular.length_below present
    have below : m < column.below.length := inside
    refine room _ j (by omega) (by omega) ?_
    rw [stored_below present]
    dsimp only at found
    rw [found]
    rfl
  obtain ⟨completed, related⟩ := forall₂_exists each
  exact ⟨completed, Result.mapM_some_iff.mpr related⟩

namespace Plan

section Ranks

/-- Each of different unknowns has its place for a rank, and others keep theirs. -/
theorem ranks_getD {order : List Nat} {start : Nat} {ranks : Array Nat} (distinct : order.Nodup)
    (inside : ∀ c ∈ order, c < ranks.size) :
    let final := (order.zipIdx start).foldl (fun ranks (i, rank) => ranks.setIfInBounds i rank) ranks
    (∀ c, c ∉ order → final.getD c 0 = ranks.getD c 0) ∧ ∀ j c, order[j]? = some c → final.getD c 0 = start + j := by
  induction order generalizing start ranks with
  | nil =>
      refine ⟨fun _ _ => rfl, fun j c present => ?_⟩
      cases present
  | cons first order ih =>
      obtain ⟨absent, later⟩ := List.nodup_cons.mp distinct
      have sized : ∀ c ∈ order, c < (ranks.setIfInBounds first start).size := by
        intro c member
        rw [Array.size_setIfInBounds]
        exact inside c (.tail _ member)
      obtain ⟨others, places⟩ := @ih (start + 1) (ranks.setIfInBounds first start) later sized
      rw [List.zipIdx_cons, List.foldl_cons]
      constructor
      · intro c apart
        obtain ⟨differ, outside⟩ := not_or.mp (mt List.mem_cons.mpr apart)
        rw [others c outside, Array.getD_eq_getD_getElem?, Array.getElem?_setIfInBounds_ne (Ne.symm differ),
          ← Array.getD_eq_getD_getElem?]
      · intro j c present
        cases j with
        | zero =>
            obtain rfl := Option.some.inj present
            rw [others first absent, Array.getD_eq_getD_getElem?,
              Array.getElem?_setIfInBounds_self_of_lt (inside first (.head _))]
            rfl
        | succ j => exact (places j c present).trans (by omega)

theorem tiesBefore_earlier {neighbours : List (List Nat)} {order : List Nat} {k : Nat} {columns : List Nat}
    (present : (tiesBefore neighbours order)[k]? = some columns) : ∀ j ∈ columns, j < k := by
  rw [tiesBefore, List.getElem?_map, Option.map_eq_some_iff] at present
  obtain ⟨⟨i, place⟩, found, rfl⟩ := present
  rw [List.getElem?_zipIdx, Option.map_eq_some_iff] at found
  obtain ⟨_, -, same⟩ := found
  obtain ⟨-, rfl⟩ := Prod.mk.inj same
  intro j member
  simpa using (List.mem_filter.mp (List.mem_mergeSort.mp member)).2

/-- The rank of an unknown is its position in the order. -/
theorem rank_eq {order : List Nat} (perm : order.Perm (List.range order.length)) {j c : Nat}
    (place : order[j]? = some c) :
    (order.zipIdx.foldl (fun ranks (i, rank) => ranks.setIfInBounds i rank)
      (Array.replicate order.length 0)).getD c 0 = j := by
  have inside : ∀ c ∈ order, c < (Array.replicate order.length 0).size := by
    intro c member
    rw [Array.size_replicate]
    exact List.mem_range.mp (perm.mem_iff.mp member)
  obtain ⟨-, places⟩ := @ranks_getD order 0 _ (perm.nodup_iff.mpr List.nodup_range) inside
  exact (places j c place).trans (Nat.zero_add j)

/-- The unknowns before one that it is tied to are listed for it. -/
theorem mem_tiesBefore {neighbours : List (List Nat)} {order : List Nat} (perm : order.Perm (List.range order.length))
    {j k c r : Nat} (column : order[j]? = some c) (row : order[k]? = some r) (before : j < k)
    (tied : c ∈ neighbours.getD r []) : ∃ columns, (tiesBefore neighbours order)[k]? = some columns ∧ j ∈ columns := by
  rw [tiesBefore, List.getElem?_map, List.getElem?_zipIdx, row]
  refine ⟨_, rfl, List.mem_mergeSort.mpr (List.mem_filter.mpr
    ⟨List.mem_map.mpr ⟨c, ?_, rank_eq perm column⟩, by simpa using before⟩)⟩
  rwa [Array.getD_eq_getD_getElem?, List.getElem?_toArray, ← List.getD_eq_getElem?_getD]

end Ranks

section Same

variable {S T : Symmetric ℝ} (same : S.shape = T.shape)
include same

theorem length_of_shape : S.length = T.length := by
  have lengths := congrArg List.length same
  simpa [Symmetric.shape] using lengths

theorem order_perm_of_shape : (ofSymmetric T).order.Perm (List.range S.length) := by
  have perm := (ofSymmetric_fits T).order_perm
  rw [← same] at perm
  simpa [Symmetric.shape] using perm

/-- In the order of the plan a matrix of its shape has entries in the places of the plan only. -/
theorem complete_reorder :
    ∃ completed, complete? (Places.ofNeighbours (ofSymmetric T).before) (S.reorder (ofSymmetric T).order) =
      some completed := by
  have perm := order_perm_of_shape same
  have length : (ofSymmetric T).order.length = S.length := by simpa using perm.length_eq
  have distinct : (ofSymmetric T).order.Nodup := perm.nodup_iff.mpr List.nodup_range
  refine complete_exists (select_triangular _ _) fun i j before inside occupied => ?_
  rw [Symmetric.reorder, length_select] at inside
  have column : j < (ofSymmetric T).order.length := before.trans inside
  rw [Symmetric.reorder, stored_select _ _ inside column, List.getD_eq_getElem _ _ inside,
    List.getD_eq_getElem _ _ column, isSome_stored_congr same] at occupied
  have bound (k : Nat) (here : k < (ofSymmetric T).order.length) : (ofSymmetric T).order[k] < T.length := by
    rw [← length_of_shape same]
    exact List.mem_range.mp (perm.mem_iff.mp (List.getElem_mem here))
  have apart : (ofSymmetric T).order[i] ≠ (ofSymmetric T).order[j] := fun equal =>
    before.ne' ((distinct.getElem_inj_iff).mp equal)
  have tied : (ofSymmetric T).order[j] ∈ T.neighbours.getD (ofSymmetric T).order[i] [] := by
    simp [Symmetric.neighbours, List.getD_eq_getElem?_getD, bound, apart, occupied]
  obtain ⟨columns, listed, member⟩ := mem_tiesBefore (length.symm ▸ perm) (List.getElem?_eq_getElem column)
    (List.getElem?_eq_getElem inside) before tied
  exact Places.rowsBelow_ofNeighbours (fun k columns => tiesBefore_earlier) listed member

/-- In the order of the plan the system is solved if it is positive definite, and else it is singular. -/
theorem solveOrdered_cases (b : Vec ℝ) :
    (S.PositiveDefinite ∧ ∃ x, (ofSymmetric T).solveOrdered true (S.reorder (ofSymmetric T).order) b = .ok x) ∨
    (¬S.PositiveDefinite ∧
      (ofSymmetric T).solveOrdered true (S.reorder (ofSymmetric T).order) b = .fail (.linear .singularMatrix)) := by
  have reordered := positiveDefinite_reorder (order_perm_of_shape same)
  rw [← reordered]
  unfold solveOrdered
  cases (ofSymmetric T).inBlocks with
  | true =>
      obtain ⟨completed, found⟩ := complete_reorder same
      obtain ⟨whole, count, entries⟩ := completed_matrix (select_triangular _ _) found
      have definite : completed.PositiveDefinite ↔ (S.reorder (ofSymmetric T).order).PositiveDefinite :=
        positiveDefinite_congr count fun i j _ _ => entries i j
      rw [if_pos rfl, solveInBlocks, found, ← definite]
      rcases cholesky_cases whole with ⟨positive, L, factored⟩ | ⟨indefinite, factored⟩
      · refine .inl ⟨positive, L.solve b, ?_⟩
        have finite : L.all (Scalar.finite ·.pivot) = true := by simp
        simp only [factored, finite]
        rfl
      · exact .inr ⟨indefinite, by simp only [factored]⟩
  | false =>
      rw [if_neg Bool.false_ne_true, if_pos rfl]
      rcases cholesky_cases (select_triangular S.table (ofSymmetric T).order) with ⟨positive, L, factored⟩ |
        ⟨indefinite, factored⟩
      · exact .inl ⟨positive, L.solve b, by rw [Symmetric.reorder, factored]⟩
      · exact .inr ⟨indefinite, by rw [Symmetric.reorder, factored]⟩

/-- The plan of a shape solves a system of the shape if it is positive definite, and else it reports it as singular. -/
theorem solve_cases (b : Vec ℝ) :
    (S.PositiveDefinite ∧ ∃ x, (ofSymmetric T).solve S b = .ok x ∧ Solves S b x) ∨
    (¬S.PositiveDefinite ∧ (ofSymmetric T).solve S b = .fail (.linear .singularMatrix)) := by
  have fits : (ofSymmetric T).Fits S.shape := same ▸ ofSymmetric_fits T
  have unfolded : (ofSymmetric T).solve S b = (do
      let x ← (ofSymmetric T).solveOrdered true (S.reorder (ofSymmetric T).order)
        ((ofSymmetric T).order.map (b.getD · 0))
      return (ofSymmetric T).ranks.map fun rank => x.getD rank 0) := by
    simp only [solve, fits.shape_eq, beq_self_eq_true, Bool.not_true, Bool.false_and, Bool.false_eq_true, if_false]
  rcases solveOrdered_cases same ((ofSymmetric T).order.map (b.getD · 0)) with ⟨positive, x, solved⟩ |
    ⟨indefinite, failed⟩
  · have found : (ofSymmetric T).solve S b = .ok ((ofSymmetric T).ranks.map fun rank => x.getD rank 0) := by
      rw [unfolded, solved]
      rfl
    exact .inl ⟨positive, _, found, solve_solves fits found⟩
  · refine .inr ⟨indefinite, ?_⟩
    rw [unfolded, failed]
    rfl

end Same

/-- Two matrices with the same numbers have the same solution, or they are both singular, each by the plan of its own
shape. -/
theorem solve_same {S S' T T' : Symmetric ℝ} (shape : S.shape = T.shape) (shape' : S'.shape = T'.shape)
    (length : S'.length = S.length) (numbers : ∀ i j, i < S.length → j < S.length → S'.get i j = S.get i j)
    (b : Vec ℝ) : (ofSymmetric T').solve S' b = (ofSymmetric T).solve S b := by
  have definite := positiveDefinite_congr length numbers
  rcases solve_cases shape b with ⟨positive, x, solved, solves⟩ | ⟨indefinite, failed⟩
  · rcases solve_cases shape' b with ⟨positive', x', solved', solves'⟩ | ⟨indefinite', -⟩
    · have solves'' : Solves S b x' := by
        refine ⟨solves'.length_eq.trans length, fun i inside => ?_⟩
        rw [← solves'.row i (inside.trans_eq length.symm), length]
        exact Finset.sum_congr rfl fun j member => by rw [numbers i j inside (Finset.mem_range.mp member)]
      rw [solved, solved', solves.unique positive solves'']
    · exact absurd (definite.mpr positive) indefinite'
  · rcases solve_cases shape' b with ⟨positive', -⟩ | ⟨-, failed'⟩
    · exact absurd (definite.mp positive') indefinite
    · rw [failed, failed']

end Plan

end Elimination

end GraduatedFit
