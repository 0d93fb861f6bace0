import GraduatedFit.Proofs.PlacedSolve
import GraduatedFit.Proofs.SameNumbers

/-! A plan serves every matrix with the ties that it was made for, whatever is stored on the diagonals, as long as it has
room for what the matrix stores. -/

namespace GraduatedFit

open GraduatedFit.Symmetric

namespace Elimination

namespace Plan

section Ties

variable {neighbours : List (List Nat)} {order : List Nat}

/-- Only unknowns that are tied are listed. -/
theorem tied_of_mem_tiesBefore (perm : order.Perm (List.range order.length))
    (inside : ∀ r < order.length, ∀ c ∈ neighbours.getD r [], c < order.length) {j k : Nat} {columns : List Nat}
    (present : (tiesBefore neighbours order)[k]? = some columns) (member : j ∈ columns) :
    k < order.length ∧ order.getD j 0 ∈ neighbours.getD (order.getD k 0) [] := by
  rw [tiesBefore, List.getElem?_map, Option.map_eq_some_iff] at present
  obtain ⟨⟨r, place⟩, found, rfl⟩ := present
  rw [List.getElem?_zipIdx, Option.map_eq_some_iff] at found
  obtain ⟨r', row, same⟩ := found
  obtain ⟨rfl, rfl⟩ := Prod.mk.inj same
  obtain ⟨bound, here⟩ := List.getElem?_eq_some_iff.mp row
  obtain ⟨c, tied, rank⟩ := List.mem_map.mp (List.mem_filter.mp (List.mem_mergeSort.mp member)).1
  rw [Array.getD_eq_getD_getElem?, List.getElem?_toArray, ← List.getD_eq_getElem?_getD] at tied
  have within : r' < order.length := List.mem_range.mp (perm.mem_iff.mp (List.mem_of_getElem? row))
  have listed : c ∈ order := perm.mem_iff.mpr (List.mem_range.mpr (inside r' within c tied))
  obtain ⟨i, column⟩ := List.mem_iff_getElem?.mp listed
  obtain rfl : i = j := (rank_eq perm column).symm.trans rank
  have first : order.getD i 0 = c := by rw [List.getD_eq_getElem?_getD, column, Option.getD_some]
  have second : order.getD k 0 = r' := by rw [List.getD_eq_getElem?_getD, row, Option.getD_some]
  rw [first, second]
  exact ⟨bound, tied⟩

end Ties

section Reordered

variable {S : Symmetric ℝ}

theorem mem_neighbours {K : Type} {S : Symmetric K} {i j : Nat} :
    j ∈ S.neighbours.getD i [] ↔ i < S.length ∧ j < S.length ∧ i ≠ j ∧ (stored? S.table i j).isSome = true := by
  by_cases inside : i < S.length
  · simp [Symmetric.neighbours, List.getD_eq_getElem?_getD, inside]
  · simp [Symmetric.neighbours, List.getD_eq_getElem?_getD, inside]

/-- In the order of its plan a matrix stores entries before the diagonal where the plan lists them. -/
theorem reorder_lists (S : Symmetric ℝ) : Lists (S.reorder (ofSymmetric S).order) (ofSymmetric S).before := by
  have perm := order_perm_of_shape (S := S) rfl
  have length : (ofSymmetric S).order.length = S.length := by simpa using perm.length_eq
  have ranked : (ofSymmetric S).order.Perm (List.range (ofSymmetric S).order.length) := length.symm ▸ perm
  have inside : ∀ r < (ofSymmetric S).order.length, ∀ c ∈ S.neighbours.getD r [], c < (ofSymmetric S).order.length :=
    fun r _ c tied => (mem_neighbours.mp tied).2.1.trans_eq length.symm
  refine ⟨?_, fun k columns present j => ⟨fun member => ?_, fun ⟨below, stored⟩ => ?_⟩⟩
  · simp [Symmetric.reorder, ofSymmetric, tiesBefore]
  · have below := tiesBefore_earlier present j member
    obtain ⟨row, tied⟩ := tied_of_mem_tiesBefore ranked inside present member
    refine ⟨below, ?_⟩
    rw [Symmetric.reorder, stored_select _ _ row (below.trans row)]
    exact (mem_neighbours.mp tied).2.2.2
  · obtain ⟨bound, -⟩ := List.getElem?_eq_some_iff.mp present
    have row : k < (ofSymmetric S).order.length := by simpa [ofSymmetric, tiesBefore] using bound
    have column := below.trans row
    rw [Symmetric.reorder, stored_select _ _ row column, List.getD_eq_getElem _ _ row, List.getD_eq_getElem _ _ column]
      at stored
    have distinct : (ofSymmetric S).order.Nodup := perm.nodup_iff.mpr List.nodup_range
    have within (i : Nat) (here : i < (ofSymmetric S).order.length) : (ofSymmetric S).order[i] < S.length :=
      List.mem_range.mp (perm.mem_iff.mp (List.getElem_mem here))
    have apart : (ofSymmetric S).order[k] ≠ (ofSymmetric S).order[j] := fun equal =>
      below.ne' (distinct.getElem_inj_iff.mp equal)
    obtain ⟨listed, found, member⟩ := mem_tiesBefore ranked (List.getElem?_eq_getElem column)
      (List.getElem?_eq_getElem row) below (mem_neighbours.mpr ⟨within k row, within j column, apart, stored⟩)
    have same : listed = columns := Option.some.inj (found.symm.trans present)
    exact same ▸ member

theorem ranks_perm {plan : Plan} {n : Nat} (perm : plan.order.Perm (List.range n)) :
    plan.ranks.Perm (List.range n) := by
  have length : plan.order.length = n := by simpa using perm.length_eq
  have distinct : plan.order.Nodup := perm.nodup_iff.mpr List.nodup_range
  have back (c : Nat) (bound : c < n) : plan.order[plan.order.idxOf c]? = some c := by
    have listed : c ∈ plan.order := perm.mem_iff.mpr (List.mem_range.mpr bound)
    rw [List.getElem?_eq_getElem (List.idxOf_lt_length_of_mem listed), List.getElem_idxOf]
  refine (List.perm_ext_iff_of_nodup ?_ List.nodup_range).mpr fun k => ?_
  · refine List.Nodup.map_on (fun c left c' right same => ?_) List.nodup_range
    have first := back c (by simpa [length] using left)
    rw [same, back c' (by simpa [length] using right)] at first
    exact (Option.some.inj first).symm
  · rw [ranks, List.mem_map, length]
    constructor
    · rintro ⟨c, bound, rfl⟩
      have listed : c ∈ plan.order := perm.mem_iff.mpr bound
      exact List.mem_range.mpr (length ▸ List.idxOf_lt_length_of_mem listed)
    · intro bound
      have inside : k < plan.order.length := length ▸ List.mem_range.mp bound
      exact ⟨plan.order[k], perm.mem_iff.mp (List.getElem_mem inside), distinct.idxOf_getElem k inside⟩

/-- A system is solved in the order of its plan if it is positive definite, and else it is singular, whether it is taken
for one of the shape of the plan or not. -/
theorem solveOrdered_any (S : Symmetric ℝ) (fits : Bool) {b : Vec ℝ} (length : b.length = S.length) :
    (S.PositiveDefinite ∧ ∃ x, (ofSymmetric S).solveOrdered fits (S.reorder (ofSymmetric S).order) b = .ok x ∧
      Solves (S.reorder (ofSymmetric S).order) b x) ∨
    (¬S.PositiveDefinite ∧
      (ofSymmetric S).solveOrdered fits (S.reorder (ofSymmetric S).order) b = .fail (.linear .singularMatrix)) := by
  have perm := order_perm_of_shape (S := S) rfl
  have size : (S.reorder (ofSymmetric S).order).length = S.length := by
    rw [Symmetric.reorder, length_select]
    simpa using perm.length_eq
  have triangular : (S.reorder (ofSymmetric S).order).Triangular := select_triangular _ _
  have whole : (S.PositiveDefinite ∧ ∃ x, (ofSymmetric S).solveOrdered true (S.reorder (ofSymmetric S).order) b = .ok x ∧
      Solves (S.reorder (ofSymmetric S).order) b x) ∨ (¬S.PositiveDefinite ∧
        (ofSymmetric S).solveOrdered true (S.reorder (ofSymmetric S).order) b = .fail (.linear .singularMatrix)) := by
    rcases solveOrdered_cases (S := S) rfl b with ⟨positive, x, solved⟩ | failed
    · exact .inl ⟨positive, x, solved, solveOrdered_solves triangular (length.trans size.symm) solved⟩
    · exact .inr failed
  cases fits with
  | true => exact whole
  | false =>
      by_cases blocks : (ofSymmetric S).inBlocks = true
      · simpa only [solveOrdered, blocks, if_true] using whole
      · have cases := solveInPlaces_cases (reorder_lists S) triangular
          (size.symm ▸ ranks_perm perm : (ofSymmetric S).ranks.Perm _) (length.trans size.symm)
        rw [positiveDefinite_reorder perm] at cases
        simpa only [solveOrdered, blocks, if_false, Bool.false_eq_true] using cases

end Reordered

section Tied

variable {S T : Symmetric ℝ}

/-- The diagonal of a matrix plays no part in the order of its elimination. -/
theorem ofSymmetric_tied (ties : S.neighbours = T.neighbours) : ofSymmetric T = { ofSymmetric S with shape := T.shape } := by
  have lengths : S.length = T.length := by simpa [Symmetric.neighbours] using congrArg List.length ties
  simp only [ofSymmetric, ties, lengths]

/-- The plan of a matrix with the same ties solves a system if it is positive definite, and else it reports it as
singular. -/
theorem solve_tied (ties : S.neighbours = T.neighbours) (room : S.shape = T.shape ∨ (ofSymmetric T).holds S = true)
    (b : Vec ℝ) :
    (S.PositiveDefinite ∧ ∃ x, (ofSymmetric T).solve S b = .ok x ∧ Solves S b x) ∨
      (¬S.PositiveDefinite ∧ (ofSymmetric T).solve S b = .fail (.linear .singularMatrix)) := by
  have perm := order_perm_of_shape (S := S) rfl
  have admitted : (!S.shape == T.shape && !(ofSymmetric T).holds S) = false := by
    rcases room with same | holds
    · simp [same]
    · simp [holds]
  have unfolded : (ofSymmetric T).solve S b = (do
      let x ← (ofSymmetric S).solveOrdered (S.shape == T.shape) (S.reorder (ofSymmetric S).order)
        ((ofSymmetric S).order.map (b.getD · 0))
      return (ofSymmetric S).ranks.map fun rank => x.getD rank 0) := by
    have shape : (ofSymmetric T).shape = T.shape := rfl
    simp only [solve, shape, admitted, Bool.false_eq_true, if_false]
    rw [ofSymmetric_tied ties]
    rfl
  have length : ((ofSymmetric S).order.map (b.getD · 0)).length = S.length := by simpa using perm.length_eq
  rw [unfolded]
  rcases solveOrdered_any S (S.shape == T.shape) length with ⟨positive, x, solved, solves⟩ | ⟨indefinite, failed⟩
  · refine .inl ⟨positive, _, ?_, solves_reordered perm solves⟩
    rw [solved]
    rfl
  · refine .inr ⟨indefinite, ?_⟩
    rw [failed]
    rfl

/-- Without room the matrix does not go with the plan. -/
theorem solve_crowded {plan : Plan} (shape : S.shape ≠ plan.shape) (crowded : plan.holds S = false) (b : Vec ℝ) :
    plan.solve S b = .error .misshapen := by
  have other : (S.shape == plan.shape) = false := beq_false_of_ne shape
  simp [solve, other, crowded]

end Tied

end Plan

end Elimination

namespace SparseMat

section Counts

variable {K : Type} [Scalar K]

/-- The columns that store nothing. -/
def emptyColumns (columns : List (SparseVec K)) : Nat := columns.countP List.isEmpty

/-- The pairs of columns that have a row in common. -/
def sharedPairs : List (SparseVec K) → Nat
  | [] => 0
  | column :: columns => columns.countP (fun other => (column.overlap other).isSome) + sharedPairs columns

theorem isSome_overlap_self (column : SparseVec K) : (column.overlap column).isSome = !column.isEmpty := by
  cases column with
  | nil => simp [SparseVec.overlap, SparseVec.products]
  | cons e column =>
      have first : SparseVec.products (e :: column) (e :: column) = e.2 * e.2 :: SparseVec.products column column := by
        rw [SparseVec.products, if_neg (lt_irrefl _), if_neg (lt_irrefl _)]
      rw [SparseVec.overlap, first]
      rfl

open Elimination in
/-- How much a Gram matrix stores, on and below its diagonal and in all, with its diagonal as it is and damped. -/
theorem gramOf_counts (columns : List (SparseVec K)) (x : K) :
    lowerCount (gramOf columns).shape + emptyColumns columns = columns.length + sharedPairs columns ∧
      wholeCount (gramOf columns).shape = lowerCount (gramOf columns).shape + sharedPairs columns ∧
      lowerCount ((gramOf columns).addDiagonal x).shape = columns.length + sharedPairs columns ∧
      wholeCount ((gramOf columns).addDiagonal x).shape = columns.length + 2 * sharedPairs columns := by
  induction columns with
  | nil => exact ⟨rfl, rfl, rfl, rfl⟩
  | cons column columns ih =>
      have entries : (columns.map fun other => (column.overlap other).isSome).count true =
          columns.countP fun other => (column.overlap other).isSome := by
        rw [List.count, List.countP_map]
        exact List.countP_congr fun other _ => by simp
      simp only [gramOf, Symmetric.shape, Symmetric.addDiagonal, lowerCount, wholeCount, emptyColumns, sharedPairs,
        List.map_cons, List.map_map, List.foldr_cons, List.count_cons, List.tail_cons, Function.comp_def, List.length_cons,
        List.countP_cons, isSome_overlap_self, entries, Option.isSome_some] at ih ⊢
      cases column.isEmpty <;> simp at ih ⊢ <;> omega

end Counts

section Ties

variable {K : Type} [Scalar K]

theorem stored_addDiagonal (S : Symmetric K) (x : K) {i j : Nat} (apart : i ≠ j) :
    stored? (S.addDiagonal x).table i j = stored? S.table i j := by
  rw [stored_table, stored_table, Symmetric.addDiagonal, List.getElem?_map]
  have below : max i j - min i j ≠ 0 := by omega
  obtain ⟨m, place⟩ := Nat.exists_eq_succ_of_ne_zero below
  rw [place]
  cases S[min i j]? <;> rfl

/-- Which unknowns are tied is a matter of what the Jacobian stores. -/
theorem damped_neighbours {J J' : SparseMat K} (same : J.support = J'.support) (damping damping' : Option K) :
    (J.damped damping).neighbours = (J'.damped damping').neighbours := by
  have plain (J : SparseMat K) (damping : Option K) : (J.damped damping).neighbours = J.gram.neighbours := by
    cases damping with
    | none => rfl
    | some x =>
        have length : (J.gram.addDiagonal x).length = J.gram.length := List.length_map _
        simp only [damped, Option.elim_some, Symmetric.neighbours, length]
        refine List.map_congr_left fun i _ => List.filter_congr fun j _ => ?_
        by_cases here : i = j
        · simp [here]
        · rw [stored_addDiagonal _ _ here]
  have shape : J.gram.shape = J'.gram.shape := gramOf_shape_plain same
  have length : J.gram.length = J'.gram.length := by
    have lengths := congrArg List.length shape
    simpa [Symmetric.shape] using lengths
  rw [plain, plain, Symmetric.neighbours, Symmetric.neighbours, length]
  refine List.map_congr_left fun i _ => List.filter_congr fun j _ => ?_
  rw [isSome_stored_congr shape]

end Ties

end SparseMat

end GraduatedFit
