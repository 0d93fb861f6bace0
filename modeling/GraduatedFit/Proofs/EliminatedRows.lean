import GraduatedFit.Proofs.FactorPattern
import GraduatedFit.Elimination.Misfit

/-! Elimination row by row in places that were laid out for the columns which the rows depend on: it finds the factor of
the matrix, or a row whose pivot is not positive. -/

namespace GraduatedFit

namespace Elimination

open Places

section Rows

variable {S : Symmetric ℝ} {places : Places} {before : List (List Nat)} (fits : FitsIn S places before)
  {k j : Nat} {rest : List Nat}

namespace Workspace

/-- The numbers of the factor stand in their places: the pivots of the columns before `k`, and of each column those below
the diagonal in the rows up to a bound of its own. Behind them is the next free place. -/
structure Filled (S : Symmetric ℝ) (places : Places) (before : List (List Nat)) (k : Nat) (upto : Nat → Nat)
    (w : Workspace ℝ) : Prop where
  row_size : w.row.size = before.length
  factor_size : w.factor.size = places.rows.size
  free_size : w.free.size = before.length
  free_eq : ∀ j < before.length, w.free.getD j 0 =
    places.start j + 1 + (dependents (reachedBy places.parents before) j (upto j)).length
  entry_eq : ∀ j < before.length, ∀ t i, (dependents (reachedBy places.parents before) j (upto j))[t]? = some i →
    w.factor.getD (places.start j + 1 + t) 0 = S.factorEntry i j
  pivot_eq : ∀ j < k, w.factor.getD (places.start j) 0 = S.factorEntry j j

/-- Row `k` is in work: the columns in the list are still to be eliminated from it. -/
structure Underway (S : Symmetric ℝ) (places : Places) (before : List (List Nat)) (k : Nat) (rest : List Nat)
    (progress : Workspace ℝ × ℝ) : Prop where
  filled : progress.1.Filled S places before k fun j => if j ∈ rest then k else k + 1
  row_eq : ∀ i < before.length, progress.1.row.getD i 0 = if i ∈ rest then leftOver S k rest i else 0
  diagonal_eq : progress.2 = leftOver S k rest k

section Column

variable {w : Workspace ℝ} {d : ℝ} (inside : k < before.length) (chained : Chained places.parents k (j :: rest))
  (depends : ∀ i ∈ j :: rest, i ∈ reachedBy places.parents before k)
  (underway : Underway S places before k (j :: rest) (w, d))

include fits inside depends underway in
/-- There is a place for the entry that the elimination of a column finds. -/
theorem free_lt : w.free.getD j 0 = places.start j + 1 + (dependents (reachedBy places.parents before) j k).length ∧
    w.free.getD j 0 < w.factor.size := by
  have below := fits.below_of_depends inside (depends j (.head _))
  have free := underway.filled.free_eq j (below.trans inside)
  simp only [List.mem_cons_self, if_true] at free
  refine ⟨free, ?_⟩
  obtain ⟨room, -⟩ := List.getElem?_eq_some_iff.mp (dependents_next (depends j (.head _)) inside)
  have place := fits.serves.laid.place_lt (below.trans inside) (show _ + 1 ≤ _ from room)
  rw [free, underway.filled.factor_size]
  omega

include fits inside chained depends underway in
/-- The entry of the factor that the elimination of a column finds. -/
theorem entry_found : w.row.getD j 0 * (1 / w.factor.getD (places.start j) 0) = S.factorEntry k j := by
  have below := fits.below_of_depends inside (depends j (.head _))
  have row := underway.row_eq j (below.trans inside)
  rw [if_pos (List.mem_cons_self ..), fits.leftOver_first inside below chained] at row
  dsimp only at row
  rw [row, underway.filled.pivot_eq j below, mul_one_div, Symmetric.factorEntry_below below]

include fits inside depends underway in
/-- The places of a column that are taken hold the rows before this one that depend on it. -/
theorem taken_eq (x : ℝ) (row : Array ℝ) :
    (List.range' (places.start j + 1) (w.free.getD j 0 - (places.start j + 1))).foldl
        (fun row place => row.modify (places.rows.getD place 0) (· - w.factor.getD place 0 * x)) row =
      (dependents (reachedBy places.parents before) j k).foldl
        (fun row i => row.modify i (· - S.factorEntry i j * x)) row := by
  have below := fits.below_of_depends inside (depends j (.head _))
  obtain ⟨free, -⟩ := free_lt fits inside depends underway
  rw [free, Nat.add_sub_cancel_left]
  refine foldl_places (fun t i present row => ?_) row
  have entry := underway.filled.entry_eq j (below.trans inside) t i (by simpa using present)
  obtain ⟨later, whole⟩ := dependents_extends (reachedBy places.parents before) j inside.le
  have place := fits.serves.laid.row_eq j (below.trans inside) t i (by
    rw [← whole, List.getElem?_append_left (List.getElem?_eq_some_iff.mp present).1, present])
  dsimp only at entry
  rw [entry, place]

include fits inside chained depends underway in
/-- What the elimination of a column leaves of the row. -/
theorem row_after {row : Array ℝ} (done : row = (dependents (reachedBy places.parents before) j k).foldl
      (fun row i => row.modify i (· - S.factorEntry i j * S.factorEntry k j)) (w.row.setIfInBounds j 0)) :
    row.size = before.length ∧ ∀ i < before.length, row.getD i 0 = if i ∈ rest then leftOver S k rest i else 0 := by
  have below := fits.below_of_depends inside (depends j (.head _))
  obtain ⟨fresh, -⟩ := chained.fresh
  have sizes := size_modify_each id (fun i y => y - S.factorEntry i j * S.factorEntry k j)
    (dependents (reachedBy places.parents before) j k) (w.row.setIfInBounds j 0)
  refine ⟨done ▸ sizes.trans (Array.size_setIfInBounds.trans underway.filled.row_size), fun i bound => ?_⟩
  have former := underway.row_eq i bound
  dsimp only at former
  rw [done, fits.takenOff k underway.filled.row_size bound, former]
  by_cases waiting : i ∈ rest
  · have apart : i ≠ j := fun same => fresh (same ▸ waiting)
    have earlier := fits.below_of_depends inside (depends i (.tail _ waiting))
    rw [if_neg apart, if_pos (List.mem_cons_of_mem j waiting), if_pos waiting, if_pos earlier,
      leftOver_cons below fresh, mul_comm (S.factorEntry k j)]
  · rw [if_neg waiting]
    by_cases same : i = j
    · rw [if_pos same]
    · rw [if_neg same, if_neg (by simp [same, waiting]), zero_sub, neg_eq_zero]
      split
      · rename_i earlier
        have zero : S.factorEntry i j = 0 := by
          rcases lt_or_gt_of_ne same with above | later
          · exact Symmetric.factorEntry_above above
          · refine fits.factorEntry_zero bound later fun dependent => waiting ?_
            exact chained.onward fits.serves.ascending (fits.serves.leads_of_mem bound dependent) earlier same
        rw [zero, zero_mul]
      · rfl

include fits inside chained depends underway in
/-- The number that the elimination of a column finds goes to the next place of the column. -/
theorem filled_after {row : Array ℝ} (size : row.size = before.length) :
    Filled S places before k (fun c => if c ∈ rest then k else k + 1) ⟨row,
      w.factor.setIfInBounds (w.free.getD j 0) (S.factorEntry k j), w.free.setIfInBounds j (w.free.getD j 0 + 1)⟩ := by
  have below := fits.below_of_depends inside (depends j (.head _))
  have column := below.trans inside
  obtain ⟨fresh, -⟩ := chained.fresh
  obtain ⟨free, room⟩ := free_lt fits inside depends underway
  have filled := underway.filled
  have grown : dependents (reachedBy places.parents before) j (k + 1) =
      dependents (reachedBy places.parents before) j k ++ [k] := by
    rw [dependents_succ, if_pos (depends j (.head _))]
  have others {c : Nat} (apart : c ≠ j) : (if c ∈ rest then k else k + 1) = if c ∈ j :: rest then k else k + 1 := by
    simp [apart]
  have place {c t : Nat} (bound : c < before.length)
      (within : t ≤ (dependents (reachedBy places.parents before) c before.length).length)
      (same : places.start c + t = w.free.getD j 0) :
      c = j ∧ t = 1 + (dependents (reachedBy places.parents before) j k).length := by
    obtain ⟨taken, -⟩ := List.getElem?_eq_some_iff.mp (dependents_next (depends j (.head _)) inside)
    rw [free, Nat.add_assoc] at same
    exact fits.serves.laid.place_inj bound column within (by omega) same
  constructor
  · exact size
  · exact Array.size_setIfInBounds.trans filled.factor_size
  · exact Array.size_setIfInBounds.trans filled.free_size
  · intro c bound
    dsimp only
    rw [getD_setIfInBounds _ (bound.trans_eq filled.free_size.symm)]
    by_cases same : c = j
    · subst same
      rw [if_pos rfl, if_neg fresh, grown, free, List.length_append, List.length_singleton]
      omega
    · rw [if_neg same, others same]
      exact filled.free_eq c bound
  · intro c bound t i present
    dsimp only at present ⊢
    have limit : (if c ∈ rest then k else k + 1) ≤ before.length := by split <;> omega
    have within : 1 + t ≤ (dependents (reachedBy places.parents before) c before.length).length := by
      have := lt_of_dependents limit present
      omega
    have stored : places.start c + 1 + t < w.factor.size := by
      rw [filled.factor_size, Nat.add_assoc]
      exact fits.serves.laid.place_lt bound within
    rw [getD_setIfInBounds _ stored]
    by_cases new : places.start c + 1 + t = w.free.getD j 0
    · obtain ⟨rfl, last⟩ := place bound within (by omega)
      have here : t = (dependents (reachedBy places.parents before) c k).length := by omega
      rw [if_neg fresh, grown, here, List.getElem?_append_right le_rfl, Nat.sub_self] at present
      obtain rfl := Option.some.inj present
      rw [if_pos new]
    · rw [if_neg new]
      by_cases same : c = j
      · subst same
        refine filled.entry_eq c bound t i ?_
        rw [if_neg fresh, grown] at present
        rw [if_pos (List.mem_cons_self ..), ← present, List.getElem?_append_left]
        obtain ⟨here, -⟩ := List.getElem?_eq_some_iff.mp present
        rw [List.length_append, List.length_singleton] at here
        omega
      · rw [others same] at present
        exact filled.entry_eq c bound t i present
  · intro c earlier
    have bound := earlier.trans inside
    have stored : places.start c < w.factor.size := by
      rw [filled.factor_size]
      exact fits.serves.laid.place_lt bound (Nat.zero_le _)
    dsimp only
    rw [getD_setIfInBounds _ stored, if_neg]
    · exact filled.pivot_eq c earlier
    · intro same
      obtain ⟨-, zero⟩ := place bound (Nat.zero_le _) same
      omega

end Column

include fits in
/-- One column is eliminated from the row in work. -/
theorem useColumn_underway {w : Workspace ℝ} {d : ℝ} (inside : k < before.length)
    (chained : Chained places.parents k (j :: rest))
    (depends : ∀ i ∈ j :: rest, i ∈ reachedBy places.parents before k)
    (underway : Underway S places before k (j :: rest) (w, d)) :
    ∃ progress, useColumn places (w, d) j = .ok progress ∧ Underway S places before k rest progress := by
  obtain ⟨-, room⟩ := free_lt fits inside depends underway
  have found := entry_found fits inside chained depends underway
  obtain ⟨size, row_eq⟩ := row_after fits inside chained depends underway rfl
  have below := fits.below_of_depends inside (depends j (.head _))
  refine ⟨(⟨_, _, _⟩, d - S.factorEntry k j * S.factorEntry k j), ?_,
    ⟨filled_after fits inside chained depends underway size, row_eq, ?_⟩⟩
  · rw [useColumn]
    dsimp only
    rw [if_neg room.not_ge, found, taken_eq fits inside depends underway]
  · have former := underway.diagonal_eq
    dsimp only at former ⊢
    rw [former, leftOver_cons below chained.fresh.1]

include fits in
/-- All columns that a row depends on are eliminated from it. -/
theorem foldlM_useColumn {found : List Nat} {progress : Workspace ℝ × ℝ} (inside : k < before.length)
    (chained : Chained places.parents k found) (depends : ∀ i ∈ found, i ∈ reachedBy places.parents before k)
    (underway : Underway S places before k found progress) :
    ∃ progress', found.foldlM (useColumn places) progress = .ok progress' ∧ Underway S places before k [] progress' := by
  induction found generalizing progress with
  | nil => exact ⟨progress, rfl, underway⟩
  | cons j found ih =>
      obtain ⟨next, used, underway'⟩ := useColumn_underway fits inside chained depends underway
      obtain ⟨progress', rest, done⟩ := ih chained.fresh.2 (fun i member => depends i (.tail _ member)) underway'
      refine ⟨progress', ?_, done⟩
      rw [List.foldlM_cons, used]
      exact rest

/-- The rows before `k` are eliminated and none is in work. -/
structure Eliminated (S : Symmetric ℝ) (places : Places) (before : List (List Nat)) (k : Nat) (w : Workspace ℝ) :
    Prop where
  filled : w.Filled S places before k fun _ => k
  idle : ∀ i < before.length, w.row.getD i 0 = 0

/-- The entries of a row up to the diagonal, each once. -/
structure ListsRow (S : Symmetric ℝ) (before : List (List Nat)) (k : Nat) (entries : List (Nat × ℝ)) : Prop where
  distinct : (entries.map Prod.fst).Nodup
  entry_eq : ∀ p ∈ entries, p.1 ≤ k ∧ p.2 = S.get k p.1
  absent : ∀ i ≤ k, i ∉ entries.map Prod.fst → S.get k i = 0
  listed : ∀ columns, before[k]? = some columns → ∀ j, j ∈ (entries.map Prod.fst).filter (· < k) ↔ j ∈ columns

variable {w : Workspace ℝ} {entries : List (Nat × ℝ)}

theorem scatter_eq (lists : ListsRow S before k entries) (idle : ∀ i < before.length, w.row.getD i 0 = 0)
    (size : w.row.size = before.length) {i : Nat} (bound : i < before.length) :
    (entries.foldl (fun row (j, x) => row.modify j (· + x)) w.row).getD i 0 = if i ≤ k then S.get k i else 0 := by
  obtain ⟨added, kept⟩ := @getD_modify_each (Nat × ℝ) Prod.fst (fun p y => y + p.2) entries lists.distinct w.row i
    (bound.trans_eq size.symm)
  rw [idle i bound] at added kept
  by_cases present : i ∈ entries.map Prod.fst
  · obtain ⟨p, member, rfl⟩ := List.mem_map.mp present
    obtain ⟨within, entry⟩ := lists.entry_eq p member
    rw [if_pos within, ← entry]
    exact (added p member rfl).trans (zero_add _)
  · refine (kept present).trans ?_
    split
    · rename_i within
      exact (lists.absent i within present).symm
    · rfl

include fits in
/-- A row whose entries were put in is in work. -/
theorem underway_start {found : List Nat} (inside : k < before.length) (eliminated : w.Eliminated S places before k)
    (lists : ListsRow S before k entries) (same : ∀ j, j ∈ found ↔ j ∈ reachedBy places.parents before k) :
    let row := entries.foldl (fun row (j, x) => row.modify j (· + x)) w.row
    Underway S places before k found ({ w with row := row.setIfInBounds k 0 }, row.getD k 0) := by
  intro row
  have filled := eliminated.filled
  have size : row.size = before.length := (size_modify_each Prod.fst (fun p y => y + p.2) entries w.row).trans
    filled.row_size
  have entry {i : Nat} (bound : i < before.length) : row.getD i 0 = if i ≤ k then S.get k i else 0 :=
    scatter_eq lists eliminated.idle filled.row_size bound
  -- a column that the row does not depend on has no place for the row
  have upto (j : Nat) : dependents (reachedBy places.parents before) j (if j ∈ found then k else k + 1) =
      dependents (reachedBy places.parents before) j k := by
    split
    · rfl
    · rename_i apart
      rw [dependents_succ, if_neg (mt (same j).mpr apart), List.append_nil]
  constructor
  · constructor
    · exact Array.size_setIfInBounds.trans size
    · exact filled.factor_size
    · exact filled.free_size
    · intro j bound
      rw [upto]
      exact filled.free_eq j bound
    · intro j bound
      rw [upto]
      exact filled.entry_eq j bound
    · exact filled.pivot_eq
  · intro i bound
    dsimp only
    rw [getD_setIfInBounds _ (bound.trans_eq size.symm), entry bound, fits.leftOver_start inside same]
    by_cases depends : i ∈ found
    · have below := fits.below_of_depends inside ((same i).mp depends)
      rw [if_neg below.ne, if_pos below.le, if_pos depends]
    · rw [if_neg depends]
      split
      · rfl
      · rename_i apart
        split
        · rename_i within
          have below : i < k := lt_of_le_of_ne within apart
          have present : before[k]? = some before[k] := List.getElem?_eq_getElem inside
          by_contra stored
          exact depends ((same i).mpr ((fits.serves.mem_reachedBy present).mpr
            ⟨below, i, fits.tied k _ present i below stored, .here i⟩))
        · rfl
  · rw [fits.leftOver_start inside same]
    exact (entry inside).trans (if_pos le_rfl)

include fits in
/-- A row from which all columns are eliminated is done with its pivot. -/
theorem Underway.finish {d : ℝ} (inside : k < before.length) (underway : Underway S places before k [] (w, d)) :
    ({ w with factor := w.factor.setIfInBounds (places.start k) √(S.remainder k k) } : Workspace ℝ).Eliminated S places
      before (k + 1) := by
  have filled := underway.filled
  simp only [List.not_mem_nil, if_false] at filled
  have apart {c t : Nat} (bound : c < before.length)
      (within : t ≤ (dependents (reachedBy places.parents before) c before.length).length)
      (same : places.start c + t = places.start k) : c = k ∧ t = 0 :=
    fits.serves.laid.place_inj bound inside within (Nat.zero_le _) same
  have stored {c t : Nat} (bound : c < before.length)
      (within : t ≤ (dependents (reachedBy places.parents before) c before.length).length) :
      places.start c + t < w.factor.size :=
    (fits.serves.laid.place_lt bound within).trans_eq filled.factor_size.symm
  refine ⟨⟨filled.row_size, ?_, filled.free_size, filled.free_eq, ?_, ?_⟩, fun i bound => ?_⟩
  · exact Array.size_setIfInBounds.trans filled.factor_size
  · intro c bound t i present
    have within : 1 + t ≤ (dependents (reachedBy places.parents before) c before.length).length := by
      have := lt_of_dependents (Nat.succ_le_of_lt inside) present
      omega
    have entry := filled.entry_eq c bound t i present
    rw [Nat.add_assoc] at entry ⊢
    dsimp only at entry ⊢
    rw [getD_setIfInBounds _ (stored bound within), if_neg, entry]
    intro same
    have zero := (apart bound within same).2
    omega
  · intro c below
    have bound : c < before.length := by omega
    dsimp only
    rw [getD_setIfInBounds _ (show places.start c < _ from stored bound (Nat.zero_le _))]
    rcases Nat.lt_or_eq_of_le (Nat.le_of_lt_succ below) with earlier | rfl
    · have other : places.start c ≠ places.start k := fun same => earlier.ne (apart bound (Nat.zero_le _) same).1
      rw [if_neg other]
      exact filled.pivot_eq c earlier
    · rw [if_pos rfl, Symmetric.factorEntry_diagonal]
  · exact (underway.row_eq i bound).trans (if_neg List.not_mem_nil)

include fits in
/-- A row is eliminated if its pivot is positive, and else the matrix is singular. -/
theorem useRow_cases (inside : k < before.length) (eliminated : w.Eliminated S places before k)
    (lists : ListsRow S before k entries) :
    (0 < S.remainder k k ∧ ∃ w', useRow places w k entries = .ok w' ∧ w'.Eliminated S places before (k + 1)) ∨
      (¬0 < S.remainder k k ∧ useRow places w k entries = .fail (.linear .singularMatrix)) := by
  obtain ⟨found, reached, chained, same⟩ := fits.serves.reach (List.getElem?_eq_getElem inside)
    (lists.listed _ (List.getElem?_eq_getElem inside))
  obtain ⟨⟨w', d⟩, eliminated', underway⟩ := foldlM_useColumn fits inside chained (fun i => (same i).mp)
    (underway_start fits inside eliminated lists same)
  have left : d = S.remainder k k := underway.diagonal_eq.trans (leftOver_nil S k)
  rw [useRow]
  dsimp only
  rw [reached]
  dsimp only
  rw [eliminated', Result.ok_bind]
  dsimp only
  rw [left]
  by_cases positive : 0 < S.remainder k k
  · refine .inl ⟨positive, _, ?_, underway.finish fits inside⟩
    rw [if_pos (by simpa using positive)]
    rfl
  · refine .inr ⟨positive, ?_⟩
    simp [positive]

include fits in
theorem start_eliminated (S : Symmetric ℝ) : (start places : Workspace ℝ).Eliminated S places before 0 := by
  have count := fits.serves.laid.count
  refine ⟨⟨by simp [start, count], by simp [start], by simp [start, count], fun j bound => ?_, ?_, ?_⟩, fun i _ => ?_⟩
  · simp [start, count, bound, dependents]
  · intro j bound t i present
    simp [dependents] at present
  · intro j below
    cases below
  · simp only [start, Array.getD_eq_getD_getElem?, Array.getElem?_replicate]
    split <;> rfl

include fits in
/-- Rows one after another: the factor of the matrix, or a row whose pivot is not positive. -/
theorem foldlM_useRow {rows : List (List (Nat × ℝ))} (within : k + rows.length ≤ before.length)
    (lists : ∀ t entries, rows[t]? = some entries → ListsRow S before (k + t) entries)
    (eliminated : w.Eliminated S places before k) :
    ((∀ t < rows.length, 0 < S.remainder (k + t) (k + t)) ∧
      ∃ w', (rows.zipIdx k).foldlM (fun w (entries, k) => useRow places w k entries) w = .ok w' ∧
        w'.Eliminated S places before (k + rows.length)) ∨
    ((∃ t < rows.length, ¬0 < S.remainder (k + t) (k + t)) ∧
      (rows.zipIdx k).foldlM (fun w (entries, k) => useRow places w k entries) w = .fail (.linear .singularMatrix)) := by
  induction rows generalizing k w with
  | nil =>
      refine .inl ⟨fun t short => ?_, w, rfl, eliminated⟩
      cases short
  | cons entries rows ih =>
      rw [List.length_cons] at within
      have shift (t : Nat) : k + 1 + t = k + (t + 1) := by omega
      rw [List.zipIdx_cons, List.foldlM_cons]
      rcases useRow_cases fits (by omega) eliminated (lists 0 entries rfl) with ⟨positive, next, used, eliminated'⟩ |
        ⟨singular, failed⟩
      · dsimp only
        rw [used, Result.ok_bind]
        rcases ih (by omega) (fun t others present => shift t ▸ lists (t + 1) others present) eliminated' with
          ⟨rest, w', done, final⟩ | ⟨⟨t, short, singular⟩, failed⟩
        · refine .inl ⟨fun t short => ?_, w', done, ?_⟩
          · cases t with
            | zero => exact positive
            | succ t => exact shift t ▸ rest t (Nat.lt_of_succ_lt_succ short)
          · rw [List.length_cons, ← shift]
            exact final
        · exact .inr ⟨⟨t + 1, Nat.succ_lt_succ short, shift t ▸ singular⟩, failed⟩
      · dsimp only
        rw [failed]
        exact .inr ⟨⟨0, Nat.succ_pos _, singular⟩, rfl⟩

end Workspace

end Rows

section Lower

open GraduatedFit.Symmetric

variable {S : Symmetric ℝ} {before : List (List Nat)} {columns : List Nat}

/-- For each row the columns before it are listed in which the matrix stores an entry. -/
structure Lists (S : Symmetric ℝ) (before : List (List Nat)) : Prop where
  length_eq : S.length = before.length
  stored : ∀ (k : Nat) (columns : List Nat), before[k]? = some columns →
    ∀ j, j ∈ columns ↔ j < k ∧ (stored? S.table k j).isSome = true

theorem Lists.fitsIn (lists : Lists S before) : FitsIn S (.ofNeighbours before) before where
  serves := Places.ofNeighbours_serves fun k columns present j member => ((lists.stored k columns present j).mp member).1
  length_eq := lists.length_eq
  tied k columns present j below nonzero := by
    refine (lists.stored k columns present j).mpr ⟨below, ?_⟩
    rw [Symmetric.get] at nonzero
    cases stored : stored? S.table k j with
    | none =>
        rw [stored] at nonzero
        exact absurd rfl nonzero
    | some x => rfl

theorem map_fst_filterMap (f : Nat → Option ℝ) (xs : List Nat) :
    (xs.filterMap fun j => (f j).map (j, ·)).map Prod.fst = xs.filter fun j => (f j).isSome := by
  induction xs with
  | nil => rfl
  | cons j xs ih => cases stored : f j <;> simp [stored, ih]

/-- The rows of the lower triangle list the entries that are stored, in whatever order the columns come. -/
theorem lowerRows_lists (lists : Lists S before) (perm : columns.Perm (List.range S.length)) {k : Nat}
    {entries : List (Nat × ℝ)} (present : (lowerRows columns S)[k]? = some entries) :
    Workspace.ListsRow S before k entries := by
  rw [lowerRows, List.getElem?_map, Option.map_eq_some_iff] at present
  obtain ⟨i, found, rfl⟩ := present
  obtain ⟨inside, same⟩ := List.getElem?_eq_some_iff.mp found
  obtain rfl : k = i := by simpa using same
  have keys := map_fst_filterMap (stored? S.table k) (columns.filter (· ≤ k))
  have member (j : Nat) (within : j ≤ k) : j ∈ columns := by
    have bound : k < S.length := by simpa using inside
    exact perm.mem_iff.mpr (List.mem_range.mpr (by omega))
  constructor
  · rw [keys]
    exact ((perm.nodup_iff.mpr List.nodup_range).filter _).filter _
  · intro p listed
    obtain ⟨j, kept, entry⟩ := List.mem_filterMap.mp listed
    obtain ⟨x, stored, rfl⟩ := Option.map_eq_some_iff.mp entry
    refine ⟨by simpa using (List.mem_filter.mp kept).2, ?_⟩
    rw [Symmetric.get, stored]
    rfl
  · intro j within absent
    rw [keys, List.mem_filter, List.mem_filter] at absent
    have empty : stored? S.table k j = none := by simpa [member j within, within] using absent
    rw [Symmetric.get, empty]
    rfl
  · intro columns' present j
    rw [keys, lists.stored k columns' present]
    simp only [List.mem_filter, decide_eq_true_eq]
    constructor
    · rintro ⟨⟨-, stored⟩, below⟩
      exact ⟨below, stored⟩
    · rintro ⟨below, stored⟩
      exact ⟨⟨⟨member j below.le, below.le⟩, stored⟩, below⟩

end Lower

end Elimination

end GraduatedFit
