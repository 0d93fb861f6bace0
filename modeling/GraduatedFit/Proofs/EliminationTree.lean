import GraduatedFit.Proofs.Results
import GraduatedFit.Elimination.Places

/-! The places that are laid out for a shape have room for every entry of a matrix of the shape. -/

namespace GraduatedFit

namespace Elimination

namespace Places

section Parents

variable {parents parents' : Array (Option Nat)}

/-- The elimination goes on from one column, over others, to another. -/
inductive Leads (parents : Array (Option Nat)) : Nat → Nat → Prop
  | here (j : Nat) : Leads parents j j
  | next {j parent k : Nat} (known : parents.getD j none = some parent) (rest : Leads parents parent k) :
      Leads parents j k

/-- The elimination goes on in later columns that are below a bound. -/
def Ascending (parents : Array (Option Nat)) (bound : Nat) : Prop :=
  ∀ j parent, parents.getD j none = some parent → j < parent ∧ parent < bound

/-- What is settled in one array is settled alike in the other. -/
structure Extends (parents parents' : Array (Option Nat)) : Prop where
  size_eq : parents'.size = parents.size
  kept : ∀ j parent, parents.getD j none = some parent → parents'.getD j none = some parent

theorem Extends.refl (parents : Array (Option Nat)) : Extends parents parents := ⟨rfl, fun _ _ => id⟩

theorem Extends.trans {parents'' : Array (Option Nat)} (first : Extends parents parents')
    (second : Extends parents' parents'') : Extends parents parents'' :=
  ⟨second.size_eq.trans first.size_eq, fun j parent known => second.kept j parent (first.kept j parent known)⟩

theorem Ascending.mono {bound bound' : Nat} (ascending : Ascending parents bound) (wider : bound ≤ bound') :
    Ascending parents bound' :=
  fun j parent known => (ascending j parent known).imp id fun below => below.trans_le wider

theorem Leads.extend {j k : Nat} (leads : Leads parents j k) (extended : Extends parents parents') :
    Leads parents' j k := by
  induction leads with
  | here j => exact .here j
  | next known _ ih => exact .next (extended.kept _ _ known) ih

theorem Leads.le {j k bound : Nat} (leads : Leads parents j k) (ascending : Ascending parents bound) : j ≤ k := by
  induction leads with
  | here j => exact le_rfl
  | next known _ ih => exact (ascending _ _ known).1.le.trans ih

/-- A column that has no continuation yet is given one. -/
theorem extends_set {j k : Nat} (unsettled : parents.getD j none = none) :
    Extends parents (parents.setIfInBounds j (some k)) where
  size_eq := Array.size_setIfInBounds
  kept other parent known := by
    have apart : j ≠ other := by
      rintro rfl
      rw [unsettled] at known
      cases known
    simpa [Array.getElem?_setIfInBounds, apart] using known

theorem ascending_set {j k : Nat} (ascending : Ascending parents (k + 1)) (below : j < k) :
    Ascending (parents.setIfInBounds j (some k)) (k + 1) := by
  intro other parent known
  by_cases same : j = other
  · subst same
    by_cases inside : j < parents.size
    · obtain rfl : k = parent := by simpa [inside] using known
      exact ⟨below, k.lt_succ_self⟩
    · simp [inside] at known
  · exact ascending other parent (by simpa [Array.getElem?_setIfInBounds, same] using known)

/-- After a column was followed up to row `k` it leads to the row. -/
theorem adoptFrom_leads {k steps j : Nat} (ascending : Ascending parents (k + 1)) (below : j ≤ k)
    (inside : k < parents.size) (enough : k - j < steps) :
    Extends parents (adoptFrom k steps j parents) ∧ Ascending (adoptFrom k steps j parents) (k + 1) ∧
      Leads (adoptFrom k steps j parents) j k := by
  induction steps generalizing j with
  | zero => cases enough
  | succ steps ih =>
      rw [adoptFrom]
      split
      · rename_i same
        exact ⟨.refl _, ascending, same ▸ .here j⟩
      · rename_i apart
        split
        · rename_i parent known
          obtain ⟨later, bound⟩ := ascending _ _ known
          obtain ⟨extended, ascending', leads⟩ := ih (j := parent) (by omega) (by omega)
          exact ⟨extended, ascending', .next (extended.kept _ _ known) leads⟩
        · rename_i unsettled
          have here : (parents.setIfInBounds j (some k)).getD j none = some k := by
            simp [show j < parents.size by omega]
          exact ⟨extends_set unsettled, ascending_set ascending (by omega), .next here (.here k)⟩

/-- Every column that a row has an entry in leads to the row from then on. -/
theorem adopt_leads {k : Nat} {columns : List Nat} (ascending : Ascending parents (k + 1))
    (before : ∀ j ∈ columns, j < k) (inside : k < parents.size) :
    Extends parents (adopt parents k columns) ∧ Ascending (adopt parents k columns) (k + 1) ∧
      ∀ j ∈ columns, Leads (adopt parents k columns) j k := by
  induction columns generalizing parents with
  | nil => exact ⟨.refl _, ascending, List.forall_mem_nil _⟩
  | cons j columns ih =>
      have earlier : j < k := before j (.head _)
      have enough : k - j < parents.size := by omega
      obtain ⟨extended, ascending', leads⟩ := adoptFrom_leads ascending earlier.le inside enough
      obtain ⟨extended', ascending'', rest⟩ := ih ascending' (fun other member => before other (.tail _ member))
        (inside.trans_eq extended.size_eq.symm)
      exact ⟨extended.trans extended', ascending'', List.forall_mem_cons.mpr ⟨leads.extend extended', rest⟩⟩

/-- After all rows every column with an entry in a row leads to it. -/
theorem parents_lead {before : List (List Nat)} {start : Nat} (ascending : Ascending parents start)
    (inside : start + before.length ≤ parents.size)
    (earlier : ∀ k columns, before[k]? = some columns → ∀ j ∈ columns, j < start + k) :
    let parents' := (before.zipIdx start).foldl (fun parents (columns, k) => adopt parents k columns) parents
    Extends parents parents' ∧ Ascending parents' (start + before.length) ∧
      ∀ k columns, before[k]? = some columns → ∀ j ∈ columns, Leads parents' j (start + k) := by
  induction before generalizing start parents with
  | nil =>
      refine ⟨.refl _, ascending, fun k columns present => ?_⟩
      cases present
  | cons columns before ih =>
      rw [List.length_cons] at inside ⊢
      obtain ⟨extended, ascending', leads⟩ := adopt_leads (ascending.mono start.le_succ)
        (fun j member => earlier 0 columns rfl j member) (by omega : start < parents.size)
      obtain ⟨extended', ascending'', rest⟩ := ih ascending' (by rw [extended.size_eq]; omega)
        (fun k others present j member => (earlier (k + 1) others present j member).trans_eq (by omega))
      refine ⟨extended.trans extended', ascending''.mono (by omega), fun k others present j member => ?_⟩
      cases k with
      | zero =>
          obtain rfl := Option.some.inj present
          exact (leads j member).extend extended'
      | succ k =>
          have place : start + (k + 1) = start + 1 + k := by omega
          exact place ▸ rest k others present j member

/-- A column that leads to a row that was seen is on a way that climbs up to something seen. -/
theorem climb_exists {bound j row steps : Nat} {seen : List Nat} (ascending : Ascending parents bound)
    (leads : Leads parents j row) (member : row ∈ seen) (enough : row - j < steps) :
    ∃ path, climb? parents seen steps j = some path ∧ (j ∈ path ∨ j ∈ seen) := by
  induction leads generalizing steps with
  | here j =>
      obtain ⟨steps, rfl⟩ := Nat.exists_eq_succ_of_ne_zero (show steps ≠ 0 by omega)
      exact ⟨[], by simp [climb?, member], .inr member⟩
  | @next j parent row known rest ih =>
      obtain ⟨steps, rfl⟩ := Nat.exists_eq_succ_of_ne_zero (show steps ≠ 0 by omega)
      by_cases found : j ∈ seen
      · exact ⟨[], by simp [climb?, found], .inr found⟩
      · have later := (ascending _ _ known).1
        have below := rest.le ascending
        obtain ⟨path, climbed, -⟩ := ih member (by omega : row - parent < steps)
        refine ⟨j :: path, ?_, .inl (.head _)⟩
        have unseen : seen.contains j = false := by simpa using found
        rw [climb?, unseen, if_neg Bool.false_ne_true, known]
        show (do return j :: (← climb? parents seen steps parent)) = some (j :: path)
        rw [climbed]
        rfl

/-- Climbing from further columns adds to what was found, and finds the columns. -/
theorem reach_onward {bound row : Nat} {columns : List Nat} (ascending : Ascending parents bound)
    (inside : row ≤ parents.size) (leads : ∀ j ∈ columns, j < row ∧ Leads parents j row) (found : List Nat) :
    ∃ found', columns.foldlM (fun found j => do
        let path ← climb? parents (row :: found) (parents.size + 1) j
        return path ++ found) found = some found' ∧ found ⊆ found' ∧ ∀ j ∈ columns, j ∈ found' := by
  induction columns generalizing found with
  | nil => exact ⟨found, rfl, fun _ => id, List.forall_mem_nil _⟩
  | cons j columns ih =>
      obtain ⟨earlier, way⟩ := leads j (.head _)
      have last : row ∈ row :: found := .head _
      have enough : row - j < parents.size + 1 := by omega
      obtain ⟨path, climbed, present⟩ := climb_exists ascending way last enough
      obtain ⟨found', reached, kept, rest⟩ := ih (fun other member => leads other (.tail _ member)) (path ++ found)
      have here : j ∈ path ++ found := by
        rcases present with climbing | seen
        · exact List.mem_append_left _ climbing
        · rcases List.mem_cons.mp seen with rfl | before
          · exact absurd earlier (lt_irrefl _)
          · exact List.mem_append_right _ before
      refine ⟨found', ?_, fun other member => kept (List.mem_append_right _ member),
        List.forall_mem_cons.mpr ⟨kept here, rest⟩⟩
      rw [List.foldlM_cons, climbed]
      exact reached

/-- A row depends on all columns that it has entries in. -/
theorem reach_exists {bound row : Nat} {columns : List Nat} (ascending : Ascending parents bound)
    (inside : row ≤ parents.size) (leads : ∀ j ∈ columns, j < row ∧ Leads parents j row) :
    ∃ found, reach? parents row columns = some found ∧ ∀ j ∈ columns, j ∈ found := by
  obtain ⟨found, reached, -, all⟩ := reach_onward ascending inside leads []
  exact ⟨found, reached, all⟩

end Parents

section Rows

/-- What is put in front of the entries of an array stays there. -/
theorem mem_foldl_modify {pairs : List (Nat × Nat)} {columns : Array (List Nat)} {j k : Nat} (inside : j < columns.size)
    (member : (j, k) ∈ pairs ∨ k ∈ columns.getD j []) :
    k ∈ (pairs.foldl (fun columns p => columns.modify p.1 (p.2 :: ·)) columns).getD j [] := by
  induction pairs generalizing columns with
  | nil => exact member.resolve_left List.not_mem_nil
  | cons p pairs ih =>
      have after : (columns.modify p.1 (p.2 :: ·)).getD j [] =
          if p.1 = j then p.2 :: columns.getD j [] else columns.getD j [] := by
        simp only [Array.getD_eq_getD_getElem?, Array.getElem?_modify, Array.getElem?_eq_getElem inside]
        split <;> rfl
      refine ih (by simpa using inside) ?_
      rcases member with here | there
      · rcases List.mem_cons.mp here with rfl | later
        · rw [after, if_pos rfl]
          exact .inr (.head _)
        · exact .inl later
      · rw [after]
        by_cases here : p.1 = j
        · rw [if_pos here]
          exact .inr (.tail _ there)
        · rw [if_neg here]
          exact .inr there

theorem size_foldl_modify (pairs : List (Nat × Nat)) (columns : Array (List Nat)) :
    (pairs.foldl (fun columns p => columns.modify p.1 (p.2 :: ·)) columns).size = columns.size := by
  induction pairs generalizing columns with
  | nil => rfl
  | cons p pairs ih => simpa using ih (columns.modify p.1 (p.2 :: ·))

/-- The columns that the rows depend on, each next to its row. -/
def dependencies (parents : Array (Option Nat)) (before : List (List Nat)) : List (Nat × Nat) :=
  before.zipIdx.flatMap fun (columns, k) => ((reach? parents k columns).getD []).map (·, k)

theorem rowsOfColumns_eq (parents : Array (Option Nat)) (before : List (List Nat)) :
    rowsOfColumns parents before =
      ((dependencies parents before).foldl (fun columns p => columns.modify p.1 (p.2 :: ·))
        (Array.replicate before.length [])).toList.zipIdx.map fun (rows, j) => j :: rows.reverse := by
  rw [rowsOfColumns, dependencies, List.foldl_flatMap]
  simp only [List.foldl_map]

/-- A column has a place in each row that depends on it. -/
theorem rowsOfColumns_mem {parents : Array (Option Nat)} {before : List (List Nat)} {k : Nat} {columns found : List Nat}
    (present : before[k]? = some columns) (reached : reach? parents k columns = some found) {j : Nat}
    (inside : j < before.length) (member : j ∈ found) :
    ∃ rows, (rowsOfColumns parents before)[j]? = some (j :: rows) ∧ k ∈ rows := by
  set final := (dependencies parents before).foldl (fun columns p => columns.modify p.1 (p.2 :: ·))
    (Array.replicate before.length []) with folded
  have size : final.size = before.length := by rw [folded, size_foldl_modify, Array.size_replicate]
  have depends : (j, k) ∈ dependencies parents before := by
    refine List.mem_flatMap.mpr ⟨(columns, k), ?_, ?_⟩
    · exact List.mem_zipIdx_iff_getElem?.mpr present
    · dsimp only
      rw [reached]
      exact List.mem_map.mpr ⟨j, member, rfl⟩
  have stored : k ∈ final.getD j [] := mem_foldl_modify (by simpa using inside) (.inl depends)
  refine ⟨(final.getD j []).reverse, ?_, List.mem_reverse.mpr stored⟩
  have bound : j < final.size := size.symm ▸ inside
  rw [rowsOfColumns_eq, ← folded]
  simp [bound]

theorem starts_getD (columns : List (List Nat)) :
    let starts := columns.foldl (fun starts rows => starts.push (starts.back?.getD 0 + rows.length)) #[0]
    starts.size = columns.length + 1 ∧ ∀ j ≤ columns.length, starts.getD j 0 = ((columns.take j).map List.length).sum := by
  induction columns using List.reverseRecOn with
  | nil =>
      refine ⟨rfl, fun j inside => ?_⟩
      obtain rfl : j = 0 := by simpa using inside
      rfl
  | append_singleton columns rows ih =>
      obtain ⟨size, earlier⟩ := ih
      rw [List.foldl_append]
      set starts := columns.foldl (fun starts rows => starts.push (starts.back?.getD 0 + rows.length)) #[0]
      have last : starts.back?.getD 0 = (columns.map List.length).sum := by
        have total := earlier columns.length le_rfl
        rw [List.take_length] at total
        rw [← total, Array.back?, size, Nat.add_sub_cancel, Array.getD_eq_getD_getElem?]
      refine ⟨by simp [size], fun j inside => ?_⟩
      rw [List.length_append, List.length_singleton] at inside
      rw [List.foldl_cons, List.foldl_nil, Array.getD_eq_getD_getElem?, Array.getElem?_push, size]
      by_cases final : j = columns.length + 1
      · rw [if_pos final, last, final, List.take_of_length_le (by simp)]
        simp
      · rw [if_neg final, ← Array.getD_eq_getD_getElem?, earlier j (by omega), List.take_append_of_le_length (by omega)]

/-- An entry of a list of lists, by its position in all of them. -/
theorem flatten_getElem {columns : List (List Nat)} {j : Nat} {rows : List Nat} (present : columns[j]? = some rows)
    {i : Nat} (inside : i < rows.length) :
    columns.flatten[((columns.take j).map List.length).sum + i]? = rows[i]? := by
  obtain ⟨bound, rfl⟩ := List.getElem?_eq_some_iff.mp present
  have split : columns.flatten = (columns.take j).flatten ++ (columns[j] ++ (columns.drop (j + 1)).flatten) := by
    rw [← List.flatten_cons, ← List.drop_eq_getElem_cons bound, ← List.flatten_append, List.take_append_drop]
  rw [split, ← List.length_flatten, List.getElem?_append_right (Nat.le_add_right _ _), Nat.add_sub_cancel_left,
    List.getElem?_append_left inside]

/-- The rows below the diagonal of a column are those that it was laid out with. -/
theorem mem_rowsBelow {parents : Array (Option Nat)} {columns : List (List Nat)} {j first k : Nat} {rows : List Nat}
    (present : columns[j]? = some (first :: rows)) (member : k ∈ rows) :
    let starts := columns.foldl (fun starts rows => starts.push (starts.back?.getD 0 + rows.length)) #[0]
    k ∈ rowsBelow ⟨parents, starts, columns.flatten.toArray⟩ j := by
  intro starts
  obtain ⟨bound, same⟩ := List.getElem?_eq_some_iff.mp present
  obtain ⟨i, inside, rfl⟩ := List.mem_iff_getElem.mp member
  obtain ⟨-, sums⟩ := starts_getD columns
  have here : starts.getD j 0 = ((columns.take j).map List.length).sum := sums j bound.le
  have next : starts.getD (j + 1) 0 = ((columns.take j).map List.length).sum + (rows.length + 1) := by
    rw [sums (j + 1) bound, List.take_succ_eq_append_getElem bound, same]
    simp
  refine List.mem_map.mpr ⟨starts.getD j 0 + 1 + i, List.mem_range'_1.mpr ?_, ?_⟩
  · simp only [start, next, here]
    omega
  · have entry := flatten_getElem present (Nat.succ_lt_succ inside)
    rw [here, Array.getD_eq_getD_getElem?, List.getElem?_toArray, Nat.add_assoc, Nat.add_comm 1 i, entry]
    simp [inside]

end Rows

/-- The places for a shape settle where each elimination goes on: from every column with an entry in a row it comes to
the row. -/
theorem ofNeighbours_lead {before : List (List Nat)}
    (earlier : ∀ (k : Nat) (columns : List Nat), before[k]? = some columns → ∀ j ∈ columns, j < k) :
    (ofNeighbours before).parents.size = before.length ∧ Ascending (ofNeighbours before).parents before.length ∧
      ∀ k columns, before[k]? = some columns → ∀ j ∈ columns, Leads (ofNeighbours before).parents j k := by
  have unsettled : Ascending (Array.replicate before.length (none : Option Nat)) 0 := by
    intro j parent known
    rw [Array.getD_eq_getD_getElem?, Array.getElem?_replicate] at known
    split at known <;> cases known
  have below : ∀ (k : Nat) (columns : List Nat), before[k]? = some columns → ∀ j ∈ columns, j < 0 + k := by
    simpa using earlier
  obtain ⟨extended, ascending, leads⟩ := parents_lead unsettled (by simp) below
  simp only [Nat.zero_add] at ascending leads
  exact ⟨extended.size_eq.trans Array.size_replicate, ascending, leads⟩

/-- There is a place wherever a matrix has an entry. -/
theorem rowsBelow_ofNeighbours {before : List (List Nat)}
    (earlier : ∀ (k : Nat) (columns : List Nat), before[k]? = some columns → ∀ j ∈ columns, j < k) {k : Nat}
    {columns : List Nat} (present : before[k]? = some columns) {j : Nat} (tied : j ∈ columns) :
    k ∈ (ofNeighbours before).rowsBelow j := by
  obtain ⟨inside, -⟩ := List.getElem?_eq_some_iff.mp present
  obtain ⟨size, ascending, leads⟩ := ofNeighbours_lead earlier
  have row : k ≤ (ofNeighbours before).parents.size := size ▸ inside.le
  obtain ⟨found, reached, all⟩ := reach_exists ascending row fun j member =>
    ⟨earlier k columns present j member, leads k columns present j member⟩
  have before_j : j < before.length := (earlier k columns present j tied).trans inside
  obtain ⟨rows, stored, member⟩ := rowsOfColumns_mem present reached before_j (all j tied)
  exact mem_rowsBelow stored member

end Places

end Elimination

end GraduatedFit
