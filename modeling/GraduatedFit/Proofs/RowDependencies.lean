import GraduatedFit.Proofs.EliminationTree

/-! Which columns a row depends on, in which order they are found, and where each column has a place for the row. -/

namespace GraduatedFit

namespace Elimination

namespace Places

section Ways

variable {parents : Array (Option Nat)} {bound : Nat}

theorem Leads.trans {i j k : Nat} (first : Leads parents i j) (second : Leads parents j k) : Leads parents i k := by
  induction first with
  | here j => exact second
  | next known _ ih => exact .next known (ih second)

/-- Two ways from one column run together as far as both go. -/
theorem Leads.along (ascending : Ascending parents bound) {c i j : Nat} (first : Leads parents c i)
    (second : Leads parents c j) (before : i ≤ j) : Leads parents i j := by
  induction first with
  | here c => exact second
  | @next c parent i known rest ih =>
      have later := (ascending _ _ known).1
      have below := rest.le ascending
      cases second with
      | here => omega
      | next known' rest' =>
          obtain rfl := Option.some.inj (known.symm.trans known')
          exact ih rest' before

/-- Columns in an order of elimination: each is followed by the one that its elimination goes on in, if that is not the
row. -/
inductive Chained (parents : Array (Option Nat)) (row : Nat) : List Nat → Prop
  | nil : Chained parents row []
  | cons {j parent : Nat} {rest : List Nat} (known : parents.getD j none = some parent) (onward : parent ∈ row :: rest)
      (fresh : j ∉ row :: rest) (chained : Chained parents row rest) : Chained parents row (j :: rest)

variable {row : Nat} {found : List Nat}

theorem Chained.fresh {j : Nat} {rest : List Nat} (chained : Chained parents row (j :: rest)) :
    j ∉ rest ∧ Chained parents row rest := by
  cases chained with
  | cons known onward fresh chained => exact ⟨fun member => fresh (.tail _ member), chained⟩

theorem Chained.nodup (chained : Chained parents row found) : found.Nodup := by
  induction chained with
  | nil => exact List.nodup_nil
  | cons _ _ fresh _ ih => exact List.nodup_cons.mpr ⟨fun member => fresh (.tail _ member), ih⟩

theorem Chained.parent_mem (chained : Chained parents row found) {j : Nat} (member : j ∈ found) :
    j ≠ row ∧ ∃ parent, parents.getD j none = some parent ∧ parent ∈ row :: found := by
  induction chained with
  | nil => cases member
  | @cons first parent rest known onward fresh chained ih =>
      rcases List.mem_cons.mp member with rfl | later
      · refine ⟨fun same => fresh (same ▸ .head _), parent, known, ?_⟩
        exact List.cons_subset_cons row (List.subset_cons_self j rest) onward
      · obtain ⟨apart, parent', known', onward'⟩ := ih later
        exact ⟨apart, parent', known', List.cons_subset_cons row (List.subset_cons_self first rest) onward'⟩

/-- What a column of the list leads to before the row is in the list too. -/
theorem Chained.closed (ascending : Ascending parents bound) (chained : Chained parents row found) {i j : Nat}
    (member : j ∈ row :: found) (leads : Leads parents j i) (before : i < row) : i ∈ found := by
  induction leads with
  | here j => exact (List.mem_cons.mp member).resolve_left before.ne
  | @next j parent i known rest ih =>
      have later := (ascending _ _ known).1
      have below := rest.le ascending
      have here : j ∈ found := (List.mem_cons.mp member).resolve_left (by omega)
      obtain ⟨-, parent', known', onward⟩ := chained.parent_mem here
      obtain rfl := Option.some.inj (known.symm.trans known')
      exact ih onward before

theorem Chained.leads (chained : Chained parents row found) {j : Nat} (member : j ∈ found) : Leads parents j row := by
  induction chained generalizing j with
  | nil => cases member
  | @cons first parent rest known onward fresh chained ih =>
      rcases List.mem_cons.mp member with rfl | later
      · rcases List.mem_cons.mp onward with rfl | onward
        · exact .next known (.here _)
        · exact .next known (ih onward)
      · exact ih later

/-- The columns behind the first one are those that it leads to before the row, apart from itself. -/
theorem Chained.onward (ascending : Ascending parents bound) {i j : Nat} {rest : List Nat}
    (chained : Chained parents row (j :: rest)) (leads : Leads parents j i) (before : i < row) (apart : i ≠ j) :
    i ∈ rest :=
  (List.mem_cons.mp (chained.closed ascending (.tail _ (.head _)) leads before)).resolve_left apart

end Ways

section Reach

variable {parents : Array (Option Nat)} {bound row : Nat}

/-- Climbing from a column puts the way to what was seen in front of it. -/
theorem climb_chained (ascending : Ascending parents bound) {found path : List Nat} {steps j : Nat}
    (chained : Chained parents row found) (climbed : climb? parents (row :: found) steps j = some path) :
    Chained parents row (path ++ found) ∧ (∀ i ∈ path, Leads parents j i) ∧ j ∈ row :: (path ++ found) := by
  induction steps generalizing j path with
  | zero => cases climbed
  | succ steps ih =>
      rw [climb?] at climbed
      split at climbed
      · rename_i seen
        obtain rfl := Option.some.inj climbed
        exact ⟨chained, List.forall_mem_nil _, by simpa using seen⟩
      · rename_i unseen
        obtain ⟨parent, known, continued⟩ := Option.bind_eq_some_iff.mp climbed
        obtain ⟨rest, climbed', finished⟩ := Option.bind_eq_some_iff.mp continued
        obtain rfl := Option.some.inj finished
        obtain ⟨chained', leads, onward⟩ := ih climbed'
        have later := (ascending _ _ known).1
        have fresh : j ∉ row :: (rest ++ found) := by
          intro member
          rcases List.mem_cons.mp member with rfl | member
          · simp at unseen
          · rcases List.mem_append.mp member with climbing | before
            · have := (leads j climbing).le ascending
              omega
            · exact unseen (by simpa using .inr before)
        refine ⟨.cons known onward fresh chained', List.forall_mem_cons.mpr ⟨.here j, fun i member => ?_⟩, by simp⟩
        exact .next known (leads i member)

theorem reach_chained_from (ascending : Ascending parents bound) {columns found found' : List Nat}
    (chained : Chained parents row found)
    (reached : columns.foldlM (fun found j => do
        let path ← climb? parents (row :: found) (parents.size + 1) j
        return path ++ found) found = some found') :
    Chained parents row found' ∧ found ⊆ found' ∧ (∀ j ∈ columns, j ∈ row :: found') ∧
      ∀ i ∈ found', i ∈ found ∨ ∃ c ∈ columns, Leads parents c i := by
  induction columns generalizing found with
  | nil =>
      obtain rfl := Option.some.inj reached
      exact ⟨chained, fun _ => id, List.forall_mem_nil _, fun _ => .inl⟩
  | cons j columns ih =>
      rw [List.foldlM_cons] at reached
      obtain ⟨next, climbed, reached'⟩ := Option.bind_eq_some_iff.mp reached
      obtain ⟨path, climbed', finished⟩ := Option.bind_eq_some_iff.mp climbed
      obtain rfl := Option.some.inj finished
      obtain ⟨chained', leads, present⟩ := climb_chained ascending chained climbed'
      obtain ⟨whole, kept, present', origin⟩ := ih chained' reached'
      refine ⟨whole, fun i member => kept (List.mem_append_right _ member),
        List.forall_mem_cons.mpr ⟨List.cons_subset_cons row kept present, present'⟩, fun i member => ?_⟩
      rcases origin i member with before | ⟨c, listed, way⟩
      · rcases List.mem_append.mp before with climbing | earlier
        · exact .inr ⟨j, .head _, leads i climbing⟩
        · exact .inl earlier
      · exact .inr ⟨c, .tail _ listed, way⟩

/-- The columns that a row depends on come in an order of elimination, and they are those before the row that a column
with an entry in the row leads to. -/
theorem reach_chained (ascending : Ascending parents bound) {columns found : List Nat}
    (reached : reach? parents row columns = some found) :
    Chained parents row found ∧ ∀ i, i ∈ found ↔ i < row ∧ ∃ c ∈ columns, Leads parents c i := by
  obtain ⟨chained, -, present, origin⟩ := reach_chained_from ascending .nil reached
  refine ⟨chained, fun i => ⟨fun member => ?_, fun ⟨before, c, listed, way⟩ => ?_⟩⟩
  · have apart := (chained.parent_mem member).1
    have below := (chained.leads member).le ascending
    exact ⟨by omega, (origin i member).resolve_left List.not_mem_nil⟩
  · exact chained.closed ascending (present c listed) way before

end Reach

section Dependents

variable {reached : Nat → List Nat} {j k n : Nat}

/-- The rows before one that depend on a column. -/
def dependents (reached : Nat → List Nat) (j k : Nat) : List Nat := (List.range k).filter (j ∈ reached ·)

theorem mem_dependents {i : Nat} : i ∈ dependents reached j k ↔ i < k ∧ j ∈ reached i := by simp [dependents]

theorem dependents_nodup (reached : Nat → List Nat) (j k : Nat) : (dependents reached j k).Nodup :=
  List.nodup_range.filter _

theorem dependents_succ (reached : Nat → List Nat) (j k : Nat) :
    dependents reached j (k + 1) = dependents reached j k ++ if j ∈ reached k then [k] else [] := by
  rw [dependents, List.range_succ, List.filter_append]
  by_cases depends : j ∈ reached k <;> simp [dependents, depends]

theorem dependents_extends (reached : Nat → List Nat) (j : Nat) (within : k ≤ n) :
    dependents reached j k <+: dependents reached j n := by
  induction within with
  | refl => exact List.prefix_refl _
  | step _ ih =>
      rw [dependents_succ]
      exact ih.trans (List.prefix_append _ _)

theorem lt_of_dependents {t i : Nat} (within : k ≤ n) (present : (dependents reached j k)[t]? = some i) :
    t < (dependents reached j n).length :=
  (List.getElem?_eq_some_iff.mp present).1.trans_le (dependents_extends reached j within).length_le

/-- A row that depends on a column stands behind the rows before it that do. -/
theorem dependents_next (depends : j ∈ reached k) (within : k < n) :
    (dependents reached j n)[(dependents reached j k).length]? = some k := by
  obtain ⟨later, whole⟩ := dependents_extends reached j (Nat.succ_le_of_lt within)
  rw [← whole, dependents_succ, if_pos depends, List.append_assoc, List.getElem?_append_right le_rfl, Nat.sub_self]
  rfl

/-- Places that were laid out for rows which depend on these columns. -/
structure LaidFor (places : Places) (reached : Nat → List Nat) (n : Nat) : Prop where
  count : places.parents.size = n
  start_succ : ∀ j < n, places.start (j + 1) = places.start j + 1 + (dependents reached j n).length
  row_eq : ∀ j < n, ∀ t i, (dependents reached j n)[t]? = some i →
    places.rows.getD (places.start j + 1 + t) 0 = i
  room : places.rows.size = places.start n

end Dependents

section Layout

variable {parents : Array (Option Nat)} {before : List (List Nat)}

/-- The columns that a row depends on, if it has entries in the columns listed for it. -/
def reachedBy (parents : Array (Option Nat)) (before : List (List Nat)) (k : Nat) : List Nat :=
  (reach? parents k (before.getD k [])).getD []

/-- What was put in front of the entries of an array, the last thing first. -/
theorem getD_foldl_modify (pairs : List (Nat × Nat)) {columns : Array (List Nat)} {j : Nat} (inside : j < columns.size) :
    (pairs.foldl (fun columns p => columns.modify p.1 (p.2 :: ·)) columns).getD j [] =
      ((pairs.filter (·.1 == j)).map Prod.snd).reverse ++ columns.getD j [] := by
  induction pairs generalizing columns with
  | nil => rfl
  | cons p pairs ih =>
      rw [List.foldl_cons, ih (by simpa using inside), List.filter_cons]
      have after : (columns.modify p.1 (p.2 :: ·)).getD j [] =
          if p.1 = j then p.2 :: columns.getD j [] else columns.getD j [] := by
        simp only [Array.getD_eq_getD_getElem?, Array.getElem?_modify, Array.getElem?_eq_getElem inside]
        split <;> rfl
      rw [after]
      by_cases here : p.1 = j
      · simp [here]
      · simp [here]

theorem flatMap_singletons (p : Nat → Bool) (xs : List Nat) : (xs.flatMap fun k => if p k then [k] else []) = xs.filter p := by
  induction xs with
  | nil => rfl
  | cons k xs ih =>
      rw [List.flatMap_cons, ih, List.filter_cons]
      split <;> rfl

/-- The rows next to which a column is listed are those that depend on it. -/
theorem dependencies_filter (distinct : ∀ k, (reachedBy parents before k).Nodup) (j : Nat) :
    ((dependencies parents before).filter (·.1 == j)).map Prod.snd =
      dependents (reachedBy parents before) j before.length := by
  have indices : before.zipIdx = (List.range before.length).map fun k => (before.getD k [], k) := by
    refine List.ext_getElem (by simp) fun k left right => ?_
    have inside : k < before.length := by simpa using left
    simp [inside]
  have each (k : Nat) : (((reachedBy parents before k).map (·, k)).filter (·.1 == j)).map Prod.snd =
      if j ∈ reachedBy parents before k then [k] else [] := by
    have picked : (reachedBy parents before k).filter (· == j) = if j ∈ reachedBy parents before k then [j] else [] := by
      rw [List.filter_beq, (distinct k).count]
      split <;> rfl
    rw [List.filter_map, Function.comp_def, picked]
    split <;> rfl
  rw [dependencies, indices, List.flatMap_map, List.filter_flatMap, List.map_flatMap, dependents, ← flatMap_singletons]
  refine congrArg (List.flatMap · _) (funext fun k => (each k).trans ?_)
  simp

theorem rowsOfColumns_eq_dependents (distinct : ∀ k, (reachedBy parents before k).Nodup) :
    rowsOfColumns parents before = (List.range before.length).map fun j =>
      j :: dependents (reachedBy parents before) j before.length := by
  have size := size_foldl_modify (dependencies parents before) (Array.replicate before.length [])
  rw [Array.size_replicate] at size
  rw [rowsOfColumns_eq]
  refine List.ext_getElem (by simpa using size) fun j left right => ?_
  have inside : j < before.length := by simpa using right
  have empty : (Array.replicate before.length ([] : List Nat)).getD j [] = [] := by simp [inside]
  have column := getD_foldl_modify (dependencies parents before)
    (show j < (Array.replicate before.length ([] : List Nat)).size by simpa using inside)
  rw [dependencies_filter distinct, empty, List.append_nil, Array.getD_eq_getD_getElem?,
    Array.getElem?_eq_getElem (inside.trans_eq size.symm), Option.getD_some] at column
  simp [column]

/-- Where the places of columns begin that follow each other, and what stands in them. -/
theorem laidFor_columns {reached : Nat → List Nat} {n : Nat} (count : parents.size = n) :
    let columns := (List.range n).map fun j => j :: dependents reached j n
    let starts := columns.foldl (fun starts rows => starts.push (starts.back?.getD 0 + rows.length)) #[0]
    LaidFor ⟨parents, starts, columns.flatten.toArray⟩ reached n := by
  intro columns starts
  have length : columns.length = n := by simp [columns]
  obtain ⟨-, sums⟩ := starts_getD columns
  rw [length] at sums
  have column {j : Nat} (inside : j < n) : columns[j]? = some (j :: dependents reached j n) := by
    simp [columns, inside]
  have sum_succ {j : Nat} (inside : j < n) : ((columns.take (j + 1)).map List.length).sum =
      ((columns.take j).map List.length).sum + ((dependents reached j n).length + 1) := by
    rw [List.take_add_one, column inside]
    simp
  constructor
  · exact count
  · intro j inside
    show starts.getD (j + 1) 0 = starts.getD j 0 + 1 + _
    rw [sums (j + 1) inside, sums j inside.le, sum_succ inside]
    omega
  · intro j inside t i present
    show (columns.flatten.toArray).getD (starts.getD j 0 + 1 + t) 0 = i
    obtain ⟨bound, -⟩ := List.getElem?_eq_some_iff.mp present
    have entry := flatten_getElem (column inside) (Nat.succ_lt_succ bound)
    rw [List.getElem?_cons_succ, present] at entry
    rw [sums j inside.le, Array.getD_eq_getD_getElem?, List.getElem?_toArray, Nat.add_assoc, Nat.add_comm 1 t, entry]
    rfl
  · show (columns.flatten.toArray).size = starts.getD n 0
    rw [sums n le_rfl, List.size_toArray, List.length_flatten, ← length, List.take_length]

end Layout

section Serving

/-- The rows of a matrix and the columns that they depend on, as places find them. -/
structure Serves (places : Places) (before : List (List Nat)) : Prop where
  ascending : Ascending places.parents before.length
  earlier : ∀ (k : Nat) (columns : List Nat), before[k]? = some columns → ∀ j ∈ columns, j < k
  leads : ∀ k columns, before[k]? = some columns → ∀ j ∈ columns, Leads places.parents j k
  laid : LaidFor places (reachedBy places.parents before) before.length

/-- The columns that are found for a row do not depend on the order in which its entries come. -/
theorem Serves.reach {places : Places} {before : List (List Nat)} (serves : places.Serves before) {k : Nat}
    {columns columns' : List Nat} (present : before[k]? = some columns) (same : ∀ j, j ∈ columns' ↔ j ∈ columns) :
    ∃ found, reach? places.parents k columns' = some found ∧ Chained places.parents k found ∧
      ∀ j, j ∈ found ↔ j ∈ reachedBy places.parents before k := by
  obtain ⟨inside, -⟩ := List.getElem?_eq_some_iff.mp present
  have row : k ≤ places.parents.size := serves.laid.count ▸ inside.le
  have ways (j : Nat) (listed : j ∈ columns) : j < k ∧ Leads places.parents j k :=
    ⟨serves.earlier k columns present j listed, serves.leads k columns present j listed⟩
  obtain ⟨found, reached, -⟩ := reach_exists serves.ascending row ways
  obtain ⟨found', reached', -⟩ := reach_exists serves.ascending row fun j listed => ways j ((same j).mp listed)
  obtain ⟨-, members⟩ := reach_chained serves.ascending reached
  obtain ⟨chained, members'⟩ := reach_chained serves.ascending reached'
  refine ⟨found', reached', chained, fun j => ?_⟩
  have here : reachedBy places.parents before k = found := by
    rw [reachedBy, List.getD_eq_getElem?_getD, present, Option.getD_some, reached, Option.getD_some]
  rw [here, members, members']
  simp only [same]

theorem Serves.mem_reachedBy {places : Places} {before : List (List Nat)} (serves : places.Serves before) {k : Nat}
    {columns : List Nat} (present : before[k]? = some columns) {j : Nat} :
    j ∈ reachedBy places.parents before k ↔ j < k ∧ ∃ c ∈ columns, Leads places.parents c j := by
  obtain ⟨found, reached, -, same⟩ := serves.reach present fun _ => Iff.rfl
  rw [← same, (reach_chained serves.ascending reached).2]

/-- What a row depends on leads to it. -/
theorem Serves.leads_of_mem {places : Places} {before : List (List Nat)} (serves : places.Serves before) {j k : Nat}
    (inside : k < before.length) (member : j ∈ reachedBy places.parents before k) : Leads places.parents j k := by
  have present : before[k]? = some before[k] := List.getElem?_eq_getElem inside
  obtain ⟨below, c, listed, way⟩ := (serves.mem_reachedBy present).mp member
  exact way.along serves.ascending (serves.leads k _ present c listed) below.le

/-- Places are laid out for the rows whose entries are listed. -/
theorem ofNeighbours_serves {before : List (List Nat)}
    (earlier : ∀ (k : Nat) (columns : List Nat), before[k]? = some columns → ∀ j ∈ columns, j < k) :
    (ofNeighbours before).Serves before := by
  obtain ⟨size, ascending, leads⟩ := ofNeighbours_lead earlier
  have distinct (k : Nat) : (reachedBy (ofNeighbours before).parents before k).Nodup := by
    unfold reachedBy
    rcases reached : reach? (ofNeighbours before).parents k (before.getD k []) with _ | found
    · exact List.nodup_nil
    · exact (reach_chained ascending reached).1.nodup
  have columns := rowsOfColumns_eq_dependents distinct
  refine ⟨ascending, earlier, leads, ?_⟩
  have laid := @laidFor_columns _ (reachedBy (ofNeighbours before).parents before) _ size
  dsimp only at laid
  rw [← columns] at laid
  exact laid

end Serving

end Places

end Elimination

end GraduatedFit
