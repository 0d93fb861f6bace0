import GraduatedFit.Proofs.RowDependencies
import GraduatedFit.Proofs.RowwiseFactor

/-! Where the factor of a matrix is zero, by the columns that its rows depend on, and what the elimination of a column takes
off a row. -/

namespace GraduatedFit

namespace Elimination

open Places

section Folds

/-- A fold over consecutive places is one over what stands in them. -/
theorem foldl_places {β : Type} {f g : β → Nat → β} {xs : List Nat} {start : Nat}
    (same : ∀ t i, xs[t]? = some i → ∀ b, f b (start + t) = g b i) (b : β) :
    (List.range' start xs.length).foldl f b = xs.foldl g b := by
  induction xs generalizing start b with
  | nil => rfl
  | cons x xs ih =>
      rw [List.length_cons, List.range'_succ, List.foldl_cons, List.foldl_cons]
      have first := same 0 x rfl b
      rw [Nat.add_zero] at first
      rw [first]
      refine ih (fun t i present b => ?_) _
      rw [Nat.add_assoc, Nat.add_comm 1 t]
      exact same (t + 1) i present b

/-- Entries of an array that are changed once each. -/
theorem getD_modify_each {α : Type} {key : α → Nat} {f : α → ℝ → ℝ} {xs : List α} (distinct : (xs.map key).Nodup)
    {row : Array ℝ} {i : Nat} (inside : i < row.size) :
    (∀ a ∈ xs, key a = i →
      (xs.foldl (fun row a => row.modify (key a) (f a)) row).getD i 0 = f a (row.getD i 0)) ∧
    (i ∉ xs.map key → (xs.foldl (fun row a => row.modify (key a) (f a)) row).getD i 0 = row.getD i 0) := by
  induction xs generalizing row with
  | nil => exact ⟨List.forall_mem_nil _, fun _ => rfl⟩
  | cons a xs ih =>
      obtain ⟨absent, later⟩ := List.nodup_cons.mp distinct
      obtain ⟨changed, kept⟩ := @ih later (row.modify (key a) (f a)) (by simpa using inside)
      have here : (row.modify (key a) (f a)).getD i 0 = if key a = i then f a (row.getD i 0) else row.getD i 0 := by
        simp only [Array.getD_eq_getD_getElem?, Array.getElem?_modify, Array.getElem?_eq_getElem inside]
        split <;> rfl
      rw [here] at changed kept
      rw [List.foldl_cons]
      constructor
      · intro a' member same
        rcases List.mem_cons.mp member with rfl | member
        · rw [if_pos same] at kept
          exact kept (same ▸ absent)
        · have apart : key a ≠ i := by
            rintro rfl
            exact absent (same ▸ List.mem_map_of_mem member)
          rw [if_neg apart] at changed
          exact changed a' member same
      · intro outside
        rw [List.map_cons, List.mem_cons, not_or] at outside
        rw [if_neg (Ne.symm outside.1)] at kept
        exact kept outside.2

theorem size_modify_each {α : Type} (key : α → Nat) (f : α → ℝ → ℝ) (xs : List α) (row : Array ℝ) :
    (xs.foldl (fun row a => row.modify (key a) (f a)) row).size = row.size := by
  induction xs generalizing row with
  | nil => rfl
  | cons a xs ih => exact (ih _).trans Array.size_modify

/-- Something is taken off the entries at different places. -/
theorem getD_subtract_each {c : Nat → ℝ} {xs : List Nat} (distinct : xs.Nodup) {row : Array ℝ} {i : Nat}
    (inside : i < row.size) : (xs.foldl (fun row i => row.modify i (· - c i)) row).getD i 0 =
      row.getD i 0 - if i ∈ xs then c i else 0 := by
  obtain ⟨changed, kept⟩ := @getD_modify_each Nat id (fun i y => y - c i) xs (by simpa using distinct) row i inside
  by_cases member : i ∈ xs
  · rw [if_pos member]
    exact changed i member rfl
  · rw [if_neg member, sub_zero]
    exact kept (by simpa using member)

theorem getD_setIfInBounds {α : Type} (row : Array α) {i : Nat} (inside : i < row.size) (j : Nat) (x d : α) :
    (row.setIfInBounds j x).getD i d = if i = j then x else row.getD i d := by
  by_cases same : i = j
  · subst same
    simp [inside]
  · simp [Ne.symm same, same]

end Folds

section Places

variable {places : Places} {reached : Nat → List Nat} {n : Nat}

theorem Places.LaidFor.start_le (laid : places.LaidFor reached n) {i j : Nat} (before : i ≤ j) (within : j ≤ n) :
    places.start i ≤ places.start j := by
  induction before with
  | refl => exact le_rfl
  | @step j _ ih =>
      have next := laid.start_succ j within
      refine (ih (Nat.le_of_succ_le within)).trans ?_
      show places.start j ≤ places.start (j + 1)
      omega

/-- A place within a column is in no other one. -/
theorem Places.LaidFor.place_inj (laid : places.LaidFor reached n) {j j' t t' : Nat} (column : j < n) (column' : j' < n)
    (within : t ≤ (dependents reached j n).length) (within' : t' ≤ (dependents reached j' n).length)
    (same : places.start j + t = places.start j' + t') : j = j' ∧ t = t' := by
  have next := laid.start_succ j column
  have next' := laid.start_succ j' column'
  rcases lt_trichotomy j j' with before | rfl | after
  · have apart := laid.start_le (show j + 1 ≤ j' from before) column'.le
    omega
  · exact ⟨rfl, by omega⟩
  · have apart := laid.start_le (show j' + 1 ≤ j from after) column.le
    omega

theorem Places.LaidFor.place_lt (laid : places.LaidFor reached n) {j t : Nat} (column : j < n)
    (within : t ≤ (dependents reached j n).length) : places.start j + t < places.rows.size := by
  have next := laid.start_succ j column
  have last := laid.start_le (show j + 1 ≤ n from column) le_rfl
  rw [laid.room]
  omega

end Places

/-- A matrix whose entries are listed row by row, with places that were laid out for them. -/
structure FitsIn (S : Symmetric ℝ) (places : Places) (before : List (List Nat)) : Prop where
  serves : places.Serves before
  length_eq : S.length = before.length
  tied : ∀ (k : Nat) (columns : List Nat), before[k]? = some columns → ∀ j < k, S.get k j ≠ 0 → j ∈ columns

section Zeros

variable {S : Symmetric ℝ} {places : Places} {before : List (List Nat)} (fits : FitsIn S places before)
include fits

theorem FitsIn.below_of_depends {k j : Nat} (inside : k < before.length)
    (depends : j ∈ reachedBy places.parents before k) : j < k :=
  ((fits.serves.mem_reachedBy (List.getElem?_eq_getElem inside)).mp depends).1

/-- The columns that two rows both depend on lead from one to the other, so that the later row depends on the earlier
one. -/
theorem FitsIn.depends_of_common {i j m : Nat} (inside : i < before.length) (below : j < i)
    (left : m ∈ reachedBy places.parents before i) (right : m ∈ reachedBy places.parents before j) :
    j ∈ reachedBy places.parents before i := by
  have present : before[i]? = some before[i] := List.getElem?_eq_getElem inside
  obtain ⟨-, c, listed, way⟩ := (fits.serves.mem_reachedBy present).mp left
  have onward := fits.serves.leads_of_mem (below.trans inside) right
  exact (fits.serves.mem_reachedBy present).mpr ⟨below, c, listed, way.trans onward⟩

/-- The factor is zero where a row does not depend on a column. -/
theorem FitsIn.factorEntry_zero {i j : Nat} (inside : i < before.length) (below : j < i)
    (apart : j ∉ reachedBy places.parents before i) : S.factorEntry i j = 0 := by
  -- on the row, and on the column within it, as the entries come from each other
  induction i using Nat.strong_induction_on generalizing j with
  | _ i rows =>
    induction j using Nat.strong_induction_on with
    | _ j columns =>
      have entry : S.get i j = 0 := by
        by_contra stored
        have present : before[i]? = some before[i] := List.getElem?_eq_getElem inside
        exact apart ((fits.serves.mem_reachedBy present).mpr
          ⟨below, j, fits.tied i _ present j below stored, .here j⟩)
      have products : ∑ m ∈ Finset.range j, S.factorEntry i m * S.factorEntry j m = 0 := by
        refine Finset.sum_eq_zero fun m member => ?_
        have earlier := Finset.mem_range.mp member
        by_cases left : m ∈ reachedBy places.parents before i
        · have right : m ∉ reachedBy places.parents before j := fun right =>
            apart (fits.depends_of_common inside below left right)
          rw [rows j below (below.trans inside) earlier right, mul_zero]
        · rw [columns m earlier (earlier.trans below) left, zero_mul]
      rw [Symmetric.factorEntry_below below, Symmetric.remainder, entry, products, sub_zero, zero_div]

/-- The elimination of a column takes its part off the rows before one that depend on it, and so off all of them. -/
theorem FitsIn.takenOff {i j : Nat} (k : Nat) {x : Array ℝ} (size : x.size = before.length)
    (bound : i < before.length) (y z : ℝ) :
    ((dependents (reachedBy places.parents before) j k).foldl
        (fun row i => row.modify i (· - S.factorEntry i j * y)) (x.setIfInBounds j z)).getD i 0 =
      if i = j then z else x.getD i 0 - if i < k then S.factorEntry i j * y else 0 := by
  have distinct := dependents_nodup (reachedBy places.parents before) j k
  rw [getD_subtract_each distinct (bound.trans_eq (Array.size_setIfInBounds.trans size).symm),
    getD_setIfInBounds _ (bound.trans_eq size.symm)]
  simp only [mem_dependents]
  by_cases same : i = j
  · have outside : ¬(i < k ∧ j ∈ reachedBy places.parents before i) := by
      rintro ⟨-, depends⟩
      exact (fits.below_of_depends bound depends).ne same.symm
    rw [if_pos same, if_pos same, if_neg outside, sub_zero]
  · rw [if_neg same, if_neg same]
    by_cases earlier : i < k
    · by_cases depends : j ∈ reachedBy places.parents before i
      · rw [if_pos ⟨earlier, depends⟩, if_pos earlier]
      · have zero : S.factorEntry i j = 0 := by
          rcases lt_or_gt_of_ne same with above | below
          · exact Symmetric.factorEntry_above above
          · exact fits.factorEntry_zero bound below depends
        rw [if_neg (mt And.right depends), if_pos earlier, zero, zero_mul]
    · rw [if_neg (mt And.left earlier), if_neg earlier]

end Zeros

/-- What is left of an entry of row `k` when all columns before the row are eliminated from it but those in a list. -/
noncomputable def leftOver (S : Symmetric ℝ) (k : Nat) (rest : List Nat) (i : Nat) : ℝ :=
  S.get k i - ∑ m ∈ Finset.range k, if m ∈ rest then 0 else S.factorEntry k m * S.factorEntry i m

section LeftOver

variable {S : Symmetric ℝ} {k j : Nat} {rest : List Nat}

theorem leftOver_nil (S : Symmetric ℝ) (k : Nat) : leftOver S k [] k = S.remainder k k := by
  simp [leftOver, Symmetric.remainder]

theorem leftOver_cons (below : j < k) (fresh : j ∉ rest) (i : Nat) :
    leftOver S k rest i = leftOver S k (j :: rest) i - S.factorEntry k j * S.factorEntry i j := by
  have inside : j ∈ Finset.range k := Finset.mem_range.mpr below
  rw [leftOver, leftOver, ← Finset.add_sum_erase _ _ inside, ← Finset.add_sum_erase _ _ inside, if_neg fresh,
    if_pos (List.mem_cons_self ..)]
  have others : ∑ m ∈ (Finset.range k).erase j, (if m ∈ j :: rest then 0 else S.factorEntry k m * S.factorEntry i m) =
      ∑ m ∈ (Finset.range k).erase j, if m ∈ rest then 0 else S.factorEntry k m * S.factorEntry i m := by
    refine Finset.sum_congr rfl fun m member => ?_
    have apart := Finset.ne_of_mem_erase member
    simp [apart]
  rw [others]
  ring

end LeftOver

section Rows

variable {S : Symmetric ℝ} {places : Places} {before : List (List Nat)} (fits : FitsIn S places before)
  {k j : Nat} {rest : List Nat}

include fits in
/-- While none of the columns that a row depends on is eliminated, its entries are those of the matrix. -/
theorem FitsIn.leftOver_start {found : List Nat} (inside : k < before.length)
    (same : ∀ j, j ∈ found ↔ j ∈ reachedBy places.parents before k) (i : Nat) : leftOver S k found i = S.get k i := by
  refine sub_eq_self.mpr (Finset.sum_eq_zero fun m member => ?_)
  split
  · rfl
  · rename_i apart
    rw [fits.factorEntry_zero inside (Finset.mem_range.mp member) (mt (same m).mpr apart), zero_mul]

include fits in
/-- With the columns in an order of elimination nothing is missing from the first one when its turn comes. -/
theorem FitsIn.leftOver_first (inside : k < before.length) (below : j < k)
    (chained : Chained places.parents k (j :: rest)) : leftOver S k (j :: rest) j = S.remainder k j := by
  refine congrArg (S.get k j - ·) ?_
  refine (Finset.sum_subset (Finset.range_subset_range.mpr below.le) fun m _ outside => ?_).symm.trans
    (Finset.sum_congr rfl fun m member => ?_)
  · rcases Nat.lt_or_eq_of_le (Nat.le_of_not_lt (mt Finset.mem_range.mpr outside)) with after | rfl
    · rw [Symmetric.factorEntry_above after, mul_zero, ite_self]
    · rw [if_pos (List.mem_cons_self ..)]
  · have earlier := Finset.mem_range.mp member
    split
    · rename_i waiting
      -- a column that comes later does not lead to this one
      have later : m ∈ rest := (List.mem_cons.mp waiting).resolve_left earlier.ne
      obtain ⟨fresh, chained'⟩ := chained.fresh
      have apart : m ∉ reachedBy places.parents before j := by
        intro member
        have way := fits.serves.leads_of_mem (below.trans inside) member
        exact fresh (chained'.closed fits.serves.ascending (.tail _ later) way below)
      rw [fits.factorEntry_zero (below.trans inside) earlier apart, mul_zero]
    · rfl

end Rows

end Elimination

end GraduatedFit
