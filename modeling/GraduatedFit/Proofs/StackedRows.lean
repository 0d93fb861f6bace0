import GraduatedFit.Proofs.DenseAssembly
import GraduatedFit.Proofs.RowScaling

/-! A linear system as the list of its rows: its products do not depend on the order in which the rows are stacked. -/

namespace GraduatedFit

open SparseMat

/-- A row of a linear system: the values listed for each column, and the residual. -/
structure StackedRow where
  listed : Nat → List ℝ
  residual : ℝ

namespace StackedRow

/-- What the values of a column add up to. -/
def entry (row : StackedRow) (a : Nat) : ℝ := (row.listed a).sum

/-- Something is listed for both columns. -/
def shared (a b : Nat) (row : StackedRow) : Bool := !(row.listed a).isEmpty && !(row.listed b).isEmpty

/-- The inner product of two columns, if there is a row for both. -/
def overlap (rows : List StackedRow) (a b : Nat) : Option ℝ :=
  if rows.any (shared a b) then some (rows.map fun row => row.entry a * row.entry b).sum else none

/-- The inner product of a column with the residuals. -/
def gradient (rows : List StackedRow) (a : Nat) : ℝ := (rows.map fun row => row.entry a * row.residual).sum

variable {rows rows' : List StackedRow}

theorem overlap_perm (moved : rows'.Perm rows) (a b : Nat) : overlap rows' a b = overlap rows a b := by
  rw [overlap, overlap, moved.any_eq, (moved.map _).sum_eq]

theorem gradient_perm (moved : rows'.Perm rows) (a : Nat) : gradient rows' a = gradient rows a := (moved.map _).sum_eq

end StackedRow

namespace SparseVec

/-- Two vectors have an inner product where they share a position. -/
theorem products_ne_nil_iff {v w : SparseVec ℝ} (left : v.Increasing) (right : w.Increasing) :
    products v w ≠ [] ↔ ∃ p, p ∈ v.support ∧ p ∈ w.support := by
  induction v, w using products.induct with
  | case1 w => simp [products, support]
  | case2 v nonempty => cases v <;> simp [products, support]
  | case3 i x v j y w before ih =>
      have absent : i ∉ support ((j, y) :: w) := by
        intro member
        rcases List.mem_cons.mp member with same | later
        · omega
        · have := right.head_lt later
          omega
      rw [products, if_pos before, ih left.tail right]
      refine exists_congr fun p => and_congr_left fun there => ?_
      have other : p ≠ i := fun same => absent (same ▸ there)
      simp [support, other]
  | case4 i x v j y w after before ih =>
      have absent : j ∉ support ((i, x) :: v) := by
        intro member
        rcases List.mem_cons.mp member with same | later
        · omega
        · have := left.head_lt later
          omega
      rw [products, if_neg after, if_pos before, ih left right.tail]
      refine exists_congr fun p => and_congr_right fun here => ?_
      have other : p ≠ j := fun same => absent (same ▸ here)
      simp [support, other]
  | case5 i x v j y w after before ih =>
      obtain rfl : i = j := by omega
      rw [products, if_neg after, if_neg before]
      exact iff_of_true (List.cons_ne_nil _ _) ⟨i, .head _, .head _⟩

theorem overlap_eq (v w : SparseVec ℝ) : v.overlap w = if products v w ≠ [] then some (products v w).sum else none := by
  unfold overlap
  cases products v w <;> simp

end SparseVec

namespace SparseMat

theorem column_mem {J : SparseMat ℝ} {a : Nat} (inside : a < J.width) : J.columns.getD a [] ∈ J.columns := by
  rw [List.getD_eq_getElem _ _ inside]
  exact List.getElem_mem _

/-- The rows of a matrix that is filled with entries, next to a residual. -/
def stackedRows (height : Nat) (entries : List ((Nat × Nat) × ℝ)) (r : Vec ℝ) : List StackedRow :=
  (List.range height).map fun p => ⟨valuesAt entries p, r.getD p 0⟩

section Filled

variable {height width : Nat} {entries : List ((Nat × Nat) × ℝ)} {r : Vec ℝ}

theorem column_ofEntries {a : Nat} (inside : a < width) : (ofEntries height width entries).columns.getD a [] =
    (entries.filter (·.1.2 == a)).foldl (fun column e => SparseVec.accumulate e.1.1 e.2 column) [] := by
  rw [ofEntries, List.getD_eq_getElem?_getD, List.getElem?_map, List.getElem?_range inside]
  rfl

/-- A position is stored where a value is listed for it. -/
theorem mem_support_ofEntries {a p : Nat} (inside : a < width) :
    p ∈ SparseVec.support ((ofEntries height width entries).columns.getD a []) ↔ valuesAt entries p a ≠ [] := by
  rw [column_ofEntries inside, mem_fold, valuesAt, Ne, List.map_eq_nil_iff, List.filter_eq_nil_iff]
  simp only [SparseVec.support, List.map_nil, List.not_mem_nil, false_or, List.mem_filter, beq_iff_eq, not_forall,
    not_not, Prod.ext_iff]
  exact exists_congr fun e => by tauto

theorem get_eq_entry {a p : Nat} (inside : a < width) :
    SparseVec.get ((ofEntries height width entries).columns.getD a []) p = (valuesAt entries p a).sum := by
  have entry := get_ofEntries height width entries p a
  rwa [if_pos inside, addUp_real] at entry

section Products

variable (below : ∀ e ∈ entries, e.1.1 < height)
include below

theorem stackedRows_any (r : Vec ℝ) (a b : Nat) : (stackedRows height entries r).any (StackedRow.shared a b) = true ↔
    ∃ p, valuesAt entries p a ≠ [] ∧ valuesAt entries p b ≠ [] := by
  simp only [stackedRows, List.any_map, List.any_eq_true, List.mem_range, Function.comp_apply, StackedRow.shared,
    Bool.and_eq_true, Bool.not_eq_true', List.isEmpty_eq_false_iff]
  refine exists_congr fun p => and_iff_right_of_imp fun both => ?_
  by_contra beyond
  refine both.1 (valuesAt_eq_nil fun e member same => ?_)
  have inside := below e member
  rw [same] at inside
  exact beyond inside

theorem column_formed {a : Nat} (inside : a < width) :
    SparseVec.Increasing ((ofEntries height width entries).columns.getD a []) ∧
      ∀ p ∈ SparseVec.support ((ofEntries height width entries).columns.getD a []), p < height := by
  have formed : (ofEntries height width entries).WellFormed := ofEntries_wellFormed below
  have width_eq : (ofEntries height width entries).width = width := by simp [SparseMat.width, ofEntries]
  have stored := column_mem (inside.trans_eq width_eq.symm)
  exact ⟨formed.increasing _ stored, formed.below _ stored⟩

/-- The inner product of two columns from the rows. -/
theorem overlap_ofEntries (r : Vec ℝ) {a b : Nat} (left : a < width) (right : b < width) :
    SparseVec.overlap ((ofEntries height width entries).columns.getD a [])
        ((ofEntries height width entries).columns.getD b []) =
      StackedRow.overlap (stackedRows height entries r) a b := by
  obtain ⟨first, inside⟩ := column_formed below left
  obtain ⟨second, -⟩ := column_formed below right
  have total := SparseVec.sum_products first second inside
  have met := SparseVec.products_ne_nil_iff first second
  simp only [get_eq_entry left, get_eq_entry right] at total
  simp only [mem_support_ofEntries left, mem_support_ofEntries right] at met
  rw [SparseVec.overlap_eq, StackedRow.overlap]
  refine if_congr (met.trans (stackedRows_any below r a b).symm) ?_ rfl
  rw [total, stackedRows, List.map_map, sum_map_range]
  rfl

/-- The inner product of a column with the residual from the rows. -/
theorem addDot_ofEntries (short : r.length = height) {a : Nat} (inside : a < width) :
    SparseVec.addDot 0 0 ((ofEntries height width entries).columns.getD a []) r =
      StackedRow.gradient (stackedRows height entries r) a := by
  obtain ⟨increasing, -⟩ := column_formed below inside
  rw [SparseVec.addDot_eq increasing fun p _ => p.zero_le, zero_add, short, StackedRow.gradient, stackedRows,
    List.map_map, sum_map_range]
  refine Finset.sum_congr rfl fun p _ => ?_
  rw [Nat.zero_add, get_eq_entry inside]
  rfl

end Products

end Filled

end SparseMat

namespace Graph

variable {values : Values ℝ} {layout : Layout}

/-- The rows of a slot in the columns of the layout. -/
noncomputable def slotRows (values : Values ℝ) (layout : Layout) (slot : GraphFactor ℝ × Vec ℝ × Mat ℝ) :
    List StackedRow :=
  (List.range slot.1.noise.dim).map fun i =>
    ⟨valuesAt (slotEntries values layout 0 slot.2.2 0 slot.1.keys) i, slot.2.1.getD i 0⟩

/-- Entries that begin in a later row stand as much lower. -/
theorem valuesAt_shift (row column : Nat) (A : Mat ℝ) (keys : List String) (i q : Nat) :
    valuesAt (slotEntries values layout row A column keys) (row + i) q =
      valuesAt (slotEntries values layout 0 A column keys) i q := by
  induction keys generalizing column with
  | nil => rfl
  | cons key keys ih =>
      rw [slotEntries, slotEntries, valuesAt_append, valuesAt_append, ih, valuesAt_denseBlock, valuesAt_denseBlock,
        Nat.add_sub_cancel_left, Nat.sub_zero]
      refine congrArg (· ++ _) (if_congr ?_ rfl rfl)
      omega

/-- The rows of the slots, slot by slot. -/
theorem stackedRows_graphEntries (layout : Layout) (row : Nat) {fs : List (GraphFactor ℝ)} {systems : List (Vec ℝ × Mat ℝ)}
    (each : List.Forall₂ (GraphFactor.HasSystem values) fs systems) :
    ((List.range (fs.map (·.noise.dim)).sum).map fun p =>
        StackedRow.mk (valuesAt (graphEntries values layout row fs systems) (row + p))
          ((systems.map Prod.fst).flatten.getD p 0)) =
      (List.zip fs systems).flatMap (slotRows values layout) := by
  induction each generalizing row with
  | nil => rfl
  | @cons f system fs systems first rest ih =>
      have total : ((f :: fs).map (·.noise.dim)).sum = f.noise.dim + (fs.map (·.noise.dim)).sum := List.sum_cons
      rw [total, List.range_add, List.map_append, List.map_map, List.zip_cons_cons, List.flatMap_cons,
        ← ih (row + f.noise.dim)]
      refine congrArg₂ (· ++ ·) ?_ ?_
      · refine List.map_congr_left fun i member => ?_
        have inside : i < f.noise.dim := List.mem_range.mp member
        rw [StackedRow.mk.injEq]
        constructor
        · funext q
          rw [graphEntries, valuesAt_append, valuesAt_above rest (by omega), List.append_nil, valuesAt_shift]
        · rw [List.map_cons, List.flatten_cons, List.getD_append _ _ _ _ (first.rows.symm ▸ inside)]
      · refine List.map_congr_left fun i _ => ?_
        rw [Function.comp_apply, StackedRow.mk.injEq]
        constructor
        · funext q
          rw [graphEntries, valuesAt_append, valuesAt_below (by rw [first.height]; omega), List.nil_append,
            Nat.add_assoc]
        · rw [List.map_cons, List.flatten_cons, List.getD_append_right _ _ _ _ (by rw [first.rows]; omega), first.rows,
            Nat.add_sub_cancel_left]

theorem stackedRows_slots (layout : Layout) {fs : List (GraphFactor ℝ)} {systems : List (Vec ℝ × Mat ℝ)}
    (each : List.Forall₂ (GraphFactor.HasSystem values) fs systems) :
    stackedRows (fs.map (·.noise.dim)).sum (graphEntries values layout 0 fs systems) (systems.map Prod.fst).flatten =
      (List.zip fs systems).flatMap (slotRows values layout) := by
  have rows := stackedRows_graphEntries layout 0 each
  simp only [Nat.zero_add] at rows
  exact rows

end Graph

end GraduatedFit
