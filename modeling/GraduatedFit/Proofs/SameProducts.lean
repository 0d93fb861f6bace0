import GraduatedFit.Proofs.StackedRows
import GraduatedFit.LeastSquares.Basic

/-! A solver sees no more of a linear system than the products of its columns. -/

namespace GraduatedFit

namespace SparseVec

theorem products_scaled (x y : ℝ) (v w : SparseVec ℝ) :
    products (v.map fun e => (e.1, e.2 * x)) (w.map fun e => (e.1, e.2 * y)) = (products v w).map (· * (x * y)) := by
  induction v, w using products.induct with
  | case1 w => simp [products]
  | case2 v nonempty => cases v <;> simp [products]
  | case3 i s v j t w before ih =>
      rw [products, if_pos before, ← ih, List.map_cons, List.map_cons, products, if_pos before]
  | case4 i s v j t w after before ih =>
      rw [products, if_neg after, if_pos before, ← ih, List.map_cons, List.map_cons, products, if_neg after,
        if_pos before]
  | case5 i s v j t w after before ih =>
      rw [products, if_neg after, if_neg before, List.map_cons, List.map_cons, List.map_cons, products, if_neg after,
        if_neg before, ih, mul_mul_mul_comm]

/-- Scaled columns have a scaled inner product. -/
theorem overlap_scaled (x y : ℝ) (v w : SparseVec ℝ) :
    overlap (v.map fun e => (e.1, e.2 * x)) (w.map fun e => (e.1, e.2 * y)) = (v.overlap w).map (· * (x * y)) := by
  rw [overlap_eq, overlap_eq, products_scaled, List.sum_map_mul_right]
  simp only [ne_eq, List.map_eq_nil_iff, List.map_id']
  split <;> rfl

theorem addDot_scaled (x : ℝ) (v : SparseVec ℝ) (total : ℝ) (i : Nat) (ys : Vec ℝ) :
    addDot (total * x) i (v.map fun e => (e.1, e.2 * x)) ys = addDot total i v ys * x := by
  induction ys generalizing total i v with
  | nil => cases v <;> rfl
  | cons y ys ih =>
      cases v with
      | nil => rfl
      | cons head v =>
          obtain ⟨p, s⟩ := head
          rw [List.map_cons, addDot, addDot]
          split
          · rw [← ih, add_mul, mul_right_comm]
          · rw [← ih, List.map_cons]

/-- The squared norm is the inner product of a vector with itself. -/
theorem normSq_eq_overlap (v : SparseVec ℝ) : v.normSq = (v.overlap v).getD 0 := by
  have squares : products v v = v.map fun e => e.2 * e.2 := by
    induction v with
    | nil => simp [products]
    | cons head v ih =>
        obtain ⟨p, s⟩ := head
        rw [products, if_neg (lt_irrefl p), if_neg (lt_irrefl p), ih, List.map_cons]
  rw [overlap_getD, squares, normSq, Vec.normSq, Vec.sum_real, List.map_map]
  rfl

end SparseVec

/-- Two linear systems that differ in their rows only: any two columns have the same inner product, and each has the
same inner product with the residual. -/
structure SameProducts (r r' : Vec ℝ) (J J' : SparseMat ℝ) : Prop where
  fits : r.length = J.height
  fits' : r'.length = J'.height
  width : J'.columns.length = J.columns.length
  overlap_eq : ∀ a b, a < J.columns.length → b < J.columns.length →
    SparseVec.overlap (J'.columns.getD a []) (J'.columns.getD b []) =
      SparseVec.overlap (J.columns.getD a []) (J.columns.getD b [])
  gradient_eq : ∀ a, a < J.columns.length →
    SparseVec.addDot 0 0 (J'.columns.getD a []) r' = SparseVec.addDot 0 0 (J.columns.getD a []) r

namespace SparseMat

theorem gramOf_congr {columns columns' : List (SparseVec ℝ)} (length : columns'.length = columns.length)
    (same : ∀ a b, a < columns.length → b < columns.length →
      SparseVec.overlap (columns'.getD a []) (columns'.getD b []) =
        SparseVec.overlap (columns.getD a []) (columns.getD b [])) : gramOf columns' = gramOf columns := by
  induction columns generalizing columns' with
  | nil => rw [List.length_eq_zero_iff.mp length]
  | cons column columns ih =>
      obtain ⟨column', columns', rfl⟩ := List.exists_cons_of_length_eq_add_one length
      have tails : columns'.length = columns.length := Nat.succ.inj length
      have below : columns'.map column'.overlap = columns.map column.overlap := by
        refine List.ext_getElem (by simpa using tails) fun b left right => ?_
        have inside : b < columns.length := by simpa using right
        have entry := same 0 (b + 1) (Nat.succ_pos _) (Nat.succ_lt_succ inside)
        simpa [inside, tails] using entry
      have diagonal : column'.overlap column' = column.overlap column := same 0 0 (Nat.succ_pos _) (Nat.succ_pos _)
      rw [gramOf, gramOf, diagonal, below, ih tails fun a b left right =>
        same (a + 1) (b + 1) (Nat.succ_lt_succ left) (Nat.succ_lt_succ right)]

theorem scaleColumns_getD (factors : Vec ℝ) (J : SparseMat ℝ) {a : Nat} (inside : a < factors.length)
    (inside' : a < J.columns.length) : (J.scaleColumns factors).columns.getD a [] =
      (J.columns.getD a []).map fun e => (e.1, e.2 * factors.getD a 0) := by
  simp [scaleColumns, inside, inside']

end SparseMat

namespace SameProducts

variable {r r' : Vec ℝ} {J J' : SparseMat ℝ} (same : SameProducts r r' J J')
include same

theorem gram_eq : J'.gram = J.gram := SparseMat.gramOf_congr same.width same.overlap_eq

theorem transposeMul_eq : J'.transposeMul r' = J.transposeMul r := by
  refine List.ext_getElem (by simpa [SparseMat.transposeMul] using same.width) fun a left right => ?_
  have inside : a < J.columns.length := by simpa [SparseMat.transposeMul] using right
  simpa [SparseMat.transposeMul, inside, same.width] using same.gradient_eq a inside

/-- The norms of the columns are the same. -/
theorem scaling_eq : ColumnScaling.ofJacobian J' = ColumnScaling.ofJacobian J := by
  refine congrArg ColumnScaling.mk (List.ext_getElem (by simpa using same.width) fun a left right => ?_)
  have inside : a < J.columns.length := by simpa using right
  have norm := same.overlap_eq a a inside inside
  rw [List.getD_eq_getElem _ _ inside, List.getD_eq_getElem _ _ (same.width ▸ inside)] at norm
  rw [List.getElem_map, List.getElem_map, SparseVec.normSq_eq_overlap, SparseVec.normSq_eq_overlap, norm]

theorem scaleColumns (factors : Vec ℝ) : SameProducts r r' (J.scaleColumns factors) (J'.scaleColumns factors) where
  fits := same.fits
  fits' := same.fits'
  width := by simp [SparseMat.scaleColumns, same.width]
  overlap_eq a b left right := by
    simp only [SparseMat.scaleColumns, List.length_zipWith, Nat.lt_min] at left right
    rw [SparseMat.scaleColumns_getD _ _ left.1 left.2, SparseMat.scaleColumns_getD _ _ right.1 right.2,
      SparseMat.scaleColumns_getD _ _ left.1 (same.width ▸ left.2),
      SparseMat.scaleColumns_getD _ _ right.1 (same.width ▸ right.2), SparseVec.overlap_scaled,
      SparseVec.overlap_scaled, same.overlap_eq _ _ left.2 right.2]
  gradient_eq a inside := by
    simp only [SparseMat.scaleColumns, List.length_zipWith, Nat.lt_min] at inside
    have zero (x : ℝ) (v : SparseVec ℝ) (ys : Vec ℝ) :
        SparseVec.addDot 0 0 (v.map fun e => (e.1, e.2 * x)) ys = SparseVec.addDot 0 0 v ys * x := by
      simpa using SparseVec.addDot_scaled x v 0 0 ys
    rw [SparseMat.scaleColumns_getD _ _ inside.1 inside.2,
      SparseMat.scaleColumns_getD _ _ inside.1 (same.width ▸ inside.2), zero, zero, same.gradient_eq _ inside.2]

/-- The same step, and the same plan, matrix and gradient kept for the next system. -/
theorem solve_eq (kept : NormalEquations ℝ) (damping : Option ℝ) :
    kept.solve r' J' damping = kept.solve r J damping := by
  unfold NormalEquations.solve
  rw [if_neg (not_not.mpr same.fits'), if_neg (not_not.mpr same.fits), same.gram_eq, same.transposeMul_eq]

omit same in
/-- Systems of the same rows in another order. -/
theorem of_rows {height width : Nat} {entries entries' : List ((Nat × Nat) × ℝ)}
    (below : ∀ e ∈ entries, e.1.1 < height) (below' : ∀ e ∈ entries', e.1.1 < height) (short : r.length = height)
    (short' : r'.length = height)
    (moved : (SparseMat.stackedRows height entries' r').Perm (SparseMat.stackedRows height entries r)) :
    SameProducts r r' (.ofEntries height width entries) (.ofEntries height width entries') where
  fits := short
  fits' := short'
  width := by simp [SparseMat.ofEntries]
  overlap_eq a b left right := by
    rw [SparseMat.ofEntries, List.length_map, List.length_range] at left right
    rw [SparseMat.overlap_ofEntries below r left right, SparseMat.overlap_ofEntries below' r' left right,
      StackedRow.overlap_perm moved]
  gradient_eq a inside := by
    rw [SparseMat.ofEntries, List.length_map, List.length_range] at inside
    rw [SparseMat.addDot_ofEntries below short inside, SparseMat.addDot_ofEntries below' short' inside,
      StackedRow.gradient_perm moved]

end SameProducts

namespace LeastSquares.State

variable {r r' : Vec ℝ} {J J' : SparseMat ℝ} (same : SameProducts r r' J J')
include same

theorem updateScaling_same (useScaling : Bool) (s : State ℝ) :
    s.updateScaling useScaling J' = s.updateScaling useScaling J := by
  rw [updateScaling, updateScaling, same.scaling_eq]

/-- The system of an iteration has the same solution, in scaled coordinates too. -/
theorem direction_same (useScaling : Bool) (damping : Option ℝ) (fault : LinearError → SystemFault)
    (noGradient : SolveError ℝ) (s : State ℝ) :
    s.direction useScaling damping fault noGradient r' J' = s.direction useScaling damping fault noGradient r J := by
  unfold direction scaledJacobian
  cases useScaling with
  | false => simp only [Bool.false_eq_true, if_false, Result.ok_bind, same.solve_eq]
  | true =>
      simp only [if_true]
      cases s.scaling with
      | none => rfl
      | some scaling =>
          simp only [Result.ok_bind, ColumnScaling.scale, (same.scaleColumns scaling.factors).solve_eq]

end LeastSquares.State

end GraduatedFit
