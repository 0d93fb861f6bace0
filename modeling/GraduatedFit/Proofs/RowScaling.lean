import GraduatedFit.Proofs.SparseGram

/-! The rows of a sparse matrix times factors of their own, and what that does to its products. -/

namespace GraduatedFit

namespace SparseVec

/-- Each entry times the factor of its position. -/
def scaleEntries (factor : Nat → ℝ) (v : SparseVec ℝ) : SparseVec ℝ := v.map fun e => (e.1, factor e.1 * e.2)

theorem get_scaleEntries (factor : Nat → ℝ) (v : SparseVec ℝ) (p : Nat) :
    (v.scaleEntries factor).get p = factor p * v.get p := by
  induction v with
  | nil => simp [scaleEntries]
  | cons head v ih =>
      obtain ⟨q, x⟩ := head
      rw [scaleEntries] at ih
      rw [scaleEntries, List.map_cons, get_cons, get_cons, ih]
      by_cases here : p = q
      · rw [if_pos here, if_pos here, here]
      · rw [if_neg here, if_neg here]

/-- Scaling commutes with the storing of a value. -/
theorem accumulate_scaleEntries (factor : Nat → ℝ) (position : Nat) (value : ℝ) (v : SparseVec ℝ) :
    accumulate position (factor position * value) (v.scaleEntries factor) =
      (accumulate position value v).scaleEntries factor := by
  induction v with
  | nil => rfl
  | cons head v ih =>
      obtain ⟨q, x⟩ := head
      simp only [scaleEntries, List.map_cons, accumulate] at ih ⊢
      by_cases before : position < q
      · rw [if_pos before, if_pos before]
        rfl
      · rw [if_neg before, if_neg before]
        by_cases same : position = q
        · rw [if_pos same, if_pos same, List.map_cons, same, mul_add]
        · rw [if_neg same, if_neg same, List.map_cons, ih]

/-- The inner product with a dense vector, summed over the places of that vector. -/
theorem addDot_eq {v : SparseVec ℝ} (increasing : v.Increasing) {i : Nat} (above : ∀ p ∈ v.support, i ≤ p)
    (total : ℝ) (ys : Vec ℝ) :
    addDot total i v ys = total + ∑ k ∈ Finset.range ys.length, v.get (i + k) * ys.getD k 0 := by
  induction ys generalizing total i v with
  | nil => cases v <;> simp [addDot]
  | cons y ys ih =>
      cases v with
      | nil => simp [addDot]
      | cons head v =>
          obtain ⟨p, x⟩ := head
          rw [addDot, List.length_cons, Finset.sum_range_succ']
          have shift (k : Nat) : i + (k + 1) = i + 1 + k := by omega
          by_cases here : p = i
          · have later : ∀ q ∈ support v, i + 1 ≤ q := fun q member => here ▸ increasing.head_lt member
            have other (k : Nat) : get ((p, x) :: v) (i + (k + 1)) = get v (i + 1 + k) := by
              rw [get_cons, if_neg (by omega), shift]
            have met : get ((p, x) :: v) (i + 0) = x := by rw [get_cons, add_zero, if_pos here.symm]
            rw [if_pos here, ih increasing.tail later, met, List.getD_cons_zero]
            simp only [other, List.getD_cons_succ]
            ring
          · have first : i < p := lt_of_le_of_ne (above p (.head _)) (Ne.symm here)
            have later : ∀ q ∈ support ((p, x) :: v), i + 1 ≤ q := by
              intro q member
              rcases List.mem_cons.mp member with same | member
              · exact same ▸ first
              · exact first.trans (increasing.head_lt member)
            have absent : get ((p, x) :: v) (i + 0) = 0 := by
              rw [get_cons, if_neg (by omega), increasing.get_below (by omega)]
            rw [if_neg here, ih increasing later, absent, zero_mul, add_zero]
            refine congrArg (total + ·) (Finset.sum_congr rfl fun k _ => ?_)
            rw [shift k, List.getD_cons_succ]

end SparseVec

namespace SparseMat

theorem transposeMul_getD {J : SparseMat ℝ} (formed : J.WellFormed) (r : Vec ℝ) {a : Nat} (inside : a < J.width) :
    (J.transposeMul r).getD a 0 = ∑ p ∈ Finset.range r.length, J.get p a * r.getD p 0 := by
  have column : J.columns.getD a [] = J.columns[a] := List.getD_eq_getElem _ _ inside
  have increasing := formed.increasing _ (List.getElem_mem (inside : a < J.columns.length))
  have entry : (J.transposeMul r).getD a 0 = J.columns[a].addDot 0 0 r := by
    unfold transposeMul
    rw [List.getD_eq_getElem?_getD, List.getElem?_map, List.getElem?_eq_getElem inside]
    rfl
  have product := SparseVec.addDot_eq increasing (fun p _ => p.zero_le) 0 r
  simp only [zero_add] at product
  simp only [entry, product, get, column]

/-- Each row times a factor of its own. -/
def scaleRows (factor : Nat → ℝ) (J : SparseMat ℝ) : SparseMat ℝ where
  height := J.height
  columns := J.columns.map (SparseVec.scaleEntries factor)

theorem get_scaleRows (factor : Nat → ℝ) (J : SparseMat ℝ) (i j : Nat) :
    (J.scaleRows factor).get i j = factor i * J.get i j := by
  rw [get, get, ← SparseVec.get_scaleEntries, scaleRows, List.getD_eq_getElem?_getD, List.getD_eq_getElem?_getD,
    List.getElem?_map]
  cases J.columns[j]? <;> rfl

theorem scaleRows_support (factor : Nat → ℝ) (v : SparseVec ℝ) :
    SparseVec.support (v.scaleEntries factor) = v.support := by
  simp [SparseVec.support, SparseVec.scaleEntries, Function.comp_def]

theorem scaleRows_wellFormed {factor : Nat → ℝ} {J : SparseMat ℝ} (formed : J.WellFormed) :
    (J.scaleRows factor).WellFormed := by
  constructor
  · intro column member
    obtain ⟨original, present, rfl⟩ := List.mem_map.mp member
    exact List.pairwise_map.mpr (formed.increasing original present)
  · intro column member p stored
    obtain ⟨original, present, rfl⟩ := List.mem_map.mp member
    rw [scaleRows_support] at stored
    exact formed.below original present p stored

/-- There is nothing below the last row. -/
theorem get_below {J : SparseMat ℝ} (formed : J.WellFormed) {p : Nat} (below : J.height ≤ p) (a : Nat) :
    J.get p a = 0 := by
  rw [get, List.getD_eq_getElem?_getD]
  cases present : J.columns[a]? with
  | none => rfl
  | some column =>
      apply SparseVec.get_absent
      intro stored
      have inside := formed.below column (List.mem_of_getElem? present) p stored
      omega

/-- With the roots of weights as factors each row counts in the Gram matrix as often as its weight says. -/
theorem get_gram_scaleRows {J : SparseMat ℝ} (formed : J.WellFormed) {weight : Nat → ℝ}
    (nonneg : ∀ p, 0 ≤ weight p) {a b : Nat} (row : a < J.width) (column : b < J.width) :
    (J.scaleRows fun p => √(weight p)).gram.get a b =
      ∑ p ∈ Finset.range J.height, weight p * (J.get p a * J.get p b) := by
  have width : (J.scaleRows fun p => √(weight p)).width = J.width := List.length_map _
  rw [get_gram (scaleRows_wellFormed formed) a b (row.trans_eq width.symm) (column.trans_eq width.symm)]
  apply Finset.sum_congr rfl
  intro p _
  rw [get_scaleRows, get_scaleRows]
  calc
    √(weight p) * J.get p a * (√(weight p) * J.get p b) =
        √(weight p) * √(weight p) * (J.get p a * J.get p b) := by ring
    _ = weight p * (J.get p a * J.get p b) := by rw [Real.mul_self_sqrt (nonneg p)]

theorem ofEntries_scaleRows (factor : Nat → ℝ) (height width : Nat) (entries : List ((Nat × Nat) × ℝ)) :
    ofEntries height width (entries.map fun e => (e.1, factor e.1.1 * e.2)) =
      (ofEntries height width entries).scaleRows factor := by
  have column (chosen : List ((Nat × Nat) × ℝ)) (stored : SparseVec ℝ) :
      (chosen.map fun e => (e.1, factor e.1.1 * e.2)).foldl
          (fun column e => SparseVec.accumulate e.1.1 e.2 column) (stored.scaleEntries factor) =
        (chosen.foldl (fun column e => SparseVec.accumulate e.1.1 e.2 column) stored).scaleEntries factor := by
    induction chosen generalizing stored with
    | nil => rfl
    | cons e chosen ih =>
        rw [List.map_cons, List.foldl_cons, List.foldl_cons, ← ih, SparseVec.accumulate_scaleEntries]
  simp only [ofEntries, scaleRows, List.map_map, mk.injEq, true_and]
  apply List.map_congr_left
  intro c _
  rw [List.filter_map]
  exact column _ []

end SparseMat

end GraduatedFit
