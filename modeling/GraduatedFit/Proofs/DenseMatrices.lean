import GraduatedFit.Proofs.WhitenedDerivative

/-! Dense matrices as matrices over finite index types, entry by entry. -/

namespace GraduatedFit

open Matrix

namespace Vec

/-- The first components as a function of their index. -/
noncomputable def components (n : Nat) (v : Vec ℝ) : Fin n → ℝ := fun i => v.getD i 0

theorem dot_components {a b : Vec ℝ} {n : Nat} (left : a.length = n) (right : b.length = n) :
    dot a b = a.components n ⬝ᵥ b.components n := by
  rw [dot_eq_range a b n left right, Finset.sum_range]
  rfl

theorem normSq_components {a : Vec ℝ} {n : Nat} (length : a.length = n) :
    normSq a = a.components n ⬝ᵥ a.components n := by
  rw [normSq_eq_dot, dot_components length length]

theorem components_scale (c : ℝ) (a : Vec ℝ) (n : Nat) : (a.scale c).components n = c • a.components n := by
  funext i
  simp only [components, scale, Pi.smul_apply, smul_eq_mul, List.getD_eq_getElem?_getD, List.getElem?_map]
  cases a[(i : Nat)]? <;> simp [mul_comm]

/-- Every function is that of a vector. -/
theorem components_surjective {n : Nat} (x : Fin n → ℝ) : ∃ v : Vec ℝ, v.length = n ∧ v.components n = x :=
  ⟨List.ofFn x, by simp, by funext i; simp [components]⟩

theorem ext_components {a b : Vec ℝ} {n : Nat} (left : a.length = n) (right : b.length = n)
    (same : a.components n = b.components n) : a = b := by
  refine List.ext_getElem (left.trans right.symm) fun i inside inside' => ?_
  have entry := congrFun same ⟨i, inside.trans_eq left⟩
  rwa [components, components, List.getD_eq_getElem _ _ inside, List.getD_eq_getElem _ _ inside'] at entry

end Vec

namespace Mat

section Entries

variable {K : Type} [Scalar K] {A B C : Mat K} {height width : Nat}

theorem get_eq_getElem {i j : Nat} (row : i < A.rows.length) (column : j < A.rows[i].length) :
    A.get i j = A.rows[i][j] := by
  rw [get, List.getD_eq_getElem _ _ row, List.getD_eq_getElem _ _ column]

omit [Scalar K] in
/-- A row has an entry for each column. -/
theorem length_getElem {i : Nat} (row : i < A.rows.length) : A.rows[i].length = A.width :=
  A.regular _ (List.getElem_mem row)

theorem getD_column {i j : Nat} (row : i < A.height) : (A.column j).getD i 0 = A.get i j := by
  have inside : i < A.rows.length := row
  simp [column, get, inside]

@[simp]
theorem length_column (A : Mat K) (j : Nat) : (A.column j).length = A.height := List.length_map _

theorem get_ofFn (entry : Nat → Nat → K) {i j : Nat} (row : i < height) (column : j < width) :
    (ofFn height width entry).get i j = entry i j := by
  simp [get, ofFn, row, column]

theorem get_transpose {i j : Nat} (row : i < A.height) (column : j < A.width) :
    A.transpose.get j i = A.get i j := by
  rw [← getD_column row]
  simp [get, transpose, columns, column]

theorem get_map (f : K → K) {i j : Nat} (row : i < A.height) (column : j < A.width) :
    (A.map f).get i j = f (A.get i j) := by
  have inside : i < A.rows.length := row
  have bound : j < A.rows[i].length := column.trans_eq (length_getElem inside).symm
  simp [get, map, inside, bound]

/-- A matrix is known by its shape and its entries. -/
theorem ext_get (heights : A.height = B.height) (widths : A.width = B.width)
    (entries : ∀ i < A.height, ∀ j < A.width, A.get i j = B.get i j) : A = B := by
  refine eq_of_rows widths (List.ext_getElem heights fun i row row' => ?_)
  have wide := length_getElem row
  have wide' := length_getElem row'
  refine List.ext_getElem (wide.trans (widths.trans wide'.symm)) fun j column column' => ?_
  rw [← get_eq_getElem row column, ← get_eq_getElem row' column']
  exact entries i row j (column.trans_eq wide)

/-- The product of two matrices and its shape. -/
theorem mul?_exists (fits : A.width = B.height) :
    ∃ C, A.mul? B = some C ∧ C.height = A.height ∧ C.width = B.width ∧
      ∀ i < A.height, ∀ j < B.width, C.get i j = Vec.dot (A.rows.getD i []) (B.column j) := by
  refine ⟨_, if_pos fits, by simp [height], rfl, fun i row j column => ?_⟩
  have inside : i < A.rows.length := row
  simp [get, columns, inside, column]

end Entries

/-- The entries of the first rows and columns. -/
noncomputable def toMatrix (m n : Nat) (A : Mat ℝ) : Matrix (Fin m) (Fin n) ℝ := .of fun i j => A.get i j

variable {A B C : Mat ℝ} {l m n : Nat}

theorem toMatrix_apply (A : Mat ℝ) (i : Fin m) (j : Fin n) : A.toMatrix m n i j = A.get i j := rfl

theorem toMatrix_ofFn (entry : Nat → Nat → ℝ) : (ofFn m n entry).toMatrix m n = .of fun i j => entry i j := by
  ext i j
  exact get_ofFn entry i.isLt j.isLt

theorem toMatrix_transpose (height : A.height = m) (width : A.width = n) :
    A.transpose.toMatrix n m = (A.toMatrix m n)ᵀ := by
  ext j i
  exact get_transpose (i.isLt.trans_eq height.symm) (j.isLt.trans_eq width.symm)

theorem toMatrix_scale (c : ℝ) (height : A.height = m) (width : A.width = n) :
    (A.scale c).toMatrix m n = c • A.toMatrix m n := by
  ext i j
  rw [toMatrix_apply, scale, get_map _ (i.isLt.trans_eq height.symm) (j.isLt.trans_eq width.symm), mul_comm]
  rfl

theorem toMatrix_identity (n : Nat) : (identity n).toMatrix n n = 1 := by
  ext i j
  rw [identity, toMatrix_ofFn, of_apply, one_apply]
  exact if_congr Fin.ext_iff.symm rfl rfl

theorem ext_toMatrix (heights : A.height = m ∧ B.height = m) (widths : A.width = n ∧ B.width = n)
    (same : A.toMatrix m n = B.toMatrix m n) : A = B := by
  refine ext_get (heights.1.trans heights.2.symm) (widths.1.trans widths.2.symm) fun i row j column => ?_
  exact congrFun (congrFun same ⟨i, row.trans_eq heights.1⟩) ⟨j, column.trans_eq widths.1⟩

theorem toMatrix_mul (left : A.height = l ∧ A.width = m) (right : B.height = m ∧ B.width = n)
    (product : A.mul? B = some C) :
    C.height = l ∧ C.width = n ∧ C.toMatrix l n = A.toMatrix l m * B.toMatrix m n := by
  obtain ⟨D, found, height, width, entries⟩ := mul?_exists (left.2.trans right.1.symm)
  obtain rfl := Option.some.inj (product.symm.trans found)
  refine ⟨height.trans left.1, width.trans right.2, ?_⟩
  ext i j
  have row := i.isLt.trans_eq left.1.symm
  rw [toMatrix_apply, entries i row j (j.isLt.trans_eq right.2.symm), mul_apply,
    Vec.dot_components ((length_row row).trans left.2) ((B.length_column j).trans right.1), dotProduct]
  exact Finset.sum_congr rfl fun k _ => congrArg _ (getD_column (k.isLt.trans_eq right.1.symm))

theorem components_apply {d : Vec ℝ} (height : A.height = m) (width : A.width = n) (length : d.length = n) :
    (A.apply d).components m = A.toMatrix m n *ᵥ d.components n := by
  funext i
  have row := length_row (i.isLt.trans_eq height.symm)
  rw [Vec.components, apply_getD, Vec.dot_components (row.trans width) length]
  rfl

theorem mulVec?_eq_apply {d : Vec ℝ} (length : d.length = A.width) : A.mulVec? d = some (A.apply d) :=
  if_pos length.symm

end Mat

end GraduatedFit
