import GraduatedFit.Proofs.ExactArithmetic
import GraduatedFit.Symmetric

/-! The Cholesky factorization solves the system of its matrix. -/

namespace GraduatedFit

namespace Symmetric

section Entries

variable {K : Type}

/-- Every column stores a place for each later row. -/
def Triangular : Symmetric K → Prop
  | [] => True
  | column :: S => column.below.length = S.length ∧ Triangular S

theorem stored_table (S : Symmetric K) (i j : Nat) :
    stored? S.table i j = (S[min i j]?).bind fun column =>
      ((column.diagonal :: column.below)[max i j - min i j]?).join := by
  unfold stored? table
  cases present : S[min i j]? with
  | none => simp [present]
  | some column => simp [present]

theorem stored_comm (table : Array (Array (Option K))) (i j : Nat) :
    stored? table i j = stored? table j i := by
  unfold stored?
  rw [Nat.min_comm, Nat.max_comm]

variable [Scalar K]

/-- The number at a place of a column; an absent entry counts as zero. -/
def coefficient (entries : List (Option K)) (i : Nat) : K := entries[i]?.join.getD 0

@[simp]
theorem coefficient_zero (entry : Option K) (entries : List (Option K)) :
    coefficient (entry :: entries) 0 = entry.getD 0 := rfl

@[simp]
theorem coefficient_succ (entry : Option K) (entries : List (Option K)) (i : Nat) :
    coefficient (entry :: entries) (i + 1) = coefficient entries i := rfl

theorem coefficient_map {α : Type} (f : α → Option K) (xs : List α) (d : α) (i : Nat) (inside : i < xs.length) :
    coefficient (xs.map f) i = (f (xs.getD i d)).getD 0 := by
  simp [coefficient, List.getD_eq_getElem?_getD, inside]

theorem get_comm (S : Symmetric K) (i j : Nat) : S.get i j = S.get j i := by
  rw [get, get, stored_comm]

@[simp]
theorem get_zero_zero (column : SymColumn K) (S : Symmetric K) :
    get (column :: S) 0 0 = column.diagonal.getD 0 := by
  simp [get, stored_table]

@[simp]
theorem get_zero_succ (column : SymColumn K) (S : Symmetric K) (j : Nat) :
    get (column :: S) 0 (j + 1) = coefficient column.below j := by
  simp [get, stored_table, coefficient]

@[simp]
theorem get_succ_zero (column : SymColumn K) (S : Symmetric K) (i : Nat) :
    get (column :: S) (i + 1) 0 = coefficient column.below i := by
  rw [get_comm, get_zero_succ]

@[simp]
theorem get_succ_succ (column : SymColumn K) (S : Symmetric K) (i j : Nat) :
    get (column :: S) (i + 1) (j + 1) = get S i j := by
  simp [get, stored_table, Nat.succ_max_succ, Nat.succ_min_succ]

theorem downdate_triangular {xs : List (Option K)} {S : Symmetric K} (length : xs.length = S.length)
    (triangular : S.Triangular) : (downdate xs S).Triangular := by
  induction xs generalizing S with
  | nil => cases S <;> exact triangular
  | cons x xs ih =>
      cases S with
      | nil => cases length
      | cons column S =>
          obtain ⟨first, later⟩ := triangular
          have shorter : xs.length = S.length := by simpa using length
          cases x with
          | none => exact ⟨by rw [first, length_downdate], ih shorter later⟩
          | some x =>
              refine ⟨?_, ih shorter later⟩
              simp [length_downdate, first, shorter]

end Entries

theorem lessProduct_getD (x : ℝ) (entry factor : Option ℝ) :
    (lessProduct x entry factor).getD 0 = entry.getD 0 - x * factor.getD 0 := by
  cases factor <;> simp [lessProduct]

theorem coefficient_zipWith_lessProduct (x : ℝ) {entries factors : List (Option ℝ)}
    (length : entries.length = factors.length) (i : Nat) :
    coefficient (List.zipWith (lessProduct x) entries factors) i =
      coefficient entries i - x * coefficient factors i := by
  induction entries generalizing factors i with
  | nil =>
      obtain rfl : factors = [] := List.length_eq_zero_iff.mp length.symm
      simp [coefficient]
  | cons entry entries ih =>
      cases factors with
      | nil => cases length
      | cons factor factors =>
          cases i with
          | zero => simp [lessProduct_getD]
          | succ i => simpa using ih (by simpa using length) i

/-- Taking off a column subtracts the outer product of the column with itself. -/
theorem get_downdate {xs : List (Option ℝ)} {S : Symmetric ℝ} (length : xs.length = S.length)
    (triangular : S.Triangular) (i j : Nat) :
    (downdate xs S).get i j = S.get i j - coefficient xs i * coefficient xs j := by
  induction xs generalizing S i j with
  | nil => cases S <;> simp [downdate, coefficient]
  | cons x xs ih =>
      cases S with
      | nil => cases length
      | cons column S =>
          obtain ⟨first, later⟩ := triangular
          have shorter : xs.length = S.length := by simpa using length
          have inner := ih shorter later
          cases x with
          | none =>
              cases i with
              | zero => cases j <;> simp [downdate]
              | succ i => cases j <;> simp [downdate, inner]
          | some x =>
              have column := coefficient_zipWith_lessProduct x (first.trans shorter.symm)
              cases i with
              | zero => cases j <;> simp [downdate, column, lessProduct_getD]
              | succ i => cases j <;> simp [downdate, column, inner, mul_comm]

theorem coefficient_quotient (entries : List (Option ℝ)) (pivot : ℝ) (i : Nat) :
    coefficient (entries.map (·.map (· / pivot))) i = coefficient entries i / pivot := by
  unfold coefficient
  rw [List.getElem?_map]
  rcases entries[i]? with _ | _ | x <;> simp

end Symmetric

namespace Cholesky

open GraduatedFit.Symmetric

theorem subtract_all (entries : List (Option ℝ)) (z : Vec ℝ) (y : ℝ)
    (length : entries.length = z.length) :
    (List.zip entries z).foldl (fun acc (entry, z) => (entry.map (acc - · * z)).getD acc) y =
      y - ∑ j ∈ Finset.range z.length, coefficient entries j * z.getD j 0 := by
  induction entries generalizing z y with
  | nil =>
      obtain rfl : z = [] := List.length_eq_zero_iff.mp length.symm
      simp
  | cons entry entries ih =>
      cases z with
      | nil => cases length
      | cons z zs =>
          rw [List.zip_cons_cons, List.foldl_cons, ih _ _ (by simpa using length), List.length_cons,
            Finset.sum_range_succ']
          have first : (entry.map (y - · * z)).getD y = y - entry.getD 0 * z := by
            cases entry <;> simp
          simp only [first, coefficient_succ, coefficient_zero, List.getD_cons_succ, List.getD_cons_zero]
          ring

theorem getD_eliminated (b : Vec ℝ) (entries : List (Option ℝ)) (y : ℝ) (i : Nat)
    (length : entries.length = b.length) :
    (List.zipWith (fun c entry => (entry.map (c - · * y)).getD c) b entries).getD i 0 =
      b.getD i 0 - coefficient entries i * y := by
  induction entries generalizing b i with
  | nil =>
      obtain rfl : b = [] := List.length_eq_zero_iff.mp length.symm
      simp [coefficient]
  | cons entry entries ih =>
      cases b with
      | nil => cases length
      | cons c b =>
          cases i with
          | zero => cases entry <;> simp
          | succ i => simpa using ih b i (by simpa using length)

theorem cholesky_cons {column : SymColumn ℝ} {S : Symmetric ℝ} {L : Cholesky ℝ}
    (factored : cholesky? (column :: S) = some L) :
    let pivot := √(column.diagonal.getD 0)
    let below := column.below.map (·.map (· / pivot))
    0 < column.diagonal.getD 0 ∧
      ∃ rest, (downdate below S).cholesky? = some rest ∧ L = ⟨pivot, below⟩ :: rest := by
  rw [cholesky?] at factored
  dsimp only at factored
  split at factored
  · rename_i positive
    obtain ⟨rest, found, rfl⟩ := Option.map_eq_some_iff.mp factored
    exact ⟨by simpa using positive, rest, found, rfl⟩
  · cases factored

/-- The first unknown is found last. -/
theorem solve_cons {pivot c : ℝ} {below : List (Option ℝ)} {rest : Cholesky ℝ} {b z : Vec ℝ}
    (later : rest.solve (List.zipWith (fun x entry => (entry.map (x - · * (c / pivot))).getD x) b below) = z)
    (count : below.length = z.length) :
    solve (⟨pivot, below⟩ :: rest) (c :: b) =
      (c / pivot - ∑ j ∈ Finset.range z.length, coefficient below j * z.getD j 0) / pivot :: z := by
  rw [← subtract_all below z _ count, ← later]
  rfl

section Rows

variable {column : SymColumn ℝ} {S : Symmetric ℝ} {below : List (Option ℝ)} {pivot : ℝ}

theorem first_row (positive : 0 < pivot) (square : pivot * pivot = column.diagonal.getD 0)
    (entry : ∀ j, coefficient column.below j = pivot * coefficient below j) (z : Vec ℝ) (c : ℝ) (n : Nat) :
    ∑ j ∈ Finset.range n, get (column :: S) 0 (j + 1) * z.getD j 0 + get (column :: S) 0 0 *
      ((c / pivot - ∑ j ∈ Finset.range n, coefficient below j * z.getD j 0) / pivot) = c := by
  set t := ∑ j ∈ Finset.range n, coefficient below j * z.getD j 0 with known
  have row : ∑ j ∈ Finset.range n, get (column :: S) 0 (j + 1) * z.getD j 0 = pivot * t := by
    rw [known, Finset.mul_sum]
    apply Finset.sum_congr rfl
    intro j _
    rw [get_zero_succ, entry]
    ring
  rw [row, get_zero_zero, ← square]
  calc
    pivot * t + pivot * pivot * ((c / pivot - t) / pivot) = pivot * (c / pivot) := by field_simp; ring
    _ = c := by field_simp

/-- A later row of the system from its row after the first column is taken off. -/
theorem later_row (positive : 0 < pivot) (entry : ∀ j, coefficient column.below j = pivot * coefficient below j)
    (length : below.length = S.length) (triangular : S.Triangular) {z : Vec ℝ} {i : Nat} {x y : ℝ}
    (reduced : ∑ j ∈ Finset.range S.length, (downdate below S).get i j * z.getD j 0 = x - coefficient below i * y) :
    ∑ j ∈ Finset.range S.length, get (column :: S) (i + 1) (j + 1) * z.getD j 0 + get (column :: S) (i + 1) 0 *
      ((y - ∑ j ∈ Finset.range S.length, coefficient below j * z.getD j 0) / pivot) = x := by
  set t := ∑ j ∈ Finset.range S.length, coefficient below j * z.getD j 0 with known
  have row : ∑ j ∈ Finset.range S.length, (downdate below S).get i j * z.getD j 0 =
      ∑ j ∈ Finset.range S.length, get S i j * z.getD j 0 - coefficient below i * t := by
    rw [known, Finset.mul_sum, ← Finset.sum_sub_distrib]
    apply Finset.sum_congr rfl
    intro j _
    rw [get_downdate length triangular]
    ring
  have whole : ∑ j ∈ Finset.range S.length, get S i j * z.getD j 0 =
      x - coefficient below i * y + coefficient below i * t := by
    rw [← reduced, row]
    ring
  simp only [get_succ_succ, get_succ_zero, entry, whole]
  field_simp
  ring

end Rows

/-- The factorization of a matrix with positive pivots gives the solution of its systems. -/
theorem solve_spec {S : Symmetric ℝ} {L : Cholesky ℝ} {b : Vec ℝ} (triangular : S.Triangular)
    (factored : S.cholesky? = some L) (length : b.length = S.length) :
    (L.solve b).length = S.length ∧ ∀ i < S.length,
      ∑ j ∈ Finset.range S.length, S.get i j * (L.solve b).getD j 0 = b.getD i 0 := by
  -- on the number of columns: the first one is taken off and a smaller matrix is left
  induction size : S.length generalizing S L b with
  | zero =>
      obtain rfl := List.length_eq_zero_iff.mp size
      rw [cholesky?] at factored
      obtain rfl := Option.some.inj factored
      simp [solve]
  | succ n ih =>
      obtain ⟨column, S, rfl⟩ := List.exists_cons_of_length_eq_add_one size
      obtain ⟨c, b, rfl⟩ := List.exists_cons_of_length_eq_add_one (length.trans size)
      obtain ⟨first, later⟩ := triangular
      obtain rfl : S.length = n := by simpa using size
      have short : b.length = S.length := by simpa using length
      obtain ⟨positive, rest, found, rfl⟩ := cholesky_cons factored
      set d := column.diagonal.getD 0 with diagonal
      set below := column.below.map (·.map (· / √d)) with quotients
      have root : 0 < √d := Real.sqrt_pos.mpr positive
      have square : √d * √d = column.diagonal.getD 0 := Real.mul_self_sqrt positive.le
      have sizes : below.length = S.length := by simp [quotients, first]
      have entry (j : Nat) : coefficient column.below j = √d * coefficient below j := by
        rw [quotients, coefficient_quotient]
        field_simp
      set reduced := List.zipWith (fun x entry => (entry.map (x - · * (c / √d))).getD x) b below with constants
      have count : reduced.length = S.length := by simp [constants, short, sizes]
      obtain ⟨known, system⟩ := ih (downdate_triangular sizes later) found
        (count.trans (length_downdate below S).symm) (length_downdate below S)
      rw [solve_cons (z := rest.solve reduced) rfl (sizes.trans known.symm), known]
      constructor
      · rw [List.length_cons, known]
      · intro i inside
        rw [Finset.sum_range_succ']
        simp only [List.getD_cons_succ, List.getD_cons_zero]
        cases i with
        | zero => exact first_row root square entry _ c S.length
        | succ i =>
            have equation := system i (by omega)
            rw [constants, getD_eliminated _ _ _ _ (sizes.trans short.symm)] at equation
            exact later_row root entry sizes later equation

end Cholesky

end GraduatedFit
