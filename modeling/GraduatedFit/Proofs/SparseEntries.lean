import GraduatedFit.Proofs.SparseGram

/-! The entries of a sparse matrix whose values are listed by their positions. -/

namespace GraduatedFit

/-- A family of lists of which at most one is not empty. -/
theorem flatMap_range_single {α : Type} {n k : Nat} {xs : Nat → List α} (only : ∀ i < n, i ≠ k → xs i = []) :
    (List.range n).flatMap xs = if k < n then xs k else [] := by
  induction n with
  | zero => rfl
  | succ n ih =>
      rw [List.range_succ, List.flatMap_append, List.flatMap_singleton, ih fun i below => only i (by omega)]
      rcases Nat.lt_trichotomy k n with before | rfl | after
      · rw [if_pos before, if_pos (by omega), only n (by omega) (by omega), List.append_nil]
      · rw [if_neg (Nat.lt_irrefl _), if_pos (by omega), List.nil_append]
      · rw [if_neg (by omega), if_neg (by omega), only n (by omega) (by omega), List.append_nil]

section Sums

variable {K : Type} [Scalar K]

/-- Numbers added to the first of them one after the other; no numbers add up to zero. -/
def addUp : List K → K
  | [] => 0
  | x :: xs => xs.foldl (· + ·) x

@[simp]
theorem addUp_real (xs : List ℝ) : addUp xs = xs.sum := by
  cases xs with
  | nil => rfl
  | cons x xs => rw [addUp, List.sum_eq_foldl, List.foldl_cons, zero_add]

end Sums

namespace SparseVec

variable {K : Type} [Scalar K]

/-- A value that is accumulated is stored, or added to what is stored at its position. -/
theorem get_accumulate (position : Nat) (value : K) {v : SparseVec K} (increasing : v.Increasing) (p : Nat) :
    (accumulate position value v).get p =
      if p = position then if position ∈ support v then v.get position + value else value else v.get p := by
  induction v with
  | nil => simp [accumulate, get_cons, support]
  | cons head v ih =>
      obtain ⟨q, x⟩ := head
      rw [accumulate]
      split
      · rename_i before
        have absent : position ∉ support ((q, x) :: v) := by
          intro stored
          rcases List.mem_cons.mp stored with same | later
          · omega
          · have := increasing.head_lt later
            omega
        rw [get_cons, if_neg absent]
      · split
        · rename_i same
          have stored : position ∈ support ((q, x) :: v) := by simp [support, same]
          rw [if_pos stored, get_cons, get_cons, get_cons, same, if_pos rfl]
          by_cases here : p = q
          · rw [if_pos here, if_pos here]
          · rw [if_neg here, if_neg here, if_neg here]
        · rename_i after different
          have later : position ∈ support ((q, x) :: v) ↔ position ∈ support v := by simp [support, different]
          rw [get_cons, get_cons, get_cons, if_neg different, ih increasing.tail]
          simp only [later]
          by_cases here : p = q
          · have other : p ≠ position := by omega
            rw [if_pos here, if_pos here, if_neg other]
          · rw [if_neg here, if_neg here]

end SparseVec

namespace SparseMat

section Filled

variable {K : Type}

/-- The values that are listed for a position, in order. -/
def valuesAt (entries : List ((Nat × Nat) × K)) (i j : Nat) : List K :=
  (entries.filter (·.1 == (i, j))).map Prod.snd

@[simp]
theorem valuesAt_nil (i j : Nat) : valuesAt ([] : List ((Nat × Nat) × K)) i j = [] := rfl

@[simp]
theorem valuesAt_append (first second : List ((Nat × Nat) × K)) (i j : Nat) :
    valuesAt (first ++ second) i j = valuesAt first i j ++ valuesAt second i j := by
  simp [valuesAt]

theorem valuesAt_flatMap {α : Type} (xs : List α) (entries : α → List ((Nat × Nat) × K)) (i j : Nat) :
    valuesAt (xs.flatMap entries) i j = xs.flatMap fun x => valuesAt (entries x) i j := by
  simp [valuesAt, List.filter_flatMap, List.map_flatMap]

theorem valuesAt_eq_nil {entries : List ((Nat × Nat) × K)} {i j : Nat} (absent : ∀ e ∈ entries, e.1 ≠ (i, j)) :
    valuesAt entries i j = [] := by
  rw [valuesAt, List.map_eq_nil_iff, List.filter_eq_nil_iff]
  intro e member same
  exact absent e member (beq_iff_eq.mp same)

/-- The entries of a dense block row by row, from a first row and a first column on. -/
def denseBlock (row column rows columns : Nat) (entry : Nat → Nat → K) : List ((Nat × Nat) × K) :=
  (List.range rows).flatMap fun i => (List.range columns).map fun j => ((row + i, column + j), entry i j)

theorem valuesAt_row (row column columns : Nat) (entry : Nat → K) (p q : Nat) :
    valuesAt ((List.range columns).map fun j => ((row, column + j), entry j)) p q =
      if row = p ∧ column ≤ q ∧ q < column + columns then [entry (q - column)] else [] := by
  have single (j : Nat) : valuesAt [((row, column + j), entry j)] p q =
      if row = p ∧ column + j = q then [entry j] else [] := by
    by_cases here : row = p ∧ column + j = q
    · simp [valuesAt, here]
    · simp [valuesAt, here]
  have elsewhere : ∀ j < columns, j ≠ q - column → valuesAt [((row, column + j), entry j)] p q = [] := by
    intro j inside other
    rw [single, if_neg (by omega)]
  rw [List.map_eq_flatMap, valuesAt_flatMap, flatMap_range_single elsewhere, single, ← ite_and]
  apply if_congr ?_ rfl rfl
  omega

/-- A dense block has one value at each place inside of it. -/
theorem valuesAt_denseBlock (row column rows columns : Nat) (entry : Nat → Nat → K) (p q : Nat) :
    valuesAt (denseBlock row column rows columns entry) p q =
      if (row ≤ p ∧ p < row + rows) ∧ column ≤ q ∧ q < column + columns then
        [entry (p - row) (q - column)] else [] := by
  have elsewhere : ∀ i < rows, i ≠ p - row →
      valuesAt ((List.range columns).map fun j => ((row + i, column + j), entry i j)) p q = [] := by
    intro i inside other
    rw [valuesAt_row, if_neg (by omega)]
  rw [denseBlock, valuesAt_flatMap, flatMap_range_single elsewhere, valuesAt_row, ← ite_and]
  apply if_congr ?_ rfl rfl
  omega

theorem get_fold [Scalar K] (entries : List ((Nat × Nat) × K)) {column : SparseVec K}
    (increasing : column.Increasing) (p : Nat) :
    let values := (entries.filter (·.1.1 == p)).map Prod.snd
    SparseVec.get (entries.foldl (fun column e => SparseVec.accumulate e.1.1 e.2 column) column) p =
      if p ∈ column.support then values.foldl (· + ·) (column.get p) else addUp values := by
  induction entries generalizing column with
  | nil =>
      intro values
      split
      · rfl
      · rename_i absent
        exact SparseVec.get_absent absent
  | cons e entries ih =>
      intro values
      rw [List.foldl_cons, ih (SparseVec.accumulate_increasing increasing), SparseVec.get_accumulate _ _ increasing,
        if_congr SparseVec.mem_support_accumulate rfl rfl]
      by_cases here : p = e.1.1
      · have first : values = e.2 :: (entries.filter (·.1.1 == p)).map Prod.snd := by simp [values, here]
        rw [first, if_pos (.inl here), if_pos here, here]
        split <;> rfl
      · have rest : values = (entries.filter (·.1.1 == p)).map Prod.snd := by simp [values, Ne.symm here]
        rw [rest, if_neg here]
        simp only [here, false_or]

/-- An entry is what its values add up to. -/
theorem get_ofEntries [Scalar K] (height width : Nat) (entries : List ((Nat × Nat) × K)) (i j : Nat) :
    (ofEntries height width entries).get i j = if j < width then addUp (valuesAt entries i j) else 0 := by
  rw [get, ofEntries, List.getD_eq_getElem?_getD, List.getElem?_map]
  split
  · rename_i inside
    have empty : i ∉ SparseVec.support ([] : SparseVec K) := List.not_mem_nil
    have filtered : (entries.filter (·.1.2 == j)).filter (·.1.1 == i) = entries.filter (·.1 == (i, j)) := by
      rw [List.filter_filter]
      apply List.filter_congr
      intro e _
      rfl
    rw [List.getElem?_range inside, Option.map_some, Option.getD_some, get_fold _ List.Pairwise.nil, if_neg empty,
      filtered]
    rfl
  · rename_i outside
    rw [List.getElem?_eq_none (by simpa using outside)]
    rfl

end Filled

/-- A weighted sum over the entries of a matrix is a weighted sum over the values that it is filled with. -/
theorem sum_ofEntries {height width rows : Nat} {entries : List ((Nat × Nat) × ℝ)}
    (inside : ∀ e ∈ entries, e.1.1 < rows ∧ e.1.2 < width) (weight : Nat → Nat → ℝ) :
    ∑ i ∈ Finset.range rows, ∑ j ∈ Finset.range width, (ofEntries height width entries).get i j * weight i j =
      (entries.map fun e => e.2 * weight e.1.1 e.1.2).sum := by
  have entry (i j : Nat) (member : j ∈ Finset.range width) :
      (ofEntries height width entries).get i j = (valuesAt entries i j).sum := by
    rw [get_ofEntries, if_pos (Finset.mem_range.mp member), addUp_real]
  rw [Finset.sum_congr rfl fun i _ => Finset.sum_congr rfl fun j member => by rw [entry i j member]]
  clear entry
  induction entries with
  | nil => simp [valuesAt]
  | cons e entries ih =>
      obtain ⟨⟨row, column⟩, value⟩ := e
      obtain ⟨below, left⟩ := inside _ (.head _)
      have first (i j : Nat) : (valuesAt (((row, column), value) :: entries) i j).sum =
          (if row = i ∧ column = j then value else 0) + (valuesAt entries i j).sum := by
        by_cases here : row = i ∧ column = j
        · simp [valuesAt, here]
        · simp [valuesAt, here]
      simp only [first, add_mul, Finset.sum_add_distrib, List.map_cons, List.sum_cons]
      rw [ih fun e member => inside e (.tail _ member)]
      simp [ite_and, below, left]

theorem sum_map_range (f : Nat → ℝ) (n : Nat) : ((List.range n).map f).sum = ∑ i ∈ Finset.range n, f i := by
  induction n with
  | zero => rfl
  | succ n ih => rw [List.sum_range_succ, Finset.sum_range_succ, ih]

/-- A sum over the entries of a dense block, row by row. -/
theorem sum_denseBlock (row column rows columns : Nat) (entry : Nat → Nat → ℝ) (f : (Nat × Nat) × ℝ → ℝ) :
    ((denseBlock row column rows columns entry).map f).sum =
      ∑ i ∈ Finset.range rows, ∑ j ∈ Finset.range columns, f ((row + i, column + j), entry i j) := by
  rw [denseBlock, List.map_flatMap, List.flatMap_def, List.sum_flatten, List.map_map, sum_map_range]
  apply Finset.sum_congr rfl
  intro i _
  rw [Function.comp_apply, List.map_map, sum_map_range]
  rfl

end SparseMat

end GraduatedFit
