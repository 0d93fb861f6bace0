import GraduatedFit.Proofs.Cholesky
import GraduatedFit.Sparse

/-! What a sparse matrix stores, and the entries of its Gram matrix. -/

namespace GraduatedFit

open GraduatedFit.Symmetric

namespace SparseVec

section Stored

variable {K : Type}

/-- The positions that are stored. -/
def support (v : SparseVec K) : List Nat := v.map Prod.fst

/-- Positions are stored in increasing order. -/
def Increasing (v : SparseVec K) : Prop := v.Pairwise fun a b => a.1 < b.1

theorem Increasing.tail {head : Nat × K} {v : SparseVec K} (increasing : Increasing (head :: v)) :
    Increasing v := (List.pairwise_cons.mp increasing).2

theorem Increasing.head_lt {q : Nat} {x : K} {v : SparseVec K} (increasing : Increasing ((q, x) :: v))
    {p : Nat} (member : p ∈ v.support) : q < p := by
  obtain ⟨e, stored, rfl⟩ := List.mem_map.mp member
  exact (List.pairwise_cons.mp increasing).1 e stored

theorem support_eq_cons {p : Nat} {x : K} {v w : SparseVec K} (same : support ((p, x) :: v) = w.support) :
    ∃ (y : K) (rest : SparseVec K), w = (p, y) :: rest ∧ v.support = rest.support := by
  cases w with
  | nil => cases same
  | cons other rest =>
      obtain ⟨q, y⟩ := other
      simp only [support, List.map_cons, List.cons.injEq] at same
      obtain ⟨rfl, tail⟩ := same
      exact ⟨y, rest, rfl, tail⟩

variable [Scalar K]

@[simp]
theorem get_nil (p : Nat) : get ([] : SparseVec K) p = 0 := rfl

theorem get_cons (q : Nat) (x : K) (v : SparseVec K) (p : Nat) :
    get ((q, x) :: v) p = if p = q then x else get v p := by
  unfold get
  rw [List.lookup_cons]
  by_cases same : p = q
  · simp [same]
  · rw [beq_false_of_ne same, if_neg same]

theorem get_absent {v : SparseVec K} {p : Nat} (absent : p ∉ v.support) : v.get p = 0 := by
  induction v with
  | nil => rfl
  | cons head v ih =>
      obtain ⟨q, x⟩ := head
      simp only [support, List.map_cons, List.mem_cons, not_or] at absent
      rw [get_cons, if_neg absent.1]
      exact ih absent.2

theorem Increasing.get_below {q : Nat} {x : K} {v : SparseVec K}
    (increasing : Increasing ((q, x) :: v)) {p : Nat} (below : p ≤ q) : v.get p = 0 := by
  apply get_absent
  intro member
  have := increasing.head_lt member
  omega

theorem mem_support_accumulate {position : Nat} {value : K} {v : SparseVec K} {p : Nat} :
    p ∈ (accumulate position value v).support ↔ p = position ∨ p ∈ v.support := by
  induction v with
  | nil => simp [accumulate, support]
  | cons head v ih =>
      obtain ⟨q, x⟩ := head
      rw [accumulate]
      split
      · simp [support]
      · split
        · rename_i same
          simp [support, same]
        · simp only [support, List.map_cons, List.mem_cons] at ih ⊢
          rw [ih]
          tauto

theorem accumulate_increasing {position : Nat} {value : K} {v : SparseVec K}
    (increasing : v.Increasing) : (accumulate position value v).Increasing := by
  induction v with
  | nil => exact List.pairwise_singleton _ _
  | cons head v ih =>
      obtain ⟨q, x⟩ := head
      rw [accumulate]
      split
      · rename_i before
        refine List.pairwise_cons.mpr ⟨fun e member => ?_, increasing⟩
        rcases List.mem_cons.mp member with rfl | member
        · exact before
        · exact before.trans (increasing.head_lt (List.mem_map_of_mem member))
      · split
        · exact List.pairwise_cons.mpr ⟨(List.pairwise_cons.mp increasing).1, increasing.tail⟩
        · rename_i after different
          refine List.pairwise_cons.mpr ⟨fun e member => ?_, ih increasing.tail⟩
          rcases mem_support_accumulate.mp (List.mem_map_of_mem member) with same | stored
          · rw [same]
            show q < position
            omega
          · exact increasing.head_lt stored

/-- Which positions are stored after an accumulation does not depend on the values. -/
theorem support_accumulate {position : Nat} {x y : K} {v w : SparseVec K} (same : v.support = w.support) :
    (accumulate position x v).support = (accumulate position y w).support := by
  induction v generalizing w with
  | nil =>
      obtain rfl : w = [] := List.map_eq_nil_iff.mp same.symm
      rfl
  | cons head v ih =>
      obtain ⟨p, s⟩ := head
      obtain ⟨t, w, rfl, rest⟩ := support_eq_cons same
      rw [accumulate, accumulate]
      split
      · simpa [support] using rest
      · split
        · simpa [support] using rest
        · simpa [support] using ih rest

/-- How many positions two vectors share does not depend on the values. -/
theorem length_products {v w v' w' : SparseVec K} (left : v.support = v'.support) (right : w.support = w'.support) :
    (products v w).length = (products v' w').length := by
  induction v, w using products.induct generalizing v' w' with
  | case1 w =>
      obtain rfl : v' = [] := List.map_eq_nil_iff.mp left.symm
      simp [products]
  | case2 v nonempty =>
      obtain rfl : w' = [] := List.map_eq_nil_iff.mp right.symm
      cases v <;> cases v' <;> simp [products]
  | case3 i x v j y w before ih =>
      obtain ⟨x', v', rfl, tail⟩ := support_eq_cons left
      obtain ⟨y', w', rfl, -⟩ := support_eq_cons right
      rw [products, products, if_pos before, if_pos before]
      exact ih tail right
  | case4 i x v j y w after before ih =>
      obtain ⟨x', v', rfl, -⟩ := support_eq_cons left
      obtain ⟨y', w', rfl, tail⟩ := support_eq_cons right
      rw [products, products, if_neg after, if_neg after, if_pos before, if_pos before]
      exact ih left tail
  | case5 i x v j y w after before ih =>
      obtain ⟨x', v', rfl, first⟩ := support_eq_cons left
      obtain ⟨y', w', rfl, second⟩ := support_eq_cons right
      rw [products, products, if_neg after, if_neg after, if_neg before, if_neg before,
        List.length_cons, List.length_cons, ih first second]

theorem isSome_overlap {v w v' w' : SparseVec K} (left : v.support = v'.support) (right : w.support = w'.support) :
    (v.overlap w).isSome = (v'.overlap w').isSome := by
  have count := length_products left right
  unfold overlap
  cases first : products v w with
  | nil =>
      rw [first] at count
      rw [List.length_eq_zero_iff.mp count.symm]
  | cons x xs =>
      rw [first] at count
      obtain ⟨y, ys, second⟩ := List.exists_cons_of_length_eq_add_one count.symm
      rw [second]
      rfl

end Stored

/-- The products at the positions that two vectors share, summed over any range that has them. -/
theorem sum_products {v w : SparseVec ℝ} (left : v.Increasing) (right : w.Increasing) {m : Nat}
    (below : ∀ p ∈ v.support, p < m) :
    (products v w).sum = ∑ p ∈ Finset.range m, v.get p * w.get p := by
  -- on the merge of the two vectors: only a position that both store counts
  induction v, w using products.induct with
  | case1 w => simp [products]
  | case2 v nonempty => cases v <;> simp [products]
  | case3 i x v j y w before ih =>
      rw [products, if_pos before, ih left.tail right fun p member => below p (.tail _ member)]
      apply Finset.sum_congr rfl
      intro p _
      rw [get_cons i]
      by_cases here : p = i
      · have absent : get ((j, y) :: w) p = 0 := by
          rw [get_cons, if_neg (by omega), right.get_below (by omega)]
        simp [absent]
      · rw [if_neg here]
  | case4 i x v j y w after before ih =>
      rw [products, if_neg after, if_pos before, ih left right.tail below]
      apply Finset.sum_congr rfl
      intro p _
      rw [get_cons j]
      by_cases here : p = j
      · have absent : get ((i, x) :: v) p = 0 := by
          rw [get_cons, if_neg (by omega), left.get_below (by omega)]
        simp [absent]
      · rw [if_neg here]
  | case5 i x v j y w after before ih =>
      obtain rfl : i = j := by omega
      have inside : i ∈ Finset.range m := Finset.mem_range.mpr (below i (.head _))
      rw [products, if_neg after, if_neg before, List.sum_cons,
        ih left.tail right.tail fun p member => below p (.tail _ member),
        ← Finset.add_sum_erase _ _ inside, ← Finset.add_sum_erase _ _ inside,
        left.get_below le_rfl, get_cons, get_cons, if_pos rfl, if_pos rfl]
      simp only [zero_mul, zero_add, add_right_inj]
      apply Finset.sum_congr rfl
      intro p member
      have other := Finset.ne_of_mem_erase member
      rw [get_cons, get_cons, if_neg other, if_neg other]

theorem overlap_getD (v w : SparseVec ℝ) : (v.overlap w).getD 0 = (products v w).sum := by
  unfold overlap
  cases products v w <;> simp

end SparseVec

namespace SparseMat

section Shape

variable {K : Type}

/-- The positions that are stored, column by column. -/
def support (J : SparseMat K) : List (List Nat) := J.columns.map SparseVec.support

/-- Every column stores increasing positions within the height. -/
structure WellFormed (J : SparseMat K) : Prop where
  increasing : ∀ column ∈ J.columns, SparseVec.Increasing column
  below : ∀ column ∈ J.columns, ∀ p ∈ SparseVec.support column, p < J.height

theorem filter_positions {entries entries' : List ((Nat × Nat) × K)} (c : Nat)
    (same : entries.map Prod.fst = entries'.map Prod.fst) :
    (entries.filter (·.1.2 == c)).map Prod.fst = (entries'.filter (·.1.2 == c)).map Prod.fst := by
  have split (es : List ((Nat × Nat) × K)) :
      (es.filter (·.1.2 == c)).map Prod.fst = (es.map Prod.fst).filter (·.2 == c) := by
    rw [List.filter_map]
    rfl
  rw [split, split, same]

variable [Scalar K]

theorem fold_increasing (entries : List ((Nat × Nat) × K)) {column : SparseVec K}
    (increasing : column.Increasing) :
    (entries.foldl (fun column e => SparseVec.accumulate e.1.1 e.2 column) column).Increasing := by
  induction entries generalizing column with
  | nil => exact increasing
  | cons e entries ih => exact ih (SparseVec.accumulate_increasing increasing)

theorem mem_fold {entries : List ((Nat × Nat) × K)} {column : SparseVec K} {p : Nat} :
    p ∈ SparseVec.support (entries.foldl (fun column e => SparseVec.accumulate e.1.1 e.2 column) column) ↔
      p ∈ column.support ∨ ∃ e ∈ entries, e.1.1 = p := by
  induction entries generalizing column with
  | nil => simp
  | cons e entries ih =>
      rw [List.foldl_cons, ih, SparseVec.mem_support_accumulate]
      simp only [List.mem_cons, exists_eq_or_imp, eq_comm (a := p)]
      tauto

theorem ofEntries_wellFormed {height width : Nat} {entries : List ((Nat × Nat) × K)}
    (below : ∀ e ∈ entries, e.1.1 < height) : (ofEntries height width entries).WellFormed where
  increasing column member := by
    obtain ⟨c, -, rfl⟩ := List.mem_map.mp member
    exact fold_increasing _ List.Pairwise.nil
  below column member p stored := by
    obtain ⟨c, -, rfl⟩ := List.mem_map.mp member
    rcases mem_fold.mp stored with none | ⟨e, present, rfl⟩
    · cases none
    · exact below e (List.mem_of_mem_filter present)

theorem fold_support {entries entries' : List ((Nat × Nat) × K)} {column column' : SparseVec K}
    (same : entries.map Prod.fst = entries'.map Prod.fst) (start : column.support = column'.support) :
    SparseVec.support (entries.foldl (fun column e => SparseVec.accumulate e.1.1 e.2 column) column) =
      SparseVec.support (entries'.foldl (fun column e => SparseVec.accumulate e.1.1 e.2 column) column') := by
  induction entries generalizing entries' column column' with
  | nil =>
      obtain rfl : entries' = [] := List.map_eq_nil_iff.mp same.symm
      exact start
  | cons e entries ih =>
      obtain ⟨e', entries', rfl⟩ : ∃ e' rest, entries' = e' :: rest :=
        List.exists_cons_of_ne_nil (by rintro rfl; cases same)
      simp only [List.map_cons, List.cons.injEq] at same
      have next : (SparseVec.accumulate e.1.1 e.2 column).support =
          (SparseVec.accumulate e'.1.1 e'.2 column').support := by
        rw [same.1]
        exact SparseVec.support_accumulate start
      have rest := ih same.2 next
      exact rest

/-- What is stored depends on the positions of the entries only. -/
theorem ofEntries_support {height width : Nat} {entries entries' : List ((Nat × Nat) × K)}
    (same : entries.map Prod.fst = entries'.map Prod.fst) :
    (ofEntries height width entries).support = (ofEntries height width entries').support := by
  simp only [support, ofEntries, List.map_map]
  apply List.map_congr_left
  intro c _
  exact fold_support (filter_positions c same) rfl

@[simp]
theorem length_gramOf (columns : List (SparseVec K)) : (gramOf columns).length = columns.length := by
  induction columns with
  | nil => rfl
  | cons column columns ih => simp [gramOf, ih]

theorem map_overlap {column column' : SparseVec K} {columns columns' : List (SparseVec K)}
    (first : column.support = column'.support)
    (same : columns.map SparseVec.support = columns'.map SparseVec.support) :
    columns.map (fun c => (column.overlap c).isSome) = columns'.map fun c => (column'.overlap c).isSome := by
  induction columns generalizing columns' with
  | nil =>
      obtain rfl : columns' = [] := List.map_eq_nil_iff.mp same.symm
      rfl
  | cons c columns ih =>
      obtain ⟨c', columns', rfl⟩ : ∃ c' rest, columns' = c' :: rest :=
        List.exists_cons_of_ne_nil (by rintro rfl; cases same)
      simp only [List.map_cons, List.cons.injEq] at same ⊢
      exact ⟨SparseVec.isSome_overlap first same.1, ih same.2⟩

/-- The shape of a damped Gram matrix depends on what the Jacobian stores only. -/
theorem gramOf_shape {columns columns' : List (SparseVec K)} (x y : K)
    (same : columns.map SparseVec.support = columns'.map SparseVec.support) :
    ((gramOf columns).addDiagonal x).shape = ((gramOf columns').addDiagonal y).shape := by
  induction columns generalizing columns' with
  | nil =>
      obtain rfl : columns' = [] := List.map_eq_nil_iff.mp same.symm
      rfl
  | cons column columns ih =>
      obtain ⟨column', columns', rfl⟩ : ∃ c rest, columns' = c :: rest :=
        List.exists_cons_of_ne_nil (by rintro rfl; cases same)
      simp only [List.map_cons, List.cons.injEq] at same
      have entries := map_overlap same.1 same.2
      have rest := ih same.2
      simp only [Symmetric.shape, Symmetric.addDiagonal] at rest
      simp [Symmetric.shape, Symmetric.addDiagonal, gramOf, Function.comp_def, entries, rest]

theorem scaleColumns_support {factors : Vec K} {J : SparseMat K} (length : factors.length = J.columns.length) :
    (J.scaleColumns factors).support = J.support := by
  unfold support scaleColumns
  rw [List.map_zipWith]
  refine List.ext_getElem (by simp [length]) fun i _ _ => ?_
  simp [SparseVec.support, Function.comp_def]

theorem scaleColumns_wellFormed {factors : Vec K} {J : SparseMat K} (formed : J.WellFormed) :
    (J.scaleColumns factors).WellFormed := by
  have unscaled {column : SparseVec K} (member : column ∈ (J.scaleColumns factors).columns) :
      ∃ s, ∃ original ∈ J.columns, column = original.map fun e => (e.1, e.2 * s) := by
    obtain ⟨i, inside, rfl⟩ := List.mem_iff_getElem.mp member
    simp only [scaleColumns, List.getElem_zipWith]
    exact ⟨_, _, List.getElem_mem _, rfl⟩
  constructor
  · intro column member
    obtain ⟨s, original, present, rfl⟩ := unscaled member
    exact List.pairwise_map.mpr (formed.increasing original present)
  · intro column member p stored
    obtain ⟨s, original, present, rfl⟩ := unscaled member
    apply formed.below original present p
    simpa [SparseVec.support, Function.comp_def] using stored

end Shape

theorem overlap_sum {v w : SparseVec ℝ} (left : v.Increasing) (right : w.Increasing) {m : Nat}
    (below : ∀ p ∈ v.support, p < m) :
    (v.overlap w).getD 0 = ∑ p ∈ Finset.range m, v.get p * w.get p := by
  rw [SparseVec.overlap_getD, SparseVec.sum_products left right below]

/-- The entries of the Gram matrix are the inner products of the columns. -/
theorem get_gramOf {columns : List (SparseVec ℝ)} {m : Nat}
    (increasing : ∀ column ∈ columns, SparseVec.Increasing column)
    (below : ∀ column ∈ columns, ∀ p ∈ SparseVec.support column, p < m) (i j : Nat)
    (row : i < columns.length) (column : j < columns.length) :
    (gramOf columns).get i j =
      ∑ p ∈ Finset.range m, SparseVec.get (columns.getD i []) p * SparseVec.get (columns.getD j []) p := by
  induction columns generalizing i j with
  | nil => cases row
  | cons c columns ih =>
      have first := increasing c (.head _)
      have inside := below c (.head _)
      have later (k : Nat) (bound : k < columns.length) :
          ((c.overlap (columns.getD k [])).getD 0 =
            ∑ p ∈ Finset.range m, c.get p * SparseVec.get (columns.getD k []) p) := by
        refine overlap_sum first (increasing _ (.tail _ ?_)) inside
        rw [List.getD_eq_getElem _ _ bound]
        exact List.getElem_mem _
      cases i with
      | zero =>
          cases j with
          | zero => simpa [gramOf] using overlap_sum first first inside
          | succ j =>
              have bound : j < columns.length := by simpa using column
              rw [gramOf, get_zero_succ, coefficient_map _ _ [] _ bound, later j bound]
              simp
      | succ i =>
          have bound : i < columns.length := by simpa using row
          cases j with
          | zero =>
              rw [gramOf, get_succ_zero, coefficient_map _ _ [] _ bound, later i bound]
              simp [mul_comm]
          | succ j =>
              rw [gramOf, get_succ_succ, ih (fun c member => increasing c (.tail _ member))
                (fun c member => below c (.tail _ member)) i j bound (by simpa using column)]
              simp

theorem get_gram {J : SparseMat ℝ} (formed : J.WellFormed) (i j : Nat)
    (row : i < J.width) (column : j < J.width) :
    J.gram.get i j = ∑ p ∈ Finset.range J.height, J.get p i * J.get p j :=
  get_gramOf formed.increasing formed.below i j row column

/-- Damping adds to the diagonal. -/
theorem get_addDiagonal (S : Symmetric ℝ) (x : ℝ) (i j : Nat) (inside : i < S.length) :
    (S.addDiagonal x).get i j = S.get i j + if i = j then x else 0 := by
  induction S generalizing i j with
  | nil => cases inside
  | cons column S ih =>
      cases i with
      | zero => cases j <;> simp [addDiagonal]
      | succ i =>
          cases j with
          | zero => simp [addDiagonal]
          | succ j =>
              have rest := ih i j (by simpa using inside)
              simpa [addDiagonal] using rest

/-- A row of a matrix with something on its diagonal, applied to a vector. -/
theorem addDiagonal_apply (S : Symmetric ℝ) (x : ℝ) (v : Nat → ℝ) {i : Nat} (inside : i < S.length) :
    ∑ j ∈ Finset.range S.length, (S.addDiagonal x).get i j * v j =
      ∑ j ∈ Finset.range S.length, S.get i j * v j + x * v i := by
  have split (j : Nat) : (S.addDiagonal x).get i j * v j = S.get i j * v j + if i = j then x * v j else 0 := by
    rw [get_addDiagonal _ _ _ _ inside]
    split <;> ring
  simp only [split, Finset.sum_add_distrib, Finset.sum_ite_eq, Finset.mem_range, inside, if_true]

/-- Half a Gram matrix is positive: its form is the squared norm of the image. -/
theorem gram_form {J : SparseMat ℝ} (formed : J.WellFormed) (x : Nat → ℝ) :
    ∑ i ∈ Finset.range J.width, x i * ∑ j ∈ Finset.range J.width, J.gram.get i j * x j =
      ∑ p ∈ Finset.range J.height, (∑ i ∈ Finset.range J.width, J.get p i * x i) ^ 2 := by
  calc
    _ = ∑ i ∈ Finset.range J.width, ∑ j ∈ Finset.range J.width, ∑ p ∈ Finset.range J.height,
        (J.get p i * x i) * (J.get p j * x j) := by
      apply Finset.sum_congr rfl
      intro i row
      rw [Finset.mul_sum]
      apply Finset.sum_congr rfl
      intro j column
      rw [get_gram formed i j (Finset.mem_range.mp row) (Finset.mem_range.mp column),
        Finset.sum_mul, Finset.mul_sum]
      apply Finset.sum_congr rfl
      intro p _
      ring
    _ = ∑ p ∈ Finset.range J.height, ∑ i ∈ Finset.range J.width, ∑ j ∈ Finset.range J.width,
        (J.get p i * x i) * (J.get p j * x j) := by
      symm
      rw [Finset.sum_comm]
      exact Finset.sum_congr rfl fun i _ => Finset.sum_comm
    _ = _ := by
      apply Finset.sum_congr rfl
      intro p _
      rw [sq, Finset.sum_mul_sum]

end SparseMat

end GraduatedFit
