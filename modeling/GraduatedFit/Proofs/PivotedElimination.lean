import GraduatedFit.Proofs.DenseMatrices

/-! Linear equations by elimination with row exchanges: a solution that is found satisfies them all, and where none is
found the coefficients are dependent. -/

namespace GraduatedFit

namespace Vec

@[simp]
theorem dot_cons (x y : ℝ) (a b : Vec ℝ) : dot (x :: a) (y :: b) = x * y + dot a b := by simp [dot_real]

theorem dot_nil (b : Vec ℝ) : dot [] b = 0 := by simp [dot_real]

/-- The product with a vector from which a multiple of another one was taken off. -/
theorem dot_less (factor : ℝ) {a b : Vec ℝ} (length : a.length = b.length) (x : Vec ℝ) :
    dot (List.zipWith (fun s t => s - factor * t) a b) x = dot a x - factor * dot b x := by
  induction a generalizing b x with
  | nil =>
      obtain rfl := List.length_eq_zero_iff.mp length.symm
      simp [dot_nil]
  | cons s a ih =>
      obtain ⟨t, b, rfl⟩ := List.exists_cons_of_length_eq_add_one length.symm
      cases x with
      | nil => simp [dot_real]
      | cons y x =>
          rw [List.zipWith_cons_cons, dot_cons, dot_cons, dot_cons, ih (by simpa using length)]
          ring

theorem getD_zipWith_zero (f : ℝ → ℝ → ℝ) (zero : f 0 0 = 0) {a b : Vec ℝ} (length : a.length = b.length) (i : Nat) :
    (List.zipWith f a b).getD i 0 = f (a.getD i 0) (b.getD i 0) := by
  simp only [List.getD_eq_getElem?_getD, List.getElem?_zipWith]
  by_cases inside : i < a.length
  · simp [inside, length ▸ inside]
  · simp [List.getElem?_eq_none (not_lt.mp inside), List.getElem?_eq_none (length ▸ not_lt.mp inside), zero]

end Vec

namespace Mat.Equation

open Scalar

/-- An equation in `n` unknowns whose constant side has `m` columns. -/
structure Fits (n m : Nat) (e : Equation ℝ) : Prop where
  unknowns : e.coefficients.length = n
  columns : e.constants.length = m

/-- Rows that satisfy an equation in each column of its constant side. -/
def Holds (rows : List (Vec ℝ)) (e : Equation ℝ) : Prop :=
  ∀ c, Vec.dot e.coefficients (rows.map (·.getD c 0)) = e.constants.getD c 0

section Pivots

/-- The place of the best equation so far, or that of a later one which no equation exceeds. -/
theorem pivotPlace_cases (best : Equation ℝ) (place next : Nat) (rest : List (Equation ℝ)) :
    (pivotPlace best place next rest = place ∧ ∀ e ∈ rest, |e.lead| ≤ |best.lead|) ∨
      ∃ k, ∃ inside : k < rest.length, pivotPlace best place next rest = next + k ∧
        |best.lead| ≤ |rest[k].lead| ∧ ∀ e ∈ rest, |e.lead| ≤ |rest[k].lead| := by
  induction rest generalizing best place next with
  | nil => exact .inl ⟨rfl, by simp⟩
  | cons e rest ih =>
      rw [pivotPlace]
      by_cases larger : |best.lead| < |e.lead|
      · rw [if_pos (by simpa using larger)]
        rcases ih e next (next + 1) with ⟨found, largest⟩ | ⟨k, inside, found, above, largest⟩
        · exact .inr ⟨0, by simp, found, larger.le, by simpa using largest⟩
        · refine .inr ⟨k + 1, by simpa using inside, by omega, larger.le.trans above, ?_⟩
          simpa using ⟨above, largest⟩
      · rw [if_neg (by simpa using larger)]
        have smaller := not_lt.mp larger
        rcases ih best place (next + 1) with ⟨found, largest⟩ | ⟨k, inside, found, above, largest⟩
        · exact .inl ⟨found, by simpa using ⟨smaller, largest⟩⟩
        · refine .inr ⟨k + 1, by simpa using inside, by omega, above, ?_⟩
          simpa using ⟨smaller.trans above, largest⟩

/-- The pivot and the others are the equations in another order, and no equation has a larger leading coefficient. -/
theorem choosePivot_spec (e : Equation ℝ) (rest : List (Equation ℝ)) :
    ((choosePivot e rest).1 :: (choosePivot e rest).2).Perm (e :: rest) ∧
      ∀ e' ∈ e :: rest, |e'.lead| ≤ |(choosePivot e rest).1.lead| := by
  rcases pivotPlace_cases e 0 1 rest with ⟨found, largest⟩ | ⟨k, inside, found, above, largest⟩
  · have chosen : choosePivot e rest = (e, rest) := by rw [choosePivot, found]
    rw [chosen]
    exact ⟨.refl _, by simpa using largest⟩
  · have chosen : choosePivot e rest = (rest[k], rest.set k e) := by
      rw [choosePivot, found, Nat.add_comm 1 k]
      simp only [List.getD_eq_getElem _ _ inside]
    rw [chosen]
    constructor
    · calc
        (rest[k] :: rest.set k e).Perm (rest[k] :: e :: rest.eraseIdx k) := (List.set_perm_cons_eraseIdx inside e).cons _
        List.Perm _ (e :: rest[k] :: rest.eraseIdx k) := .swap _ _ _
        List.Perm _ (e :: rest) := (List.getElem_cons_eraseIdx_perm inside).cons _
    · simpa using ⟨above, largest⟩

end Pivots

section Elimination

variable {n m : Nat} {pivot e : Equation ℝ}

theorem coefficients_cons (fits : e.Fits (n + 1) m) :
    e.coefficients = e.lead :: e.coefficients.tail ∧ e.coefficients.tail.length = n := by
  obtain ⟨x, xs, same⟩ := List.exists_cons_of_length_eq_add_one fits.unknowns
  have length := fits.unknowns
  rw [lead, same] at *
  exact ⟨rfl, by simpa using length⟩

theorem eliminate_fits (first : pivot.Fits (n + 1) m) (fits : e.Fits (n + 1) m) : (eliminate pivot e).Fits n m where
  unknowns := by
    rw [eliminate, List.length_zipWith, (coefficients_cons first).2, (coefficients_cons fits).2, min_self]
  columns := by rw [eliminate, List.length_zipWith, first.columns, fits.columns, min_self]

/-- An equation with its first unknown eliminated, in terms of both equations. -/
theorem dot_eliminate (first : pivot.Fits (n + 1) m) (fits : e.Fits (n + 1) m) (x : Vec ℝ) :
    Vec.dot (eliminate pivot e).coefficients x =
      Vec.dot e.coefficients.tail x - e.lead * (1 / pivot.lead) * Vec.dot pivot.coefficients.tail x :=
  Vec.dot_less _ ((coefficients_cons fits).2.trans (coefficients_cons first).2.symm) x

/-- Subtracting rows from a vector of their length, component by component. -/
theorem subtract_rows (coefficients b : Vec ℝ) {rows : List (Vec ℝ)} (length : coefficients.length = rows.length)
    (wide : ∀ row ∈ rows, row.length = b.length) :
    let known := List.zipWith (fun c row => Vec.scale c row) coefficients rows
    let rest := known.foldr (fun row acc => List.zipWith (· - ·) acc row) b
    rest.length = b.length ∧ ∀ c, rest.getD c 0 = b.getD c 0 - Vec.dot coefficients (rows.map (·.getD c 0)) := by
  induction coefficients generalizing rows with
  | nil =>
      obtain rfl := List.length_eq_zero_iff.mp length.symm
      simp [Vec.dot_nil]
  | cons x coefficients ih =>
      obtain ⟨row, rows, rfl⟩ := List.exists_cons_of_length_eq_add_one length.symm
      obtain ⟨first, later⟩ := List.forall_mem_cons.mp wide
      obtain ⟨size, entries⟩ := ih (by simpa using length) later
      intro known rest
      have scaled : (Vec.scale x row).length = b.length := (List.length_map _).trans first
      refine ⟨by simp only [rest, known, List.zipWith_cons_cons, List.foldr_cons, List.length_zipWith, size, scaled, min_self],
        fun c => ?_⟩
      have entry : (Vec.scale x row).getD c 0 = row.getD c 0 * x := by
        rw [Vec.scale, ← List.getD_map (f := (· * x)), zero_mul]
      simp only [rest, known, List.zipWith_cons_cons, List.foldr_cons, List.map_cons, Vec.dot_cons]
      rw [Vec.getD_zipWith_zero _ (sub_zero 0) (size.trans scaled.symm), entries, entry]
      ring

theorem getD_eliminate (first : pivot.Fits (n + 1) m) (fits : e.Fits (n + 1) m) (c : Nat) :
    (eliminate pivot e).constants.getD c 0 =
      e.constants.getD c 0 - e.lead * (1 / pivot.lead) * pivot.constants.getD c 0 :=
  Vec.getD_zipWith_zero _ (by simp) (fits.columns.trans first.columns.symm) c

theorem holds_cons_iff (fits : e.Fits (n + 1) m) {row : Vec ℝ} {rows : List (Vec ℝ)} : Holds (row :: rows) e ↔
    ∀ c, e.lead * row.getD c 0 + Vec.dot e.coefficients.tail (rows.map (·.getD c 0)) = e.constants.getD c 0 := by
  unfold Holds
  rw [(coefficients_cons fits).1]
  simp

/-- The first unknown from the others satisfies the pivot, and each equation that held without it. -/
theorem backSubstitute_holds {others : List (Vec ℝ)} (first : pivot.Fits (n + 1) m) (nonzero : pivot.lead ≠ 0)
    (length : others.length = n) (wide : ∀ row ∈ others, row.length = m) :
    (backSubstitute pivot others).length = m ∧ Holds (backSubstitute pivot others :: others) pivot ∧
      ∀ e : Equation ℝ, e.Fits (n + 1) m → Holds others (eliminate pivot e) →
        Holds (backSubstitute pivot others :: others) e := by
  have tail := (coefficients_cons first).2
  obtain ⟨size, entries⟩ := subtract_rows pivot.coefficients.tail pivot.constants
    (tail.trans length.symm) fun row member => (wide row member).trans first.columns.symm
  have entry (c : Nat) : (backSubstitute pivot others).getD c 0 =
      (pivot.constants.getD c 0 - Vec.dot pivot.coefficients.tail (others.map (·.getD c 0))) / pivot.lead := by
    rw [← entries c, backSubstitute, ← List.getD_map (f := (· / pivot.lead)), zero_div]
  refine ⟨(List.length_map _).trans (size.trans first.columns), (holds_cons_iff first).mpr fun c => ?_, ?_⟩
  · rw [entry]
    field_simp
    ring
  · intro e fits holds
    refine (holds_cons_iff fits).mpr fun c => ?_
    have eliminated := holds c
    rw [dot_eliminate first fits, getD_eliminate first fits] at eliminated
    rw [entry]
    field_simp at eliminated ⊢
    linarith

end Elimination

section Solutions

variable {n m : Nat}

/-- The first unknown can be chosen so that the pivot has no constant, and then the other equations have none either. -/
theorem dependent_cons {pivot : Equation ℝ} {others : List (Equation ℝ)} (first : pivot.Fits (n + 1) m)
    (nonzero : pivot.lead ≠ 0) (fits : ∀ e ∈ others, e.Fits (n + 1) m) {x : Vec ℝ}
    (dependent : ∀ e ∈ others, Vec.dot (eliminate pivot e).coefficients x = 0) :
    let y := -Vec.dot pivot.coefficients.tail x / pivot.lead
    ∀ e ∈ pivot :: others, Vec.dot e.coefficients (y :: x) = 0 := by
  intro y
  have zero : pivot.lead * y + Vec.dot pivot.coefficients.tail x = 0 := by
    simp only [y]
    field_simp
    ring
  refine List.forall_mem_cons.mpr ⟨?_, fun e member => ?_⟩
  · rw [(coefficients_cons first).1, Vec.dot_cons, zero]
  · have eliminated := dependent e member
    rw [dot_eliminate first (fits e member)] at eliminated
    rw [(coefficients_cons (fits e member)).1, Vec.dot_cons]
    simp only [y]
    field_simp at eliminated ⊢
    linarith

/-- An equation without the first unknown does not tell its values apart. -/
theorem dot_first {e : Equation ℝ} (fits : e.Fits (n + 1) m) (absent : e.lead = 0) :
    Vec.dot e.coefficients (1 :: List.replicate n 0) = 0 := by
  have rest : Vec.dot e.coefficients.tail (List.replicate n 0) = 0 := by
    rw [Vec.dot_eq_range _ _ n (coefficients_cons fits).2 (by simp)]
    exact Finset.sum_eq_zero fun i inside => by simp [Finset.mem_range.mp inside]
  rw [(coefficients_cons fits).1, Vec.dot_cons, absent, rest]
  ring

/-- What elimination answers for equations with as many unknowns: rows that satisfy all of them, or nothing where their
coefficients are dependent. -/
inductive Answers (n m : Nat) (equations : List (Equation ℝ)) : Option (List (Vec ℝ)) → Prop
  | solved {rows : List (Vec ℝ)} (length : rows.length = n) (wide : ∀ row ∈ rows, row.length = m)
      (holds : ∀ e ∈ equations, Holds rows e) : Answers n m equations (some rows)
  | dependent {x : Vec ℝ} (length : x.length = n) (nonzero : ∃ i, x.getD i 0 ≠ 0)
      (vanishes : ∀ e ∈ equations, Vec.dot e.coefficients x = 0) : Answers n m equations none

theorem solve_answers {equations : List (Equation ℝ)} (count : equations.length = n)
    (fits : ∀ e ∈ equations, e.Fits n m) : Answers n m equations (solve? n equations) := by
  -- on the number of unknowns: the first one is eliminated by means of the pivot
  induction n generalizing equations with
  | zero =>
      obtain rfl := List.length_eq_zero_iff.mp count
      exact .solved rfl (by simp) (by simp)
  | succ n ih =>
      obtain ⟨e, rest, rfl⟩ := List.exists_cons_of_length_eq_add_one count
      obtain ⟨perm, largest⟩ := choosePivot_spec e rest
      rw [solve?]
      generalize choosePivot e rest = chosen at perm largest
      obtain ⟨pivot, others⟩ := chosen
      have fits' : ∀ e ∈ pivot :: others, e.Fits (n + 1) m := fun e member => fits e (perm.mem_iff.mp member)
      obtain ⟨first, later⟩ := List.forall_mem_cons.mp fits'
      dsimp only at largest ⊢
      by_cases zero : pivot.lead = 0
      · rw [if_pos (by simpa using zero)]
        -- no equation has the first unknown
        refine .dependent (x := 1 :: List.replicate n 0) (by simp) ⟨0, by simp⟩ fun e member => ?_
        exact dot_first (fits e member) (by simpa [zero] using largest e member)
      · rw [if_neg (by simpa using zero)]
        have answers : Answers n m (others.map (eliminate pivot)) (solve? n (others.map (eliminate pivot))) :=
          ih (by simpa using perm.length_eq.trans count)
            (List.forall_mem_map.mpr fun e member => eliminate_fits first (later e member))
        generalize solve? n (others.map (eliminate pivot)) = found at answers
        cases answers with
        | solved length wide holds =>
            obtain ⟨size, pivoted, substituted⟩ := backSubstitute_holds first zero length wide
            refine .solved (by simp [length]) (List.forall_mem_cons.mpr ⟨size, wide⟩) fun e member => ?_
            rcases List.mem_cons.mp (perm.mem_iff.mpr member) with rfl | other
            · exact pivoted
            · exact substituted e (later e other) (holds _ (List.mem_map_of_mem other))
        | dependent length nonzero vanishes =>
            obtain ⟨i, component⟩ := nonzero
            have vanish := dependent_cons first zero later (List.forall_mem_map.mp vanishes)
            exact .dependent (by simp [length]) ⟨i + 1, component⟩ fun e member => vanish e (perm.mem_iff.mpr member)

end Solutions

end Mat.Equation

end GraduatedFit
