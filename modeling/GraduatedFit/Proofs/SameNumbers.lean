import GraduatedFit.Proofs.PlannedSolve
import GraduatedFit.Proofs.SameProducts
import GraduatedFit.Proofs.SolverLoop

/-! Two linear systems with the same Gram matrix and the same gradient have the same solutions, also where one of them
stores more zeros than the other. -/

namespace GraduatedFit

open GraduatedFit.Elimination

namespace Result

variable {K α β α' β' : Type}

/-- Two computations that fail with the same failure or return related results. -/
inductive Alongside (R : α → β → Prop) : Result K α → Result K β → Prop
  | failed (failure : Failure K) : Alongside R (.error failure) (.error failure)
  | returned {a : α} {b : β} (related : R a b) : Alongside R (.ok a) (.ok b)

theorem Alongside.refl (x : Result K α) : Alongside Eq x x := by
  cases x with
  | error failure => exact .failed failure
  | ok a => exact .returned rfl

theorem Alongside.bind {R : α → β → Prop} {Q : α' → β' → Prop} {x : Result K α} {y : Result K β}
    (first : Alongside R x y) {f : α → Result K α'} {g : β → Result K β'}
    (rest : ∀ a b, x = .ok a → y = .ok b → R a b → Alongside Q (f a) (g b)) : Alongside Q (x >>= f) (y >>= g) := by
  cases first with
  | failed failure => exact .failed failure
  | returned related => exact rest _ _ rfl rfl related

end Result

namespace SparseMat

section Damped

variable {K : Type} [Scalar K]

/-- The matrix of the normal equations, with something added to its diagonal or as it is. -/
def damped (J : SparseMat K) (damping : Option K) : Symmetric K := damping.elim J.gram fun x => J.gram.addDiagonal x

/-- The shape of a Gram matrix depends on what the Jacobian stores only. -/
theorem gramOf_shape_plain {columns columns' : List (SparseVec K)}
    (same : columns.map SparseVec.support = columns'.map SparseVec.support) :
    (gramOf columns).shape = (gramOf columns').shape := by
  induction columns generalizing columns' with
  | nil =>
      obtain rfl : columns' = [] := List.map_eq_nil_iff.mp same.symm
      rfl
  | cons column columns ih =>
      obtain ⟨column', columns', rfl⟩ : ∃ c rest, columns' = c :: rest :=
        List.exists_cons_of_ne_nil (by rintro rfl; cases same)
      simp only [List.map_cons, List.cons.injEq] at same
      have diagonal := SparseVec.isSome_overlap same.1 same.1
      have entries := map_overlap same.1 same.2
      have rest := ih same.2
      simp only [Symmetric.shape] at rest
      simp [Symmetric.shape, gramOf, Function.comp_def, diagonal, entries, rest]

theorem damped_shape {J J' : SparseMat K} {damping damping' : Option K} (same : J.support = J'.support)
    (both : damping.isSome = damping'.isSome) : (J.damped damping).shape = (J'.damped damping').shape := by
  cases damping with
  | none =>
      cases damping' with
      | none => exact gramOf_shape_plain same
      | some y => cases both
  | some x =>
      cases damping' with
      | none => cases both
      | some y => exact gramOf_shape x y same

@[simp]
theorem length_damped (J : SparseMat K) (damping : Option K) : (J.damped damping).length = J.columns.length := by
  cases damping <;> simp [damped, gram, Symmetric.addDiagonal]

end Damped

theorem gram_overlap {J : SparseMat ℝ} (formed : J.WellFormed) {a b : Nat} (row : a < J.columns.length)
    (column : b < J.columns.length) :
    J.gram.get a b = (SparseVec.overlap (J.columns.getD a []) (J.columns.getD b [])).getD 0 := by
  have left := column_mem (J := J) row
  have right := column_mem (J := J) column
  rw [get_gram formed a b row column, overlap_sum (formed.increasing _ left) (formed.increasing _ right)
    (formed.below _ left)]
  rfl

theorem damped_get (J : SparseMat ℝ) (damping : Option ℝ) {a b : Nat} (row : a < J.columns.length) :
    (J.damped damping).get a b = J.gram.get a b + if a = b then damping.getD 0 else 0 := by
  cases damping with
  | none => simp [damped]
  | some x => exact get_addDiagonal _ _ _ _ (by simpa [gram] using row)

end SparseMat

/-- Two linear systems with the same numbers in their Gram matrices and the same gradient. -/
structure SameNumbers (r r' : Vec ℝ) (J J' : SparseMat ℝ) : Prop where
  fits : r.length = J.height
  fits' : r'.length = J'.height
  formed : J.WellFormed
  formed' : J'.WellFormed
  width : J'.columns.length = J.columns.length
  overlap_eq : ∀ a b, a < J.columns.length → b < J.columns.length →
    (SparseVec.overlap (J'.columns.getD a []) (J'.columns.getD b [])).getD 0 =
      (SparseVec.overlap (J.columns.getD a []) (J.columns.getD b [])).getD 0
  gradient_eq : ∀ a, a < J.columns.length →
    SparseVec.addDot 0 0 (J'.columns.getD a []) r' = SparseVec.addDot 0 0 (J.columns.getD a []) r

namespace SameNumbers

variable {r r' : Vec ℝ} {J J' : SparseMat ℝ} (same : SameNumbers r r' J J')
include same

theorem damped_get_eq (damping : Option ℝ) {a b : Nat} (row : a < J.columns.length) (column : b < J.columns.length) :
    (J'.damped damping).get a b = (J.damped damping).get a b := by
  rw [SparseMat.damped_get J damping row, SparseMat.damped_get J' damping (row.trans_eq same.width.symm),
    SparseMat.gram_overlap same.formed row column, SparseMat.gram_overlap same.formed' (row.trans_eq same.width.symm)
      (column.trans_eq same.width.symm), same.overlap_eq a b row column]

theorem transposeMul_eq : J'.transposeMul r' = J.transposeMul r := by
  refine List.ext_getElem (by simpa [SparseMat.transposeMul] using same.width) fun a left right => ?_
  have inside : a < J.columns.length := by simpa [SparseMat.transposeMul] using right
  simpa [SparseMat.transposeMul, inside, same.width] using same.gradient_eq a inside

theorem scaling_eq : ColumnScaling.ofJacobian J' = ColumnScaling.ofJacobian J := by
  refine congrArg ColumnScaling.mk (List.ext_getElem (by simpa using same.width) fun a left right => ?_)
  have inside : a < J.columns.length := by simpa using right
  have norm := same.overlap_eq a a inside inside
  rw [List.getD_eq_getElem _ _ inside, List.getD_eq_getElem _ _ (same.width ▸ inside)] at norm
  rw [List.getElem_map, List.getElem_map, SparseVec.normSq_eq_overlap, SparseVec.normSq_eq_overlap, norm]

theorem scaleColumns (factors : Vec ℝ) : SameNumbers r r' (J.scaleColumns factors) (J'.scaleColumns factors) where
  fits := same.fits
  fits' := same.fits'
  formed := SparseMat.scaleColumns_wellFormed same.formed
  formed' := SparseMat.scaleColumns_wellFormed same.formed'
  width := by simp [SparseMat.scaleColumns, same.width]
  overlap_eq a b left right := by
    simp only [SparseMat.scaleColumns, List.length_zipWith, Nat.lt_min] at left right
    have numbers := same.overlap_eq a b left.2 right.2
    have scaled (x y : ℝ) (v w : SparseVec ℝ) : (SparseVec.overlap (v.map fun e => (e.1, e.2 * x))
        (w.map fun e => (e.1, e.2 * y))).getD 0 = (v.overlap w).getD 0 * (x * y) := by
      rw [SparseVec.overlap_scaled]
      cases v.overlap w <;> simp
    rw [SparseMat.scaleColumns_getD _ _ left.1 left.2, SparseMat.scaleColumns_getD _ _ right.1 right.2,
      SparseMat.scaleColumns_getD _ _ left.1 (same.width ▸ left.2),
      SparseMat.scaleColumns_getD _ _ right.1 (same.width ▸ right.2), scaled, scaled, numbers]
  gradient_eq a inside := by
    simp only [SparseMat.scaleColumns, List.length_zipWith, Nat.lt_min] at inside
    have zero (x : ℝ) (v : SparseVec ℝ) (ys : Vec ℝ) :
        SparseVec.addDot 0 0 (v.map fun e => (e.1, e.2 * x)) ys = SparseVec.addDot 0 0 v ys * x := by
      simpa using SparseVec.addDot_scaled x v 0 0 ys
    rw [SparseMat.scaleColumns_getD _ _ inside.1 inside.2,
      SparseMat.scaleColumns_getD _ _ inside.1 (same.width ▸ inside.2), zero, zero, same.gradient_eq _ inside.2]

end SameNumbers

namespace NormalEquations

section Planned

variable {K : Type} [Scalar K]

/-- A kept plan is that of a system whose Jacobian stores these positions. -/
def PlannedFor (kept : NormalEquations K) (places : List (List Nat)) (damped : Bool) : Prop :=
  ∀ plan, kept.plan = some plan → ∃ (J : SparseMat K) (damping : Option K),
    J.support = places ∧ damping.isSome = damped ∧ plan = .ofSymmetric (J.damped damping)

theorem plannedFor_nothing (places : List (List Nat)) (damped : Bool) : PlannedFor (K := K) {} places damped := by
  rintro plan ⟨⟩

/-- The plan that a system is solved by is that of a matrix of its shape. -/
theorem PlannedFor.plan {kept : NormalEquations K} {J : SparseMat K} {damping : Option K}
    (planned : kept.PlannedFor J.support damping.isSome) : ∃ (J₀ : SparseMat K) (damping₀ : Option K),
      J₀.support = J.support ∧ damping₀.isSome = damping.isSome ∧
      kept.plan.getD (.ofSymmetric (J.damped damping)) = .ofSymmetric (J₀.damped damping₀) := by
  cases present : kept.plan with
  | none => exact ⟨J, damping, rfl, rfl, rfl⟩
  | some plan => exact planned plan present

end Planned

variable {kept kept' : NormalEquations ℝ} {r r' : Vec ℝ} {J J' : SparseMat ℝ} {damping : Option ℝ}

/-- What is left after a system was solved or was found to be singular. -/
theorem solve_planned (fits : r.length = J.height) (planned : kept.PlannedFor J.support damping.isSome) :
    (kept.solve r J damping).1.PlannedFor J.support damping.isSome ∧
      (kept.solve r J damping).2 =
        (Plan.ofSymmetric (J.damped damping)).solve (J.damped damping) ((J.transposeMul r).map (- ·)) ∧
      ∀ x, (kept.solve r J damping).2 = .ok x → (kept.solve r J damping).1.gradient = some (J.transposeMul r) := by
  obtain ⟨J₀, damping₀, support, both, used⟩ := planned.plan
  have shape := SparseMat.damped_shape support both
  have outcome := @Plan.solve_same (J.damped damping) (J.damped damping) _ _ rfl shape.symm rfl (fun _ _ _ _ => rfl)
    ((J.transposeMul r).map (- ·))
  have next (e : NormalEquations ℝ) (known : e.plan = some (.ofSymmetric (J₀.damped damping₀))) :
      e.PlannedFor J.support damping.isSome := by
    intro plan present
    exact ⟨J₀, damping₀, support, both, Option.some.inj (present.symm.trans known)⟩
  have matrix : (damping.elim J.gram fun x => J.gram.addDiagonal x) = J.damped damping := rfl
  rw [← outcome, solve, if_neg (not_not.mpr fits)]
  dsimp only
  rw [matrix, used]
  rcases (Plan.ofSymmetric (J₀.damped damping₀)).solve (J.damped damping) ((J.transposeMul r).map (- ·)) with
    failure | x
  · refine ⟨next _ rfl, rfl, fun x solved => ?_⟩
    cases solved
  · exact ⟨next _ rfl, rfl, fun _ _ => rfl⟩

/-- Systems with the same numbers have the same solution, or are singular alike. -/
theorem solve_numbers (same : SameNumbers r r' J J') (planned : kept.PlannedFor J.support damping.isSome)
    (planned' : kept'.PlannedFor J'.support damping.isSome) :
    (kept'.solve r' J' damping).2 = (kept.solve r J damping).2 := by
  obtain ⟨-, outcome, -⟩ := solve_planned same.fits planned
  obtain ⟨-, outcome', -⟩ := solve_planned same.fits' planned'
  rw [outcome, outcome', same.transposeMul_eq]
  refine Plan.solve_same rfl rfl (by simpa using same.width) (fun a b row column => ?_) _
  rw [SparseMat.length_damped] at row column
  exact same.damped_get_eq damping row column

end NormalEquations

end GraduatedFit
