import GraduatedFit.Proofs.RegularizedSystems
import GraduatedFit.Proofs.RowScaling

/-! The system of an iteration in the coordinates of the variables: the scaling of the columns changes what is added to
the diagonal, and nothing else. -/

namespace GraduatedFit

open GraduatedFit.Elimination

namespace Vec

/-- Exact numbers need no care with large and small components. -/
theorem safeNorm_eq_norm (a : Vec ℝ) : Vec.safeNorm a = Vec.norm a := by
  have rescaled {c : ℝ} (positive : 0 < c) : √(normSq (a.map (· * c))) = √(normSq a) * c := by
    have squares : normSq (a.map (· * c)) = normSq a * (c * c) := by
      rw [normSq_real, normSq_real, List.map_map, ← List.sum_map_mul_right]
      exact congrArg List.sum (List.map_congr_left fun x _ => mul_mul_mul_comm x c x c)
    rw [squares, Real.sqrt_mul (normSq_nonneg a), Real.sqrt_mul_self positive.le]
  have small : (0 : ℝ) < √(2.0 ^ (-1022 : ℤ)) := Real.sqrt_pos.mpr (by positivity)
  have cancel (x : ℝ) : x * √(2.0 ^ (-1022 : ℤ)) * (1 / √(2.0 ^ (-1022 : ℤ))) = x := by
    field_simp
  simp only [safeNorm, norm, Scalar.sqrt_real, Scalar.le_real, decide_eq_true_eq, Scalar.tiny]
  split
  · rw [rescaled small, cancel]
  · split
    · rfl
    · rw [rescaled (one_div_pos.mpr small), mul_right_comm, cancel]

theorem getD_zipWith_mul (a b : Vec ℝ) (i : Nat) : (List.zipWith (· * ·) a b).getD i 0 = a.getD i 0 * b.getD i 0 := by
  simp only [List.getD_eq_getElem?_getD, List.getElem?_zipWith]
  cases a[i]? <;> cases b[i]? <;> simp

theorem getD_ne_zero {a : Vec ℝ} (nonzero : ∀ x ∈ a, x ≠ 0) {i : Nat} (inside : i < a.length) : a.getD i 0 ≠ 0 := by
  rw [List.getD_eq_getElem _ _ inside]
  exact nonzero _ (List.getElem_mem inside)

theorem eq_zeros_iff {a : Vec ℝ} {n : Nat} (length : a.length = n) :
    a = List.replicate n 0 ↔ ∀ i < n, a.getD i 0 = 0 := by
  constructor
  · rintro rfl i inside
    simp [List.getD_eq_getElem?_getD]
  · intro zeros
    refine List.ext_getElem (by simpa using length) fun i left _ => ?_
    have zero := zeros i (left.trans_eq length)
    rw [List.getD_eq_getElem _ _ left] at zero
    simpa using zero

theorem normSq_eq_range (a : Vec ℝ) {n : Nat} (length : a.length = n) :
    Vec.normSq a = ∑ i ∈ Finset.range n, a.getD i 0 ^ 2 := by
  rw [normSq_real, sum_eq_range, List.length_map, length]
  refine Finset.sum_congr rfl fun i member => ?_
  simp [List.getD_eq_getElem?_getD, length, Finset.mem_range.mp member, sq]

end Vec

namespace SparseMat

variable {J : SparseMat ℝ} {factors : Vec ℝ}

theorem get_scaleColumns (factors : Vec ℝ) (J : SparseMat ℝ) {a : Nat} (inside : a < factors.length)
    (inside' : a < J.width) (p : Nat) : (J.scaleColumns factors).get p a = J.get p a * factors.getD a 0 := by
  have scaled (x : ℝ) (v : SparseVec ℝ) : SparseVec.get (v.map fun e => (e.1, e.2 * x)) p = v.get p * x := by
    induction v with
    | nil => simp
    | cons head v ih =>
        rw [List.map_cons, SparseVec.get_cons, SparseVec.get_cons, ih]
        split <;> rfl
  rw [get, get, scaleColumns_getD factors J inside inside', scaled]

theorem width_scaleColumns (length : factors.length = J.width) : (J.scaleColumns factors).width = J.width := by
  rw [width, scaleColumns, List.length_zipWith, length, width, min_self]

/-- Factors of one change nothing. -/
theorem scaleColumns_ones (J : SparseMat ℝ) : J.scaleColumns (List.replicate J.width 1) = J := by
  have columns : (J.scaleColumns (List.replicate J.width 1)).columns = J.columns := by
    refine List.ext_getElem (by simp [scaleColumns, width]) fun a _ _ => ?_
    simp [scaleColumns]
  exact congrArg (SparseMat.mk J.height) columns

/-- The product with a vector, row by row. -/
noncomputable def mulVec (J : SparseMat ℝ) (h : Vec ℝ) : Vec ℝ :=
  (List.range J.height).map fun p => ∑ a ∈ Finset.range J.width, J.get p a * h.getD a 0

@[simp]
theorem length_mulVec (J : SparseMat ℝ) (h : Vec ℝ) : (J.mulVec h).length = J.height := by simp [mulVec]

theorem mulVec_getD (J : SparseMat ℝ) (h : Vec ℝ) {p : Nat} (inside : p < J.height) :
    (J.mulVec h).getD p 0 = ∑ a ∈ Finset.range J.width, J.get p a * h.getD a 0 := by
  simp [mulVec, List.getD_eq_getElem?_getD, inside]

theorem normSq_mulVec (J : SparseMat ℝ) (h : Vec ℝ) : Vec.normSq (J.mulVec h) =
    ∑ p ∈ Finset.range J.height, (∑ a ∈ Finset.range J.width, J.get p a * h.getD a 0) ^ 2 := by
  rw [Vec.normSq_eq_range _ (length_mulVec J h)]
  exact Finset.sum_congr rfl fun p member => by rw [mulVec_getD _ _ (Finset.mem_range.mp member)]

/-- A scaled matrix takes a step in scaled coordinates to where the matrix takes the step of the variables. -/
theorem mulVec_scaleColumns (length : factors.length = J.width) (y : Vec ℝ) :
    (J.scaleColumns factors).mulVec y = J.mulVec (List.zipWith (· * ·) y factors) := by
  refine List.map_congr_left fun p _ => ?_
  rw [width_scaleColumns length]
  refine Finset.sum_congr rfl fun a member => ?_
  have inside := Finset.mem_range.mp member
  rw [get_scaleColumns factors J (inside.trans_eq length.symm) inside, Vec.getD_zipWith_mul]
  ring

theorem transposeMul_scaleColumns (factors : Vec ℝ) (J : SparseMat ℝ) (r : Vec ℝ) :
    (J.scaleColumns factors).transposeMul r = List.zipWith (· * ·) (J.transposeMul r) factors := by
  have scaled (x : ℝ) (v : SparseVec ℝ) :
      SparseVec.addDot 0 0 (v.map fun e => (e.1, e.2 * x)) r = v.addDot 0 0 r * x := by
    simpa using SparseVec.addDot_scaled x v 0 0 r
  refine List.ext_getElem (by simp [transposeMul, scaleColumns, min_comm]) fun a _ _ => ?_
  simp [transposeMul, scaleColumns, scaled]

@[simp]
theorem length_transposeMul (J : SparseMat ℝ) (r : Vec ℝ) : (J.transposeMul r).length = J.width := by
  simp [transposeMul, width]

/-- The Gram matrix of a step is the transpose of what the matrix makes of it. -/
theorem gram_apply (formed : J.WellFormed) (h : Vec ℝ) {a : Nat} (inside : a < J.width) :
    ∑ b ∈ Finset.range J.width, J.gram.get a b * h.getD b 0 = (J.transposeMul (J.mulVec h)).getD a 0 := by
  rw [transposeMul_getD formed _ inside, length_mulVec]
  calc
    _ = ∑ b ∈ Finset.range J.width, ∑ p ∈ Finset.range J.height, J.get p a * (J.get p b * h.getD b 0) := by
      refine Finset.sum_congr rfl fun b member => ?_
      rw [get_gram formed a b inside (Finset.mem_range.mp member), Finset.sum_mul]
      exact Finset.sum_congr rfl fun p _ => mul_assoc _ _ _
    _ = ∑ p ∈ Finset.range J.height, ∑ b ∈ Finset.range J.width, J.get p a * (J.get p b * h.getD b 0) :=
      Finset.sum_comm
    _ = _ := by
      refine Finset.sum_congr rfl fun p member => ?_
      rw [mulVec_getD _ _ (Finset.mem_range.mp member), Finset.mul_sum]

/-- No step but zero is invisible to a matrix of full column rank. -/
def FullRank (J : SparseMat ℝ) : Prop :=
  ∀ v : Nat → ℝ, (∀ p < J.height, ∑ a ∈ Finset.range J.width, J.get p a * v a = 0) → ∀ a < J.width, v a = 0

theorem form_damped (formed : J.WellFormed) (damping : Option ℝ) (v : Nat → ℝ) :
    (J.damped damping).form v =
      ∑ p ∈ Finset.range J.height, (∑ i ∈ Finset.range J.width, J.get p i * v i) ^ 2 +
        damping.getD 0 * ∑ i ∈ Finset.range J.width, v i ^ 2 := by
  cases damping with
  | none =>
      rw [← gram_form formed, Symmetric.form, length_damped, Option.getD_none, zero_mul, add_zero]
      rfl
  | some x => exact damped_form formed x v

theorem FullRank.positiveDefinite (rank : J.FullRank) (formed : J.WellFormed) {damping : Option ℝ}
    (nonneg : 0 ≤ damping.getD 0) : (J.damped damping).PositiveDefinite := by
  rintro v ⟨a, inside, nonzero⟩
  rw [length_damped] at inside
  have seen : ∃ p < J.height, ∑ i ∈ Finset.range J.width, J.get p i * v i ≠ 0 := by
    by_contra unseen
    push Not at unseen
    exact nonzero (rank v unseen a inside)
  obtain ⟨p, row, image⟩ := seen
  have images : 0 < ∑ p ∈ Finset.range J.height, (∑ i ∈ Finset.range J.width, J.get p i * v i) ^ 2 :=
    Finset.sum_pos' (fun p _ => sq_nonneg _) ⟨p, Finset.mem_range.mpr row, sq_pos_iff.mpr image⟩
  rw [form_damped formed]
  exact add_pos_of_pos_of_nonneg images (mul_nonneg nonneg (Finset.sum_nonneg fun i _ => sq_nonneg _))

/-- A system that nothing was added to has a solution only if the columns are independent. -/
theorem fullRank_of_positiveDefinite (formed : J.WellFormed) {damping : Option ℝ} (zero : damping.getD 0 = 0)
    (definite : (J.damped damping).PositiveDefinite) : J.FullRank := by
  intro v unseen a inside
  by_contra moved
  have positive := definite v ⟨a, inside.trans_eq (length_damped _ _).symm, moved⟩
  rw [form_damped formed, zero, zero_mul, add_zero] at positive
  refine positive.ne' (Finset.sum_eq_zero fun p row => ?_)
  rw [unseen p (Finset.mem_range.mp row), zero_pow two_ne_zero]

theorem fullRank_scaleColumns (length : factors.length = J.width) (nonzero : ∀ factor ∈ factors, factor ≠ 0) :
    (J.scaleColumns factors).FullRank ↔ J.FullRank := by
  have width := width_scaleColumns length
  have factor (a : Nat) (inside : a < J.width) : factors.getD a 0 ≠ 0 :=
    Vec.getD_ne_zero nonzero (inside.trans_eq length.symm)
  have image (v : Nat → ℝ) (p : Nat) : ∑ a ∈ Finset.range J.width, (J.scaleColumns factors).get p a * v a =
      ∑ a ∈ Finset.range J.width, J.get p a * (factors.getD a 0 * v a) := by
    refine Finset.sum_congr rfl fun a member => ?_
    have inside := Finset.mem_range.mp member
    rw [get_scaleColumns factors J (inside.trans_eq length.symm) inside, mul_assoc]
  unfold FullRank
  rw [width]
  -- The coefficients of one matrix are those of the other, divided or multiplied by the factors.
  constructor
  · intro rank v unseen a inside
    have still := rank (fun b => v b / factors.getD b 0) (fun p row => ?_) a inside
    · exact (div_eq_zero_iff.mp still).resolve_right (factor a inside)
    · refine (image _ p).trans ((Finset.sum_congr rfl fun b member => ?_).trans (unseen p row))
      rw [mul_div_cancel₀ _ (factor b (Finset.mem_range.mp member))]
  · intro rank v unseen a inside
    have still := rank (fun b => factors.getD b 0 * v b) (fun p row => (image v p).symm.trans (unseen p row)) a inside
    exact (mul_eq_zero.mp still).resolve_left (factor a inside)

/-- With independent columns the normal equations tell steps apart. -/
theorem FullRank.unique (rank : J.FullRank) (formed : J.WellFormed) {h h' : Vec ℝ} (length : h.length = J.width)
    (length' : h'.length = J.width)
    (same : ∀ a < J.width, (J.transposeMul (J.mulVec h)).getD a 0 = (J.transposeMul (J.mulVec h')).getD a 0) :
    h = h' := by
  have size : (J.damped none).length = J.width := length_damped _ _
  have row (v : Vec ℝ) (a : Nat) (inside : a < J.width) :
      ∑ b ∈ Finset.range (J.damped none).length, (J.damped none).get a b * v.getD b 0 =
        (J.transposeMul (J.mulVec v)).getD a 0 := by
    rw [size]
    exact gram_apply formed v inside
  -- Both steps solve the undamped system that has the image of the first on its right.
  have left : Solves (J.damped none) (J.transposeMul (J.mulVec h)) h :=
    ⟨length.trans size.symm, fun a inside => row h a (inside.trans_eq size)⟩
  have right : Solves (J.damped none) (J.transposeMul (J.mulVec h)) h' :=
    ⟨length'.trans size.symm, fun a inside => (row h' a (inside.trans_eq size)).trans (same a (inside.trans_eq size)).symm⟩
  exact left.unique (rank.positiveDefinite formed le_rfl) right

end SparseMat

namespace LeastSquares

/-- The factors of the columns: those of the scaling in force, or ones where scaling is off. -/
def State.factors (useScaling : Bool) (J : SparseMat ℝ) (s : State ℝ) : Vec ℝ :=
  match s.scaling, useScaling with
  | some scaling, true => scaling.factors
  | _, _ => List.replicate J.width 1

/-- What the system of a Jacobian finds in the state: a plan for the places that the Jacobian stores, and where scaling
is on a factor for each of its columns, none of them zero. -/
structure State.Ready (useScaling damped : Bool) (J : SparseMat ℝ) (s : State ℝ) : Prop where
  planned : s.equations.PlannedFor J.support damped
  scaled : useScaling = true → ∃ scaling, s.scaling = some scaling ∧ scaling.factors.length = J.width ∧
    ∀ factor ∈ scaling.factors, factor ≠ 0

/-- A direction whose step in scaled coordinates solves the scaled system, the only one that does. -/
structure Direction.Solves (d : Direction ℝ) (factors : Vec ℝ) (damping : Option ℝ) (r : Vec ℝ) (J : SparseMat ℝ) :
    Prop where
  step_eq : d.step = List.zipWith (· * ·) d.systemStep factors
  gradient_eq : d.gradient = List.zipWith (· * ·) (J.transposeMul r) factors
  definite : ((J.scaleColumns factors).damped damping).PositiveDefinite
  system : Elimination.Solves ((J.scaleColumns factors).damped damping) (d.gradient.map (- ·)) d.systemStep
  planned : d.equations.PlannedFor J.support damping.isSome

section Found

variable {useScaling : Bool} {damping : Option ℝ} {s : State ℝ} {r : Vec ℝ} {J : SparseMat ℝ}
  {fault : LinearError → SystemFault} {noGradient : SolveError ℝ} {d : Direction ℝ}

theorem State.Ready.length_factors {damped : Bool} (ready : s.Ready useScaling damped J) :
    (s.factors useScaling J).length = J.width := by
  unfold State.factors
  split
  · rename_i scaling present
    obtain ⟨_, present', length, -⟩ := ready.scaled rfl
    rwa [Option.some.inj (present.symm.trans present')]
  · exact List.length_replicate

theorem State.Ready.factors_ne_zero {damped : Bool} (ready : s.Ready useScaling damped J) :
    ∀ factor ∈ s.factors useScaling J, factor ≠ 0 := by
  unfold State.factors
  split
  · rename_i scaling present
    obtain ⟨_, present', -, nonzero⟩ := ready.scaled rfl
    rwa [Option.some.inj (present.symm.trans present')]
  · intro factor member
    rw [(List.mem_replicate.mp member).2]
    exact one_ne_zero

/-- With factors of one where scaling is off, every system is a scaled one. -/
theorem State.Ready.scaledJacobian_eq {damped : Bool} (ready : s.Ready useScaling damped J) :
    s.scaledJacobian useScaling J = .ok (J.scaleColumns (s.factors useScaling J)) := by
  unfold State.factors State.scaledJacobian
  cases useScaling with
  | false =>
      simp only [Bool.false_eq_true, if_false]
      cases s.scaling <;> rw [SparseMat.scaleColumns_ones]
  | true =>
      obtain ⟨scaling, present, -⟩ := ready.scaled rfl
      simp only [if_true, present, ColumnScaling.scale]

theorem State.unscaledStep_eq {y : Vec ℝ} (length : y.length = J.width) :
    s.unscaledStep useScaling y = List.zipWith (· * ·) y (s.factors useScaling J) := by
  have ones : y = List.zipWith (· * ·) y (List.replicate J.width 1) :=
    List.ext_getElem (by simp [length]) fun a _ _ => by simp
  unfold State.factors State.unscaledStep
  cases s.scaling with
  | none => exact ones
  | some scaling =>
      cases useScaling with
      | false => exact ones
      | true => rfl

/-- The outcome of a system: its direction, or the error of a matrix that is not positive definite. -/
theorem State.Ready.direction_cases (ready : s.Ready useScaling damping.isSome J) (fits : r.length = J.height)
    (fault : LinearError → SystemFault) (noGradient : SolveError ℝ) :
    (∃ d, s.direction useScaling damping fault noGradient r J = .ok d ∧
      d.Solves (s.factors useScaling J) damping r J) ∨
    (¬((J.scaleColumns (s.factors useScaling J)).damped damping).PositiveDefinite ∧
      ∀ d, s.direction useScaling damping fault noGradient r J ≠ .ok d) := by
  have length := ready.length_factors
  set factors := s.factors useScaling J with known
  have support : (J.scaleColumns factors).support = J.support := SparseMat.scaleColumns_support length
  have planned : s.equations.PlannedFor (J.scaleColumns factors).support damping.isSome := support ▸ ready.planned
  obtain ⟨next, outcome, gradient⟩ :=
    NormalEquations.solve_planned (J := J.scaleColumns factors) (show r.length = _ from fits) planned
  rcases Plan.solve_cases (S := (J.scaleColumns factors).damped damping) rfl
      (((J.scaleColumns factors).transposeMul r).map (- ·)) with
    ⟨definite, y, found, solves⟩ | ⟨indefinite, failed⟩
  · have solved := outcome.trans found
    have sized : y.length = J.width := by
      rw [solves.length_eq, SparseMat.length_damped]
      exact SparseMat.width_scaleColumns length
    refine .inl ⟨⟨s.unscaledStep useScaling y, y, (J.scaleColumns factors).transposeMul r,
      (s.equations.solve r (J.scaleColumns factors) damping).1⟩, ?_, ?_⟩
    · rw [State.direction, ready.scaledJacobian_eq, Result.ok_bind, ← known]
      simp only [solved, gradient y solved, Except.mapError, Result.ok_bind]
      rfl
    · exact ⟨State.unscaledStep_eq sized, SparseMat.transposeMul_scaleColumns factors J r, definite, solves,
        support ▸ next⟩
  · refine .inr ⟨indefinite, fun d solved => ?_⟩
    obtain ⟨scaled, found, system, -⟩ := State.direction_ok solved
    obtain rfl := Except.ok.inj (ready.scaledJacobian_eq.symm.trans found)
    have singular := outcome.trans failed
    rw [system] at singular
    cases singular

theorem State.Ready.direction_solves (ready : s.Ready useScaling damping.isSome J) (fits : r.length = J.height)
    (solved : s.direction useScaling damping fault noGradient r J = .ok d) :
    d.Solves (s.factors useScaling J) damping r J := by
  rcases ready.direction_cases fits fault noGradient with ⟨d', found, solves⟩ | ⟨-, failed⟩
  · obtain rfl := Except.ok.inj (solved.symm.trans found)
    exact solves
  · exact absurd solved (failed d)

theorem State.Ready.direction_exists (ready : s.Ready useScaling damping.isSome J) (fits : r.length = J.height)
    (definite : ((J.scaleColumns (s.factors useScaling J)).damped damping).PositiveDefinite)
    (fault : LinearError → SystemFault) (noGradient : SolveError ℝ) :
    ∃ d, s.direction useScaling damping fault noGradient r J = .ok d ∧
      d.Solves (s.factors useScaling J) damping r J := by
  rcases ready.direction_cases fits fault noGradient with found | ⟨indefinite, -⟩
  · exact found
  · exact absurd definite indefinite

variable {factors : Vec ℝ}

theorem Direction.Solves.length_systemStep (solves : d.Solves factors damping r J)
    (length : factors.length = J.width) : d.systemStep.length = J.width := by
  rw [solves.system.length_eq, SparseMat.length_damped]
  exact SparseMat.width_scaleColumns length

theorem Direction.Solves.length_step (solves : d.Solves factors damping r J) (length : factors.length = J.width) :
    d.step.length = J.width := by
  rw [solves.step_eq, List.length_zipWith, solves.length_systemStep length, length, min_self]

/-- A row of the scaled system, with the step of the variables on its left. -/
theorem Direction.Solves.scaled_row (solves : d.Solves factors damping r J) (formed : J.WellFormed)
    (length : factors.length = J.width) {a : Nat} (inside : a < J.width) :
    (J.transposeMul (J.mulVec d.step)).getD a 0 * factors.getD a 0 + damping.getD 0 * d.systemStep.getD a 0 =
      -((J.transposeMul r).getD a 0 * factors.getD a 0) := by
  have width := SparseMat.width_scaleColumns length
  have size : ((J.scaleColumns factors).damped damping).length = J.width := (SparseMat.length_damped _ _).trans width
  have sized : d.gradient.length = J.width := by simp [solves.gradient_eq, length]
  have row := solves.system.row a (inside.trans_eq size.symm)
  have right : (d.gradient.map (- ·)).getD a 0 = -d.gradient.getD a 0 := by
    simp [List.getD_eq_getElem?_getD, sized, inside]
  have diagonal (b : Nat) : ((J.scaleColumns factors).damped damping).get a b * d.systemStep.getD b 0 =
      (J.scaleColumns factors).gram.get a b * d.systemStep.getD b 0 +
        if a = b then damping.getD 0 * d.systemStep.getD a 0 else 0 := by
    rw [SparseMat.damped_get _ _ (inside.trans_eq width.symm)]
    split
    · rename_i same
      rw [same, add_mul]
    · rw [add_zero, add_zero]
  have formed' : (J.scaleColumns factors).WellFormed := SparseMat.scaleColumns_wellFormed formed
  have applied := SparseMat.gram_apply formed' d.systemStep (inside.trans_eq width.symm)
  rw [width, SparseMat.mulVec_scaleColumns length, ← solves.step_eq, SparseMat.transposeMul_scaleColumns,
    Vec.getD_zipWith_mul] at applied
  simp only [size, diagonal, Finset.sum_add_distrib, Finset.sum_ite_eq, Finset.mem_range, inside, if_true, applied,
    right] at row
  rw [row, solves.gradient_eq, Vec.getD_zipWith_mul]

/-- The normal equations in the coordinates of the variables, where the scaling is left on the diagonal only. -/
theorem Direction.Solves.equation (solves : d.Solves factors damping r J) (formed : J.WellFormed)
    (length : factors.length = J.width) (nonzero : ∀ factor ∈ factors, factor ≠ 0) {a : Nat} (inside : a < J.width) :
    (J.transposeMul (J.mulVec d.step)).getD a 0 + damping.getD 0 * (1 / factors.getD a 0 ^ 2) * d.step.getD a 0 =
      -(J.transposeMul r).getD a 0 := by
  have factor : factors.getD a 0 ≠ 0 := Vec.getD_ne_zero nonzero (inside.trans_eq length.symm)
  have row := solves.scaled_row formed length inside
  have step : d.step.getD a 0 = d.systemStep.getD a 0 * factors.getD a 0 := by
    rw [solves.step_eq, Vec.getD_zipWith_mul]
  apply mul_right_cancel₀ factor
  calc
    _ = (J.transposeMul (J.mulVec d.step)).getD a 0 * factors.getD a 0 + damping.getD 0 * d.systemStep.getD a 0 := by
      rw [step]
      field_simp
    _ = _ := by rw [row, neg_mul]

end Found

end LeastSquares

end GraduatedFit
