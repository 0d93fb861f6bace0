import GraduatedFit.Proofs.ScaledSystem
import GraduatedFit.Proofs.SharedPlan

/-! One systems solver asked again and again for Jacobians that store the same positions: what it answers each time, and
what it keeps. -/

namespace GraduatedFit

open GraduatedFit.Elimination Matrix

/-- A solution in the terms of dense matrices. -/
theorem Elimination.Solves.components {S : Symmetric ℝ} {b x : Vec ℝ} (solves : Solves S b x) {n : Nat}
    (length : S.length = n) : (Matrix.of fun i j : Fin n => S.get i j) *ᵥ x.components n = b.components n := by
  subst length
  funext i
  have row := solves.row i i.isLt
  rw [Finset.sum_range] at row
  exact row

/-- A system that is asked for: a residual, a Jacobian and what is added to the diagonal, if anything is. -/
structure Request (K : Type) where
  residual : Vec K
  jacobian : SparseMat K
  damping : Option K

namespace Request

/-- The residual goes with the Jacobian, and the Jacobian stores the given positions. -/
structure Sound (places : List (List Nat)) (q : Request ℝ) : Prop where
  fits : q.residual.length = q.jacobian.height
  formed : q.jacobian.WellFormed
  stored : q.jacobian.support = places

/-- What the solver factors. -/
def system {K : Type} [Scalar K] (q : Request K) : Symmetric K := q.jacobian.damped q.damping

variable (q : Request ℝ)

noncomputable def dense : Matrix (Fin q.jacobian.height) (Fin q.jacobian.width) ℝ := q.jacobian.toMat.toMatrix _ _

/-- The matrix of the plain normal equations. -/
noncomputable def normal : Matrix (Fin q.jacobian.width) (Fin q.jacobian.width) ℝ := q.denseᵀ * q.dense

noncomputable def gradient : Fin q.jacobian.width → ℝ := q.denseᵀ *ᵥ q.residual.components q.jacobian.height

/-- The matrix that is asked for. -/
noncomputable def matrix : Matrix (Fin q.jacobian.width) (Fin q.jacobian.width) ℝ :=
  q.normal + q.damping.getD 0 • (1 : Matrix (Fin q.jacobian.width) (Fin q.jacobian.width) ℝ)

variable {q} {places : List (List Nat)} (sound : q.Sound places)

theorem dense_apply (q : Request ℝ) (p : Fin q.jacobian.height) (a : Fin q.jacobian.width) :
    q.dense p a = q.jacobian.get p a := by
  rw [dense, SparseMat.toMat, Mat.toMatrix_ofFn, of_apply]

@[simp]
theorem length_system (q : Request ℝ) : q.system.length = q.jacobian.width := SparseMat.length_damped _ _

include sound

theorem Sound.normal_apply (a b : Fin q.jacobian.width) : q.jacobian.gram.get a b = q.normal a b := by
  rw [SparseMat.get_gram sound.formed _ _ a.isLt b.isLt, Finset.sum_range, normal, mul_apply]
  simp only [transpose_apply, dense_apply]

theorem Sound.gradient_eq : (q.jacobian.transposeMul q.residual).components q.jacobian.width = q.gradient := by
  funext a
  rw [Vec.components, SparseMat.transposeMul_getD sound.formed _ a.isLt, sound.fits, Finset.sum_range, gradient, mulVec,
    dotProduct]
  simp only [transpose_apply, dense_apply]
  rfl

theorem Sound.matrix_eq : (Matrix.of fun a b : Fin q.jacobian.width => q.system.get a b) = q.matrix := by
  ext a b
  rw [of_apply, system, SparseMat.damped_get _ _ a.isLt, sound.normal_apply a b, matrix, Matrix.add_apply,
    Matrix.smul_apply, one_apply]
  simp only [Fin.ext_iff, smul_eq_mul, mul_ite, mul_one, mul_zero]

theorem Sound.posDef_iff : q.matrix.PosDef ↔ q.system.PositiveDefinite := by
  rw [Symmetric.positiveDefinite_iff_posDef (length_system q), sound.matrix_eq]

/-- A column that stores nothing makes the plain matrix singular. -/
theorem Sound.indefinite_of_empty (plain : q.damping = none) (empty : [] ∈ places) : ¬q.system.PositiveDefinite := by
  intro definite
  rw [← sound.stored] at empty
  obtain ⟨column, member, stored⟩ := List.mem_map.mp empty
  obtain rfl := List.map_eq_nil_iff.mp stored
  obtain ⟨a, inside, column⟩ := List.getElem_of_mem member
  have rank := SparseMat.fullRank_of_positiveDefinite sound.formed (by rw [plain]; rfl) definite
  have blank (p : Nat) : q.jacobian.get p a = 0 := by
    rw [SparseMat.get, List.getD_eq_getElem _ _ inside, column]
    rfl
  have unmoved : ∀ p < q.jacobian.height,
      ∑ b ∈ Finset.range q.jacobian.width, q.jacobian.get p b * (Pi.single a 1 : Nat → ℝ) b = 0 := by
    refine fun p _ => Finset.sum_eq_zero fun b _ => ?_
    rcases eq_or_ne b a with rfl | other
    · rw [blank, zero_mul]
    · rw [Pi.single_eq_of_ne other, mul_zero]
  have moved := rank (Pi.single a 1) unmoved a inside
  rw [Pi.single_eq_same] at moved
  exact one_ne_zero moved

theorem Sound.definite_of_pos {x : ℝ} (damped : q.damping = some x) (positive : 0 < x) : q.system.PositiveDefinite := by
  rw [system, damped]
  exact SparseMat.damped_positiveDefinite sound.formed positive

end Request

namespace NormalEquations

section Runs

variable {K : Type} [Scalar K]

def answer (kept : NormalEquations K) (q : Request K) : NormalEquations K × Result K (Vec K) :=
  kept.solve q.residual q.jacobian q.damping

/-- The solver after it was asked for systems, one after another. -/
def after (kept : NormalEquations K) (requests : List (Request K)) : NormalEquations K :=
  requests.foldl (fun kept q => (kept.answer q).1) kept

/-- The last of the requests that was answered with a solution. -/
def lastAnswered : NormalEquations K → List (Request K) → Option (Request K)
  | _, [] => none
  | kept, q :: requests =>
    match kept.answer q with
    | (next, .ok _) => lastAnswered next requests <|> some q
    | (next, .error _) => lastAnswered next requests

variable {kept : NormalEquations K} {q : Request K}

theorem answer_ok {x : Vec K} (solved : (kept.answer q).2 = .ok x) :
    (kept.answer q).1.hessian = some q.jacobian.gram ∧
      (kept.answer q).1.gradient = some (q.jacobian.transposeMul q.residual) := by
  unfold answer solve at solved ⊢
  split at solved
  · cases solved
  · rename_i fits
    rw [if_neg fits]
    dsimp only at solved ⊢
    split at solved
    · exact ⟨rfl, rfl⟩
    · cases solved

theorem answer_error {failure : Failure K} (failed : (kept.answer q).2 = .error failure) :
    (kept.answer q).1.hessian = kept.hessian ∧ (kept.answer q).1.gradient = kept.gradient := by
  unfold answer solve at failed ⊢
  split at failed
  · rename_i fits
    rw [if_pos fits]
    exact ⟨rfl, rfl⟩
  · rename_i fits
    rw [if_neg fits]
    dsimp only at failed ⊢
    split at failed
    · cases failed
    · exact ⟨rfl, rfl⟩

/-- What is kept of the systems is that of the last one which was solved. -/
theorem after_kept (kept : NormalEquations K) (requests : List (Request K)) :
    (kept.after requests).hessian = (((kept.lastAnswered requests).map (·.jacobian.gram)) <|> kept.hessian) ∧
      (kept.after requests).gradient =
        (((kept.lastAnswered requests).map fun q => q.jacobian.transposeMul q.residual) <|> kept.gradient) := by
  induction requests generalizing kept with
  | nil => exact ⟨rfl, rfl⟩
  | cons q requests ih =>
      obtain ⟨hessian, gradient⟩ := ih (kept.answer q).1
      rcases asked : kept.answer q with ⟨next, failure | x⟩
      · obtain ⟨same, same'⟩ := answer_error (congrArg Prod.snd asked)
        rw [asked] at hessian gradient same same'
        rw [after, List.foldl_cons, asked, lastAnswered, asked]
        rw [← same, ← same']
        exact ⟨hessian, gradient⟩
      · obtain ⟨same, same'⟩ := answer_ok (congrArg Prod.snd asked)
        rw [asked] at hessian gradient same same'
        rw [after, List.foldl_cons, asked, lastAnswered, asked]
        rw [same] at hessian
        rw [same'] at gradient
        dsimp only
        refine ⟨hessian.trans ?_, gradient.trans ?_⟩
        · cases next.lastAnswered requests <;> rfl
        · cases next.lastAnswered requests <;> rfl

end Runs

section Plans

variable {places : List (List Nat)} {kept : NormalEquations ℝ} {q first : Request ℝ} {requests : List (Request ℝ)}

/-- The plan of the first request has no room for a damped system: damping stores the diagonal entries of the columns
that store nothing, and the plan was made without them and with fewer entries above the diagonal. -/
def Crowded (requests : List (Request ℝ)) (q : Request ℝ) : Prop :=
  ∃ first, requests.head? = some first ∧ first.damping = none ∧ q.damping ≠ none ∧
    SparseMat.sharedPairs q.jacobian.columns < SparseMat.emptyColumns q.jacobian.columns

theorem not_crowded_nil (q : Request ℝ) : ¬Crowded [] q := by
  rintro ⟨first, begun, -⟩
  cases begun

theorem answer_planned (sound : q.Sound places) :
    (kept.answer q).1.plan = some (kept.plan.getD (.ofSymmetric q.system)) ∧ (kept.answer q).2 =
      (kept.plan.getD (.ofSymmetric q.system)).solve q.system ((q.jacobian.transposeMul q.residual).map (- ·)) := by
  have matrix : (q.damping.elim q.jacobian.gram fun x => q.jacobian.gram.addDiagonal x) = q.system := rfl
  rw [answer, solve, if_neg (not_not.mpr sound.fits)]
  dsimp only
  rw [matrix]
  split
  · rename_i x solved
    exact ⟨rfl, solved.symm⟩
  · rename_i failure failed
    exact ⟨rfl, failed.symm⟩

/-- The plan is that of the first request. -/
theorem after_plan (sound : ∀ p ∈ requests, p.Sound places) (kept : NormalEquations ℝ) :
    (kept.after requests).plan = (kept.plan <|> requests.head?.map fun first => .ofSymmetric first.system) := by
  induction requests generalizing kept with
  | nil => cases planned : kept.plan <;> simp [after, planned]
  | cons q requests ih =>
      obtain ⟨here, later⟩ := List.forall_mem_cons.mp sound
      obtain ⟨planned, -⟩ := @answer_planned places kept q here
      have rest := ih later (kept.answer q).1
      rw [planned] at rest
      refine rest.trans ?_
      cases kept.plan <;> rfl

/-- The plan that was made for one request has room for another one unless that one stores too many diagonal entries. -/
theorem room_iff (sound : first.Sound places) (sound' : q.Sound places) :
    (q.system.shape = first.system.shape ∨ (Plan.ofSymmetric first.system).holds q.system = true) ↔
      ¬(first.damping = none ∧ q.damping ≠ none ∧
        SparseMat.sharedPairs q.jacobian.columns < SparseMat.emptyColumns q.jacobian.columns) := by
  have support : first.jacobian.support = q.jacobian.support := sound.stored.trans sound'.stored.symm
  have width : q.system.length = first.system.shape.length := by
    have lengths := congrArg List.length support
    simpa [SparseMat.support, Symmetric.shape, SparseMat.width] using lengths.symm
  have holds : (Plan.ofSymmetric first.system).holds q.system = true ↔
      lowerCount q.system.shape ≤ wholeCount first.system.shape := by
    have shape : (Plan.ofSymmetric first.system).shape = first.system.shape := rfl
    simp [Plan.holds, shape, width]
  rw [holds]
  rcases damped : q.damping with _ | x
  · refine iff_of_true ?_ fun crowded => crowded.2.1 rfl
    rcases damped' : first.damping with _ | y
    · exact .inl (SparseMat.damped_shape support.symm (by rw [damped, damped']))
    · -- the undamped matrix stores no more than the damped one
      have plain : q.system.shape = (SparseMat.gramOf q.jacobian.columns).shape := by
        rw [Request.system, damped]
        rfl
      have other : first.system.shape = ((SparseMat.gramOf q.jacobian.columns).addDiagonal y).shape := by
        rw [Request.system, damped']
        exact SparseMat.gramOf_shape y y support
      obtain ⟨stored, -, -, whole⟩ := SparseMat.gramOf_counts q.jacobian.columns y
      rw [plain, other]
      exact .inr (by omega)
  · rcases damped' : first.damping with _ | y
    · have whole : q.system.shape = ((SparseMat.gramOf q.jacobian.columns).addDiagonal x).shape := by
        rw [Request.system, damped]
        rfl
      have plain : first.system.shape = (SparseMat.gramOf q.jacobian.columns).shape := by
        rw [Request.system, damped']
        exact SparseMat.gramOf_shape_plain support
      obtain ⟨stored, both, lower, -⟩ := SparseMat.gramOf_counts q.jacobian.columns x
      simp only [true_and, ne_eq, reduceCtorEq, not_false_eq_true, not_lt]
      rw [whole, plain]
      constructor
      · rintro (same | fits)
        · have counts := congrArg lowerCount same
          omega
        · omega
      · exact fun enough => .inr (by omega)
    · refine iff_of_true (.inl ?_) fun crowded => by cases crowded.1
      exact SparseMat.damped_shape support.symm (by rw [damped, damped']; rfl)

section Answers

variable (sound : ∀ p ∈ q :: requests, p.Sound places)
include sound

/-- With room for it a system is solved if it is positive definite, and else it is singular. -/
theorem answer_cases (room : ¬Crowded requests q) :
    let outcome := ((({} : NormalEquations ℝ).after requests).answer q).2
    (q.system.PositiveDefinite ∧ ∃ x, outcome = .ok x ∧
        Solves q.system ((q.jacobian.transposeMul q.residual).map (- ·)) x) ∨
      (¬q.system.PositiveDefinite ∧ outcome = .fail (.linear .singularMatrix)) := by
  obtain ⟨here, earlier⟩ := List.forall_mem_cons.mp sound
  obtain ⟨-, outcome⟩ := @answer_planned places (({} : NormalEquations ℝ).after requests) q here
  have planned := after_plan earlier {}
  dsimp only
  rw [outcome, planned]
  cases requests with
  | nil => exact Plan.solve_tied rfl (.inl rfl) _
  | cons first rest =>
      have begun := earlier first (.head _)
      have fits := (room_iff begun here).mpr fun crowded => room ⟨first, rfl, crowded⟩
      exact Plan.solve_tied (SparseMat.damped_neighbours (here.stored.trans begun.stored.symm) _ _) fits _

theorem answer_crowded (crowded : Crowded requests q) :
    ((({} : NormalEquations ℝ).after requests).answer q).2 = .error .misshapen := by
  obtain ⟨here, earlier⟩ := List.forall_mem_cons.mp sound
  obtain ⟨-, outcome⟩ := @answer_planned places (({} : NormalEquations ℝ).after requests) q here
  have planned := after_plan earlier {}
  obtain ⟨first, begun, narrow⟩ := crowded
  have member : first ∈ requests := List.mem_of_mem_head? begun
  obtain ⟨differ, full⟩ := not_or.mp (mt (room_iff (earlier first member) here).mp (not_not.mpr narrow))
  rw [outcome, planned, begun]
  exact Plan.solve_crowded differ (Bool.eq_false_iff.mpr full) _

omit sound in
/-- A new solver finds a plain system singular if a column stores nothing. -/
theorem plain_singular (sound : q.Sound places) (plain : q.damping = none) (empty : [] ∈ places) :
    (({} : NormalEquations ℝ).answer q).2 = .fail (.linear .singularMatrix) := by
  rcases answer_cases (List.forall_mem_singleton.mpr sound) (not_crowded_nil q) with ⟨definite, -⟩ | ⟨-, failed⟩
  · exact absurd definite (sound.indefinite_of_empty plain empty)
  · exact failed

/-- Room lacks only after the plain system of the first request was found to be singular. -/
theorem Crowded.first_singular (crowded : Crowded requests q) :
    ∃ first, requests.head? = some first ∧
      (({} : NormalEquations ℝ).answer first).2 = .fail (.linear .singularMatrix) := by
  obtain ⟨first, begun, plain, -, narrow⟩ := crowded
  obtain ⟨column, member, stored⟩ := List.countP_pos_iff.mp (Nat.zero_lt_of_lt narrow)
  obtain rfl := List.isEmpty_iff.mp stored
  have empty : [] ∈ places := by
    rw [← (sound q (.head _)).stored]
    exact List.mem_map.mpr ⟨[], member, rfl⟩
  exact ⟨first, begun, plain_singular (sound first (.tail _ (List.mem_of_mem_head? begun))) plain empty⟩

end Answers

/-- For each of the systems that a solver is asked for, with Jacobians that store the same positions, it finds the
solution if the matrix is positive definite, just as a new solver does, and else reports the matrix as singular. Only
where the plan of an undamped first request, itself singular, has no room for a damped one, it gives no answer. It keeps
the plain matrix and the gradient of the last system that it solved. -/
theorem requests_answered (sound : ∀ p ∈ q :: requests, p.Sound places) :
    let kept := ({} : NormalEquations ℝ).after requests
    let next := (kept.answer q).1
    let outcome := (kept.answer q).2
    (¬Crowded requests q →
      ((∃ x, outcome = .ok x) ↔ q.matrix.PosDef) ∧
      (∀ x, outcome = .ok x → x.length = q.jacobian.width ∧ q.matrix *ᵥ x.components q.jacobian.width = -q.gradient) ∧
      ((∀ x, outcome ≠ .ok x) → outcome = .fail (.linear .singularMatrix)) ∧
      outcome = (({} : NormalEquations ℝ).answer q).2) ∧
    (Crowded requests q → outcome = .error .misshapen ∧ ∃ first, requests.head? = some first ∧
      (({} : NormalEquations ℝ).answer first).2 = .fail (.linear .singularMatrix)) ∧
    (∀ x, outcome = .ok x → next.hessian = some q.jacobian.gram ∧
      next.gradient = some (q.jacobian.transposeMul q.residual)) ∧
    (∀ failure, outcome = .error failure → next.hessian = kept.hessian ∧ next.gradient = kept.gradient) ∧
    kept.hessian = (lastAnswered {} requests).map (·.jacobian.gram) ∧
    kept.gradient = (lastAnswered {} requests).map (fun p => p.jacobian.transposeMul p.residual) ∧
    (∀ a b : Fin q.jacobian.width, q.jacobian.gram.get a b = q.normal a b) ∧
    (q.jacobian.transposeMul q.residual).components q.jacobian.width = q.gradient := by
  intro kept next outcome
  have here : q.Sound places := sound q (.head _)
  have negated : Vec.components q.jacobian.width ((q.jacobian.transposeMul q.residual).map (- ·)) = -q.gradient := by
    rw [← here.gradient_eq]
    funext a
    simp [Vec.components]
  obtain ⟨hessian, gradient⟩ := after_kept ({} : NormalEquations ℝ) requests
  refine ⟨fun room => ?_, fun crowded => ⟨answer_crowded sound crowded, crowded.first_singular sound⟩,
    fun x => answer_ok, fun failure => answer_error, ?_, ?_, here.normal_apply, here.gradient_eq⟩
  · have alone : ∀ p ∈ [q], p.Sound places := List.forall_mem_singleton.mpr here
    have fresh := answer_cases alone (not_crowded_nil q)
    rw [here.posDef_iff]
    rcases answer_cases sound room with ⟨positive, x, solved, solves⟩ | ⟨indefinite, failed⟩
    · rcases fresh with ⟨-, x', solved', solves'⟩ | ⟨indefinite, -⟩
      · refine ⟨iff_of_true ⟨x, solved⟩ positive, fun y answered => ?_, fun never => absurd solved (never x), ?_⟩
        · obtain rfl := Except.ok.inj (solved.symm.trans answered)
          refine ⟨solves.length_eq.trans (Request.length_system q), ?_⟩
          rw [← here.matrix_eq, solves.components (Request.length_system q), negated]
        · exact solved.trans ((congrArg Except.ok (solves.unique positive solves')).trans solved'.symm)
      · exact absurd positive indefinite
    · rcases fresh with ⟨positive, -⟩ | ⟨-, failed'⟩
      · exact absurd positive indefinite
      · refine ⟨iff_of_false ?_ indefinite, fun y answered => ?_, fun _ => failed, failed.trans failed'.symm⟩
        · rintro ⟨x, solved⟩
          cases failed.symm.trans solved
        · cases failed.symm.trans answered
  · rw [hessian]
    cases lastAnswered {} requests <;> rfl
  · rw [gradient]
    cases lastAnswered {} requests <;> rfl

end Plans

section Instances

/-- Two columns that share a row and one that stores nothing. -/
noncomputable def lopsided (damping : Option ℝ) : Request ℝ := ⟨[1], ⟨1, [[(0, 1)], [(0, 1)], []]⟩, damping⟩

theorem lopsided_sound (damping : Option ℝ) : (lopsided damping).Sound [[0], [0], []] where
  fits := rfl
  formed := by
    constructor <;> simp [lopsided, SparseVec.Increasing, SparseVec.support]
  stored := rfl

/-- The plan of the plain system, which is singular, has just room for the damped one. -/
theorem lopsided_answered :
    let kept := ({} : NormalEquations ℝ).after [lopsided none]
    (∀ p ∈ [lopsided (some 1), lopsided none], p.Sound [[0], [0], []]) ∧
      (({} : NormalEquations ℝ).answer (lopsided none)).2 = .fail (.linear .singularMatrix) ∧ kept.hessian = none ∧
      ∃ x, (kept.answer (lopsided (some 1))).2 = .ok x ∧
        (lopsided (some 1)).matrix *ᵥ x.components 3 = -(lopsided (some 1)).gradient ∧
        (kept.answer (lopsided (some 1))).1.hessian = some (lopsided none).jacobian.gram := by
  intro kept
  have sound : ∀ p ∈ [lopsided (some 1), lopsided none], p.Sound [[0], [0], []] :=
    List.forall_mem_cons.mpr ⟨lopsided_sound _, List.forall_mem_singleton.mpr (lopsided_sound _)⟩
  have failed := plain_singular (lopsided_sound none) rfl (by simp)
  have unsolved : lastAnswered {} [lopsided none] = none := by
    have asked : ({} : NormalEquations ℝ).answer (lopsided none) = (_, .fail (.linear .singularMatrix)) :=
      Prod.ext rfl failed
    rw [lastAnswered, asked]
    rfl
  have room : ¬Crowded [lopsided none] (lopsided (some 1)) := by
    rintro ⟨-, -, -, -, narrow⟩
    simp [lopsided, SparseMat.emptyColumns, SparseMat.sharedPairs, SparseVec.overlap, SparseVec.products] at narrow
  obtain ⟨fits, -, solved, -, hessian, -, -, -⟩ := requests_answered sound
  obtain ⟨definite, equation, -, -⟩ := fits room
  have positive := (lopsided_sound (some 1)).posDef_iff.mpr ((lopsided_sound _).definite_of_pos rfl one_pos)
  obtain ⟨x, answered⟩ := definite.mpr positive
  exact ⟨sound, failed, hessian.trans (congrArg _ unsolved), x, answered, (equation x answered).2, (solved x answered).1⟩

/-- A Jacobian that stores nothing. -/
noncomputable def blank (damping : Option ℝ) : Request ℝ := ⟨[1, 2.0], ⟨2, [[], []]⟩, damping⟩

theorem blank_sound (damping : Option ℝ) : (blank damping).Sound [[], []] where
  fits := rfl
  formed := by
    constructor <;> simp [blank, SparseVec.Increasing, SparseVec.support]
  stored := rfl

/-- After the plain system was found to be singular the damped one, which is positive definite, is not answered. -/
theorem blank_unanswered :
    (({} : NormalEquations ℝ).answer (blank none)).2 = .fail (.linear .singularMatrix) ∧
      (blank (some 1)).matrix.PosDef ∧ (∃ x, (({} : NormalEquations ℝ).answer (blank (some 1))).2 = .ok x) ∧
      ((({} : NormalEquations ℝ).after [blank none]).answer (blank (some 1))).2 = .error .misshapen := by
  have sound : ∀ p ∈ [blank (some 1), blank none], p.Sound [[], []] :=
    List.forall_mem_cons.mpr ⟨blank_sound _, List.forall_mem_singleton.mpr (blank_sound _)⟩
  have definite := (blank_sound (some 1)).definite_of_pos rfl one_pos
  have crowded : Crowded [blank none] (blank (some 1)) := by
    refine ⟨blank none, rfl, rfl, nofun, ?_⟩
    simp [blank, SparseMat.emptyColumns, SparseMat.sharedPairs, SparseVec.overlap, SparseVec.products]
  refine ⟨plain_singular (blank_sound none) rfl (.head _), (blank_sound _).posDef_iff.mpr definite, ?_,
    answer_crowded sound crowded⟩
  rcases answer_cases (List.forall_mem_singleton.mpr (blank_sound (some 1))) (not_crowded_nil _) with
    ⟨-, x, solved, -⟩ | ⟨indefinite, -⟩
  · exact ⟨x, solved⟩
  · exact absurd definite indefinite

end Instances

end NormalEquations

end GraduatedFit
