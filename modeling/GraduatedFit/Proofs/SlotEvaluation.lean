import GraduatedFit.Proofs.WhitenedShape
import GraduatedFit.Graph

/-! When a slot has an error or a linearization, in terms of its factor and its noise model. -/

namespace GraduatedFit

namespace Factor

variable {K : Type}

/-- What a factor promises: its residual is the same whether a Jacobian is wanted with it or not. -/
def Coherent (factor : Factor K) : Prop :=
  ∀ params residual jacobian, factor.linearize? params true = some (residual, jacobian) →
    ∃ jacobian', factor.linearize? params false = some (residual, jacobian')

/-- A factor with a residual function of its own is coherent, and so are all factors of measurements. -/
theorem ofParts_coherent (dim arity : Nat) (residual? : List (Vec K) → Option (Vec K))
    (jacobian? : List (Vec K) → Option (Mat K)) : (ofParts dim arity residual? jacobian?).Coherent := by
  intro params residual jacobian evaluated
  simp only [ofParts, if_true, bind, Option.bind_eq_some_iff, pure, Option.some.injEq, Prod.mk.injEq] at evaluated
  obtain ⟨computed, found, -, -, same, -⟩ := evaluated
  exact ⟨none, by simp [ofParts, found, same]⟩

end Factor

namespace GraphFactor

variable {K : Type} {f : GraphFactor K}

theorem checkResidual_ok_iff {residual : Vec K} {done : Unit} :
    f.checkResidual residual = .ok done ↔ residual.length = f.noise.dim := by
  unfold checkResidual
  split
  · rename_i sized
    exact iff_of_true rfl sized
  · rename_i sized
    refine iff_of_false ?_ sized
    intro passed
    cases passed

theorem checkJacobian_ok_iff {params : List (Vec K)} {residual : Vec K} {jacobian : Option (Mat K)} {A : Mat K} :
    f.checkJacobian params residual jacobian = .ok A ↔
      jacobian = some A ∧ A.height = residual.length ∧ A.width = params.flatten.length := by
  cases jacobian with
  | none => exact iff_of_false (fun passed => by cases passed) (fun found => by cases found.1)
  | some B =>
      simp only [checkJacobian, Option.some.injEq]
      split
      · rename_i shaped
        constructor
        · intro passed
          obtain rfl := Except.ok.inj passed
          exact ⟨rfl, shaped⟩
        · rintro ⟨rfl, -⟩
          rfl
      · rename_i shaped
        refine iff_of_false ?_ ?_
        · intro passed
          cases passed
        · rintro ⟨rfl, fits⟩
          exact shaped fits

variable [Scalar K] {values : Values K}

theorem error_ok_iff {e : K} : f.error values = .ok e ↔
    ∃ params residual jacobian, f.params values = .ok params ∧
      f.factor.value.linearize? params false = some (residual, jacobian) ∧ residual.length = f.noise.dim ∧
      f.noise.error? residual = some e := by
  simp only [error, residual, Result.bind_ok_iff, Result.ofShape_ok_iff, checkResidual_ok_iff, Result.pure_ok,
    Except.ok.injEq, Prod.exists]
  constructor
  · rintro ⟨_, ⟨params, known, residual, jacobian, evaluated, _, sized, rfl⟩, error⟩
    exact ⟨params, residual, jacobian, known, evaluated, sized, error⟩
  · rintro ⟨params, residual, jacobian, known, evaluated, sized, error⟩
    exact ⟨residual, ⟨params, known, residual, jacobian, evaluated, (), sized, rfl⟩, error⟩

theorem linearize_ok_iff {system : Vec K × Option (Mat K)} : f.linearize values true = .ok system ↔
    ∃ params residual A, f.params values = .ok params ∧
      f.factor.value.linearize? params true = some (residual, some A) ∧ residual.length = f.noise.dim ∧
      A.height = f.noise.dim ∧ A.width = params.flatten.length ∧
      f.noise.whitenSystem? residual (some A) = some system := by
  simp only [linearize, Result.bind_ok_iff, if_true, Result.map_ok_iff, Result.ofShape_ok_iff,
    checkResidual_ok_iff, checkJacobian_ok_iff, Prod.exists]
  constructor
  · rintro ⟨params, known, residual, _, evaluated, _, sized, _, ⟨A, ⟨rfl, height, width⟩, rfl⟩, whitened⟩
    exact ⟨params, residual, A, known, evaluated, sized, height.trans sized, width, whitened⟩
  · rintro ⟨params, residual, A, known, evaluated, sized, height, width, whitened⟩
    exact ⟨params, known, residual, some A, evaluated, (), sized, some A,
      ⟨A, ⟨rfl, height.trans sized.symm, width⟩, rfl⟩, whitened⟩

/-- A slot has as many rows as its noise model, and a column for each component of its variables. -/
theorem linearize_shape {residual : Vec K} {jacobian : Option (Mat K)}
    (linear : f.linearize values true = .ok (residual, jacobian)) :
    residual.length = f.noise.dim ∧ ∃ params J, f.params values = .ok params ∧ jacobian = some J ∧
      J.height = f.noise.dim ∧ J.width = params.flatten.length := by
  obtain ⟨params, r, A, known, -, length, height, width, whitened⟩ := linearize_ok_iff.mp linear
  obtain ⟨J, found, rows, height', width'⟩ := Noise.whitenSystem_shape length height whitened
  exact ⟨rows, params, J, known, found, height', width'.trans width⟩

theorem linearize_residual_ok_iff {system : Vec K × Option (Mat K)} : f.linearize values false = .ok system ↔
    ∃ params residual jacobian, f.params values = .ok params ∧
      f.factor.value.linearize? params false = some (residual, jacobian) ∧ residual.length = f.noise.dim ∧
      f.noise.whitenSystem? residual none = some system := by
  simp only [linearize, Result.bind_ok_iff, Bool.false_eq_true, if_false, Result.ofShape_ok_iff,
    checkResidual_ok_iff, Result.pure_ok, Except.ok.injEq, Prod.exists]
  constructor
  · rintro ⟨params, known, residual, jacobian, evaluated, _, sized, _, rfl, whitened⟩
    exact ⟨params, residual, jacobian, known, evaluated, sized, whitened⟩
  · rintro ⟨params, residual, jacobian, known, evaluated, sized, whitened⟩
    exact ⟨params, known, residual, jacobian, evaluated, (), sized, none, rfl, whitened⟩

/-- The residual of a coherent slot does not depend on whether a Jacobian is wanted. -/
theorem linearize_unwanted (coherent : f.factor.value.Coherent) {residual : Vec K} {jacobian : Option (Mat K)}
    (linear : f.linearize values true = .ok (residual, jacobian)) :
    f.linearize values false = .ok (residual, none) := by
  obtain ⟨params, r, A, known, evaluated, length, -, -, whitened⟩ := linearize_ok_iff.mp linear
  obtain ⟨jacobian', unwanted⟩ := coherent _ _ _ evaluated
  exact linearize_residual_ok_iff.mpr ⟨params, r, jacobian', known, unwanted, length, Noise.whitenSystem_none whitened⟩

/-- Without a loss the error of a slot is half the squared norm of its whitened residual. -/
theorem error_of_linearize (plain : f.noise.isRobust = false) (coherent : f.factor.value.Coherent) {wanted : Bool}
    {residual : Vec K} {jacobian : Option (Mat K)} (linear : f.linearize values wanted = .ok (residual, jacobian)) :
    f.error values = .ok (0.5 * Vec.normSq residual) := by
  have unwanted : ∃ J, f.linearize values false = .ok (residual, J) := by
    cases wanted with
    | false => exact ⟨_, linear⟩
    | true => exact ⟨_, linearize_unwanted coherent linear⟩
  obtain ⟨J, linear⟩ := unwanted
  obtain ⟨params, r, _, known, evaluated, length, whitened⟩ := linearize_residual_ok_iff.mp linear
  refine error_ok_iff.mpr ⟨params, r, _, known, evaluated, length, ?_⟩
  simp only [Noise.whitenSystem_plain plain, bind, Option.bind_eq_some_iff, pure, Option.some.injEq,
    Prod.mk.injEq] at whitened
  obtain ⟨_, found, _, -, rfl, -⟩ := whitened
  rw [Noise.error_plain plain, found]
  rfl

end GraphFactor

end GraduatedFit
