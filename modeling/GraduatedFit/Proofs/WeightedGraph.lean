import GraduatedFit.Proofs.SlotEvaluation
import GraduatedFit.Graph.Layout

/-! When a graph can be reweighted, and what the weights do to the errors and the whitened systems of its factors. -/

namespace GraduatedFit

namespace GraphFactor

section Slots

variable {K : Type}

/-- The same variables, the same factor object and as many rows. -/
structure SameFrame (f f' : GraphFactor K) : Prop where
  keys_eq : f'.keys = f.keys
  factor_eq : f'.factor = f.factor
  dim_eq : f'.noise.dim = f.noise.dim

theorem SameFrame.symm {f f' : GraphFactor K} (frame : SameFrame f f') : SameFrame f' f :=
  ⟨frame.keys_eq.symm, frame.factor_eq.symm, frame.dim_eq.symm⟩

theorem SameFrame.trans {f f' f'' : GraphFactor K} (first : SameFrame f f') (second : SameFrame f' f'') :
    SameFrame f f'' :=
  ⟨second.keys_eq.trans first.keys_eq, second.factor_eq.trans first.factor_eq, second.dim_eq.trans first.dim_eq⟩

variable [Scalar K]

/-- Why a slot is refused, if it is. The weight is looked at before the noise model. -/
def refusal? (slot : Nat) (weight : K) (f : GraphFactor K) : Option (ModelError K) :=
  if !Scalar.nonNegative weight then some (.invalidInput (.weight slot weight))
  else if f.noise.isRobust then some (.unscalableNoiseModel slot .robust)
  else none

theorem refusal_none_iff {slot : Nat} {weight : K} {f : GraphFactor K} :
    f.refusal? slot weight = none ↔ Scalar.nonNegative weight = true ∧ f.noise.isRobust = false := by
  unfold refusal?
  cases Scalar.nonNegative weight <;> cases f.noise.isRobust <;> simp

/-- The factor of a slot under its weight, unless it is refused. -/
def reweighted (slot : Nat) (weight : K) (f : GraphFactor K) : Result K (GraphFactor K) := do
  Graph.checkWeight slot weight
  match f.noise.scaledByWeight? weight with
  | some noise => return { f with noise }
  | none => .failModel (.unscalableNoiseModel slot .robust)

/-- The same factor on the same variables, its noise model under a weight. -/
structure Weighted (weight : K) (f f' : GraphFactor K) : Prop where
  keys_eq : f'.keys = f.keys
  factor_eq : f'.factor = f.factor
  scaled : f.noise.scaledByWeight? weight = some f'.noise

theorem reweighted_ok_iff {slot : Nat} {weight : K} {f f' : GraphFactor K} :
    f.reweighted slot weight = .ok f' ↔ Scalar.nonNegative weight = true ∧ Weighted weight f f' := by
  unfold reweighted Graph.checkWeight
  cases admitted : Scalar.nonNegative weight with
  | false =>
      simp only [Bool.false_eq_true, if_false, false_and, iff_false]
      intro done
      cases done
  | true =>
      simp only [if_true, Result.ok_bind, true_and]
      cases found : f.noise.scaledByWeight? weight with
      | none =>
          constructor
          · intro done
            cases done
          · intro weighted
            have scaled := weighted.scaled
            rw [found] at scaled
            cases scaled
      | some noise =>
          constructor
          · intro done
            obtain rfl := Except.ok.inj done
            exact ⟨rfl, rfl, found⟩
          · rintro ⟨keys, factor, scaled⟩
            obtain rfl := Option.some.inj (found.symm.trans scaled)
            cases f'
            cases keys
            cases factor
            rfl

theorem reweighted_refused {slot : Nat} {weight : K} {f : GraphFactor K} {error : ModelError K}
    (refused : f.refusal? slot weight = some error) : f.reweighted slot weight = .failModel error := by
  unfold refusal? at refused
  unfold reweighted Graph.checkWeight
  cases admitted : Scalar.nonNegative weight with
  | false =>
      rw [admitted] at refused
      obtain rfl := Option.some.inj refused
      rfl
  | true =>
      simp only [admitted, Bool.not_true, Bool.false_eq_true, if_false] at refused
      split at refused
      · rename_i robust
        obtain rfl := Option.some.inj refused
        have none := f.noise.scaledByWeight_isSome weight
        rw [robust, Bool.not_true, Option.isSome_eq_false_iff, Option.isNone_iff_eq_none] at none
        rw [none]
        rfl
      · cases refused

theorem reweighted_admitted {slot : Nat} {weight : K} {f : GraphFactor K}
    (admitted : f.refusal? slot weight = none) : ∃ f', f.reweighted slot weight = .ok f' := by
  obtain ⟨nonneg, plain⟩ := refusal_none_iff.mp admitted
  have found := f.noise.scaledByWeight_isSome weight
  rw [plain, Bool.not_false, Option.isSome_iff_exists] at found
  obtain ⟨noise, scaled⟩ := found
  exact ⟨{ f with noise }, reweighted_ok_iff.mpr ⟨nonneg, rfl, rfl, scaled⟩⟩

namespace Weighted

variable {weight : K} {f f' : GraphFactor K}

theorem dim_eq (weighted : Weighted weight f f') : f'.noise.dim = f.noise.dim :=
  Noise.scaledByWeight_dim weighted.scaled

theorem frame (weighted : Weighted weight f f') : SameFrame f f' :=
  ⟨weighted.keys_eq, weighted.factor_eq, weighted.dim_eq⟩

theorem params_eq (weighted : Weighted weight f f') (values : Values K) : f'.params values = f.params values := by
  rw [params, params, weighted.keys_eq]

theorem checkResidual_eq (weighted : Weighted weight f f') : f'.checkResidual = f.checkResidual := by
  funext residual
  rw [checkResidual, checkResidual, weighted.dim_eq, weighted.keys_eq]

theorem checkJacobian_eq (weighted : Weighted weight f f') : f'.checkJacobian = f.checkJacobian := by
  funext params residual J
  cases J with
  | none => rw [checkJacobian, checkJacobian, weighted.keys_eq]
  | some J => rw [checkJacobian, checkJacobian, weighted.keys_eq]

theorem residual_eq (weighted : Weighted weight f f') (values : Values K) :
    f'.residual values = f.residual values := by
  rw [GraphFactor.residual, GraphFactor.residual, weighted.params_eq, weighted.factor_eq,
    weighted.checkResidual_eq]

end Weighted

end Slots

namespace Weighted

variable {weight : ℝ} {f f' : GraphFactor ℝ}

theorem error_eq (weighted : Weighted weight f f') (nonneg : 0 ≤ weight) (values : Values ℝ) :
    f'.error values = (weight * ·) <$> f.error values := by
  rw [GraphFactor.error, GraphFactor.error, weighted.residual_eq]
  cases f.residual values with
  | error failure => rfl
  | ok residual =>
      simp only [Result.ok_bind, Noise.error_scaled weighted.scaled nonneg]
      cases f.noise.error? residual <;> rfl

/-- A whitened system times the root of the weight. -/
noncomputable def scaleSystem (weight : ℝ) (system : Vec ℝ × Option (Mat ℝ)) : Vec ℝ × Option (Mat ℝ) :=
  (system.1.map (√weight * ·), system.2.map (Mat.map (√weight * ·)))

theorem scaleSystem_one (system : Vec ℝ × Option (Mat ℝ)) : scaleSystem 1 system = system := by
  obtain ⟨r, J⟩ := system
  have same : Mat.map (fun x : ℝ => x) = id := by
    funext A
    exact Mat.eq_of_rows rfl (by simp [Mat.map])
  simp [scaleSystem, same]

theorem scaleSystem_mul {v : ℝ} (nonneg : 0 ≤ v) (w : ℝ) (system : Vec ℝ × Option (Mat ℝ)) :
    scaleSystem w (scaleSystem v system) = scaleSystem (v * w) system := by
  obtain ⟨r, J⟩ := system
  have root (x : ℝ) : √w * (√v * x) = √(v * w) * x := by
    rw [Real.sqrt_mul nonneg]
    ring
  have twice (A : Mat ℝ) : (A.map (√v * ·)).map (√w * ·) = A.map (√(v * w) * ·) :=
    Mat.eq_of_rows rfl (by simp [Mat.map, Function.comp_def, root])
  simp [scaleSystem, Function.comp_def, root, twice]

theorem linearize_eq (weighted : Weighted weight f f') (values : Values ℝ) (wanted : Bool) :
    f'.linearize values wanted = scaleSystem weight <$> f.linearize values wanted := by
  rw [GraphFactor.linearize, GraphFactor.linearize, weighted.params_eq, weighted.factor_eq,
    weighted.checkResidual_eq, weighted.checkJacobian_eq]
  cases f.params values with
  | error failure => rfl
  | ok params =>
      simp only [Result.ok_bind]
      cases evaluated : (Result.ofShape (f.factor.value.linearize? params wanted) : Result ℝ _) with
      | error failure => rfl
      | ok system =>
          obtain ⟨residual, jacobian⟩ := system
          simp only [Result.ok_bind]
          cases sized : f.checkResidual residual with
          | error failure => rfl
          | ok done =>
              have length := checkResidual_ok_iff.mp sized
              cases wanted with
              | false =>
                  simp only [Result.ok_bind, Bool.false_eq_true, if_false, pure_bind]
                  rw [Noise.whitenSystem_scaled weighted.scaled residual (by simp)]
                  cases f.noise.whitenSystem? residual none <;> rfl
              | true =>
                  simp only [Result.ok_bind, if_true]
                  cases shaped : f.checkJacobian params residual jacobian with
                  | error failure => rfl
                  | ok J =>
                      have height : J.height = f.noise.dim := (checkJacobian_ok_iff.mp shaped).2.1.trans length
                      have checked : (some <$> Except.ok J : Result ℝ (Option (Mat ℝ))) = .ok (some J) := rfl
                      simp only [checked, Result.ok_bind]
                      rw [Noise.whitenSystem_scaled weighted.scaled residual (by rintro A ⟨⟩; exact height)]
                      cases f.noise.whitenSystem? residual (some J) <;> rfl

end Weighted

end GraphFactor

namespace Graph

section Slots

variable {K : Type}

theorem hasRobustFactors_false_iff {graph : Graph K} :
    graph.hasRobustFactors = false ↔ ∀ f ∈ graph.factors, f.noise.isRobust = false := by
  simp [hasRobustFactors]

theorem slot_of_zipIdx {fs : List (GraphFactor K)} {slot : Nat} {p : GraphFactor K × Nat}
    (present : fs.zipIdx[slot]? = some p) : fs[slot]? = some p.1 ∧ p.2 = slot := by
  rw [List.getElem?_zipIdx, Option.map_eq_some_iff] at present
  obtain ⟨f, found, rfl⟩ := present
  exact ⟨found, Nat.zero_add slot⟩

theorem zipIdx_of_slot {fs : List (GraphFactor K)} {slot : Nat} {f : GraphFactor K} (present : fs[slot]? = some f) :
    fs.zipIdx[slot]? = some (f, slot) := by
  rw [List.getElem?_zipIdx, present, Option.map_some, Nat.zero_add]

variable [Scalar K]

/-- Slot by slot the factors under admissible weights. -/
inductive Reweights : Vec K → List (GraphFactor K) → List (GraphFactor K) → Prop
  | nil : Reweights [] [] []
  | cons {weight : K} {weights : Vec K} {f f' : GraphFactor K} {fs fs' : List (GraphFactor K)}
      (admitted : Scalar.nonNegative weight = true) (first : GraphFactor.Weighted weight f f')
      (rest : Reweights weights fs fs') : Reweights (weight :: weights) (f :: fs) (f' :: fs')

theorem mapM_reweighted {before weights : Vec K} {fs fs' : List (GraphFactor K)}
    (count : weights.length = fs.length) :
    (fs.zipIdx before.length).mapM (fun p => p.1.reweighted p.2 ((before ++ weights).getD p.2 0)) = .ok fs' ↔
      Reweights weights fs fs' := by
  induction fs generalizing before weights fs' with
  | nil =>
      obtain rfl : weights = [] := List.length_eq_zero_iff.mp count
      constructor
      · intro done
        obtain rfl : [] = fs' := by simpa using done
        exact .nil
      · rintro ⟨⟩
        rfl
  | cons f fs ih =>
      obtain ⟨weight, weights, rfl⟩ := List.exists_cons_of_length_eq_add_one count
      have tail := @ih (before ++ [weight]) weights
      have here : (before ++ weight :: weights).getD before.length 0 = weight := by simp
      simp only [List.length_append, List.length_singleton, List.append_assoc, List.singleton_append] at tail
      rw [List.zipIdx_cons, Result.mapM_ok_iff]
      constructor
      · intro related
        cases related with
        | cons head later =>
            dsimp only at head
            rw [here, GraphFactor.reweighted_ok_iff] at head
            exact .cons head.1 head.2 ((tail (by simpa using count)).mp (Result.mapM_ok_iff.mpr later))
      · intro reweights
        cases reweights with
        | cons admitted first rest =>
            refine .cons ?_ (Result.mapM_ok_iff.mp ((tail (by simpa using count)).mpr rest))
            dsimp only
            rw [here, GraphFactor.reweighted_ok_iff]
            exact ⟨admitted, first⟩

/-- Reweighting as one traversal of the slots. -/
theorem reweight_eq {graph : Graph K} {weights : Vec K} (count : weights.length = graph.size) :
    graph.reweight weights =
      mk <$> graph.factors.zipIdx.mapM (fun p => p.1.reweighted p.2 (weights.getD p.2 0)) := by
  have step (slot : Nat) (f : GraphFactor K) : (do
      let noise ← (do
        checkWeight slot (weights.getD slot 0)
        match f.noise.scaledByWeight? (weights.getD slot 0) with
        | some noise => return noise
        | none => Result.failModel (.unscalableNoiseModel slot .robust))
      return { f with noise }) = f.reweighted slot (weights.getD slot 0) := by
    unfold GraphFactor.reweighted
    cases checkWeight slot (weights.getD slot 0) with
    | error failure => rfl
    | ok done => cases f.noise.scaledByWeight? (weights.getD slot 0) <;> rfl
  rw [reweight, if_neg (not_not.mpr count), withNoise, ← bind_pure_comp]
  congr 2
  funext p
  exact step p.2 p.1

theorem reweight_ok_iff {graph g : Graph K} {weights : Vec K} (count : weights.length = graph.size) :
    graph.reweight weights = .ok g ↔ Reweights weights graph.factors g.factors := by
  have slots := @mapM_reweighted K _ [] weights graph.factors g.factors count
  rw [reweight_eq count, ← slots, Result.map_ok_iff]
  constructor
  · rintro ⟨fs', done, rfl⟩
    exact done
  · intro done
    exact ⟨_, done, rfl⟩

/-- The first slot that is refused, and why. -/
def FirstRefused (graph : Graph K) (weights : Vec K) (error : ModelError K) : Prop :=
  ∃ (slot : Nat) (f : GraphFactor K), graph.get? slot = some f ∧
    f.refusal? slot (weights.getD slot 0) = some error ∧
    ∀ (earlier : Nat) (f' : GraphFactor K), earlier < slot → graph.get? earlier = some f' →
      f'.refusal? earlier (weights.getD earlier 0) = none

/-- No slot is refused. -/
def Admits (graph : Graph K) (weights : Vec K) : Prop :=
  ∀ (slot : Nat) (f : GraphFactor K), graph.get? slot = some f → f.refusal? slot (weights.getD slot 0) = none

/-- A reweighting that fails names the first slot that is refused. -/
theorem reweight_refused {graph : Graph K} {weights : Vec K} {failure : Failure K}
    (count : weights.length = graph.size) (failed : graph.reweight weights = .error failure) :
    ∃ error, graph.FirstRefused weights error ∧ failure = .raised (.model error) [] := by
  rw [reweight_eq count] at failed
  have traversal : graph.factors.zipIdx.mapM (fun p => p.1.reweighted p.2 (weights.getD p.2 0)) = .error failure := by
    cases done : graph.factors.zipIdx.mapM (fun p => p.1.reweighted p.2 (weights.getD p.2 0)) with
    | error first =>
        rw [done] at failed
        exact congrArg Except.error (Except.error.inj failed)
    | ok fs =>
        rw [done] at failed
        cases failed
  obtain ⟨slot, p, present, failing, earlier⟩ := Result.mapM_error_iff.mp traversal
  obtain ⟨found, place⟩ := slot_of_zipIdx present
  rw [place] at failing
  cases refused : p.1.refusal? slot (weights.getD slot 0) with
  | none =>
      obtain ⟨f', admitted⟩ := GraphFactor.reweighted_admitted refused
      rw [failing] at admitted
      cases admitted
  | some error =>
      rw [GraphFactor.reweighted_refused refused] at failing
      refine ⟨error, ⟨slot, p.1, found, refused, fun i f before here => ?_⟩, (Except.error.inj failing).symm⟩
      obtain ⟨f', admitted⟩ := earlier i (f, i) before (zipIdx_of_slot here)
      cases refused' : f.refusal? i (weights.getD i 0) with
      | none => rfl
      | some error' =>
          rw [GraphFactor.reweighted_refused refused'] at admitted
          cases admitted

theorem FirstRefused.not_admits {graph : Graph K} {weights : Vec K} {error : ModelError K}
    (refused : graph.FirstRefused weights error) : ¬graph.Admits weights := by
  obtain ⟨slot, f, present, why, -⟩ := refused
  intro admits
  rw [admits slot f present] at why
  cases why

theorem Reweights.admits {weights : Vec K} {fs fs' : List (GraphFactor K)} (reweights : Reweights weights fs fs') :
    Admits ⟨fs⟩ weights := by
  induction reweights with
  | nil =>
      intro slot f present
      cases present
  | cons admitted first rest ih =>
      intro slot f present
      cases slot with
      | zero =>
          obtain rfl := Option.some.inj present
          exact GraphFactor.refusal_none_iff.mpr ⟨admitted, (Noise.scaledByWeight_plain first.scaled).1⟩
      | succ slot =>
          have later := GraphFactor.refusal_none_iff.mp (ih slot f present)
          exact GraphFactor.refusal_none_iff.mpr later

/-- Either the counts differ, or a slot is refused and the first one named, or there is a reweighted graph. -/
theorem reweight_cases (graph : Graph K) (weights : Vec K) :
    (weights.length ≠ graph.size ∧
      graph.reweight weights = .failContinuation (.weightCountMismatch graph.size weights.length)) ∨
    (weights.length = graph.size ∧
      ∃ error, graph.FirstRefused weights error ∧ graph.reweight weights = .failModel error) ∨
    (weights.length = graph.size ∧ graph.Admits weights ∧
      ∃ g, graph.reweight weights = .ok g ∧ Reweights weights graph.factors g.factors) := by
  by_cases count : weights.length = graph.size
  · right
    rcases done : graph.reweight weights with failure | g
    · obtain ⟨error, refused, rfl⟩ := reweight_refused count done
      exact .inl ⟨count, error, refused, rfl⟩
    · have reweights := (reweight_ok_iff count).mp done
      exact .inr ⟨count, reweights.admits, g, rfl, reweights⟩
  · exact .inl ⟨count, by rw [reweight, if_pos count]⟩

theorem reweights_of_ok {graph g : Graph K} {weights : Vec K} (done : graph.reweight weights = .ok g) :
    Reweights weights graph.factors g.factors := by
  refine (reweight_ok_iff ?_).mp done
  by_contra differ
  rw [reweight, if_pos differ] at done
  cases done

/-- Weights change neither the variables nor the rows of the slots. -/
theorem Reweights.frame {weights : Vec K} {fs fs' : List (GraphFactor K)} (reweights : Reweights weights fs fs') :
    List.Forall₂ GraphFactor.SameFrame fs fs' := by
  induction reweights with
  | nil => exact .nil
  | cons admitted first rest ih => exact .cons first.frame ih

theorem Reweights.slot {weights : Vec K} {fs fs' : List (GraphFactor K)} (reweights : Reweights weights fs fs')
    {slot : Nat} {weight : K} (present : weights[slot]? = some weight) :
    Scalar.nonNegative weight = true ∧
      ∃ f f', fs[slot]? = some f ∧ fs'[slot]? = some f' ∧ GraphFactor.Weighted weight f f' := by
  induction reweights generalizing slot with
  | nil => cases present
  | @cons first weights f f' fs fs' admitted weighted rest ih =>
      cases slot with
      | zero =>
          obtain rfl := Option.some.inj present
          exact ⟨admitted, f, f', rfl, rfl, weighted⟩
      | succ slot => exact ih present

theorem Reweights.length_eq {weights : Vec K} {fs fs' : List (GraphFactor K)}
    (reweights : Reweights weights fs fs') : weights.length = fs.length := by
  induction reweights with
  | nil => rfl
  | cons admitted first rest ih => rw [List.length_cons, List.length_cons, ih]

end Slots

/-- A sum that starts from minus zero. -/
theorem error_sum (graph : Graph ℝ) (values : Values ℝ) :
    graph.error values = List.sum <$> graph.factorErrors values := by
  unfold error
  cases graph.factorErrors values with
  | error failure => rfl
  | ok errors =>
      have zero : errors.foldl (· + ·) (-0) = errors.sum := by
        rw [neg_zero, List.sum_eq_foldl]
      simp only [Result.ok_bind, zero]
      rfl

theorem Reweights.errors_eq {weights : Vec ℝ} {fs fs' : List (GraphFactor ℝ)}
    (reweights : Reweights weights fs fs') (values : Values ℝ) :
    factorErrors ⟨fs'⟩ values = List.zipWith (· * ·) weights <$> factorErrors ⟨fs⟩ values := by
  unfold factorErrors
  induction reweights with
  | nil => rfl
  | @cons weight weights f f' fs fs' admitted first rest ih =>
      have nonneg : 0 ≤ weight := by simpa using admitted
      dsimp only at ih ⊢
      rw [List.mapM_cons, List.mapM_cons, first.error_eq nonneg, ih]
      cases f.error values with
      | error failure => rfl
      | ok error => cases fs.mapM (·.error values) <;> rfl

theorem Reweights.error_eq {weights : Vec ℝ} {fs fs' : List (GraphFactor ℝ)}
    (reweights : Reweights weights fs fs') (values : Values ℝ) :
    error ⟨fs'⟩ values = (fun errors => (List.zipWith (· * ·) weights errors).sum) <$> factorErrors ⟨fs⟩ values := by
  rw [error_sum, reweights.errors_eq]
  cases factorErrors ⟨fs⟩ values <;> rfl

end Graph

end GraduatedFit
