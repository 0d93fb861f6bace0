import GraduatedFit.Proofs.KeptVariables
import GraduatedFit.Proofs.ScaledRuns

/-! The states that the iterations of a run find, also the state that an iteration fails in or that no iteration
follows. -/

namespace GraduatedFit.LeastSquares

section Schemes

variable {K σ : Type} {scheme : Scheme K σ} {limit : Nat} {start : σ} {history : History K σ} {Needed : σ → Prop}

/-- What an iteration needs to succeed it found in the first state too. -/
theorem Scheme.Loops.needed_first (loops : scheme.Loops limit start history)
    (needs : ∀ s s' step, scheme.advance s = (s', .ok step) → Needed s) {i : Nat} (made : i ≤ history.steps.length)
    (here : Needed (scheme.before start i)) : Needed start := by
  cases i with
  | zero => exact here
  | succ i => exact needs _ _ _ (loops.advances (List.getElem?_eq_getElem (show 0 < history.steps.length by omega)))

variable [Scalar K] {problem : Problem K} {state : σ → State K} {initial : Values K} {cost : K} {run : Run K}

omit [Scalar K] in
/-- The estimate that an iteration reports is the one that the next iteration finds. -/
theorem Run.estimate_succ {i : Nat} {step : Step K} (reported : run.steps[i]? = some step) (initial : Values K) :
    run.estimate initial (i + 1) = step.values := by
  rw [estimate, List.getD_cons_succ, List.getD_eq_getElem?_getD, List.getElem?_map, reported]
  rfl

/-- The estimate that an iteration finds is the one reported before it. -/
theorem Scheme.KeepsBooks.estimate (keeps : scheme.KeepsBooks problem state) (fresh : state start = .start initial cost)
    (loops : scheme.Loops limit start history) (steps : run.steps = history.steps) {i : Nat}
    (made : i ≤ history.steps.length) : run.estimate initial i = (state (scheme.before start i)).values := by
  have carries (s s' : σ) (step : Step K) (advanced : scheme.advance s = (s', .ok step)) :
      (state s').values = step.values := (keeps.reports s s' step advanced).values
  have carried := loops.carried carries made
  have first : (state start).values = initial := by rw [fresh]; rfl
  rw [Run.estimate, steps, List.getD_eq_getElem?_getD, ← first, carried]
  rfl

end Schemes

section Runs

variable {clock : Clock} {problem : Problem ℝ} {initial : Values ℝ} {cost : ℝ} {r : Vec ℝ} {J : SparseMat ℝ} {i : Nat}

/-- Every estimate of a run has the variables of the initial one. -/
theorem Method.Loops.estimate_shape {method : Method ℝ} {run : Run ℝ}
    (loops : method.Loops clock problem initial cost run) (i : Nat) : initial.SameShape (run.estimate initial i) := by
  have still : initial.SameShape initial := fun _ => rfl
  have reported := (loops.always still fun values d moved => Problem.retract_sameShape).1
  cases i with
  | zero => exact fun _ => rfl
  | succ i =>
      rw [Run.estimate, List.getD_cons_succ, List.getD_eq_getElem?_getD, List.getElem?_map]
      cases here : run.steps[i]? with
      | none => exact fun _ => rfl
      | some step => exact reported step (List.mem_of_getElem? here)

theorem Method.Loops.gaussNewton_history {config : GaussNewton ℝ} {run : Run ℝ}
    (loops : (Method.gaussNewton config).Loops clock problem initial cost run) :
    ∃ history, (config.scheme clock problem).Loops config.maxIterations (.start initial cost) history ∧
      run.steps = history.steps := by
  cases loops with
  | gaussNewton loops => exact ⟨_, loops, rfl⟩

theorem Method.Loops.levenbergMarquardt_history {config : LevenbergMarquardt ℝ} {run : Run ℝ}
    (loops : (Method.levenbergMarquardt config).Loops clock problem initial cost run) :
    ∃ history, (config.scheme clock problem).Loops config.maxIterations
        ⟨.start initial cost, ⟨config.damping, config.dampingNu⟩⟩ history ∧ run.steps = history.steps := by
  cases loops with
  | levenbergMarquardt loops => exact ⟨_, loops, rfl⟩

theorem GaussNewton.before_sameShape {config : GaussNewton ℝ} {history : History ℝ (State ℝ)}
    (loops : (config.scheme clock problem).Loops config.maxIterations (.start initial cost) history)
    (made : i ≤ history.steps.length) :
    initial.SameShape ((config.scheme clock problem).before (.start initial cost) i).values := by
  have preserved (s s' : State ℝ) (step : Step ℝ) (shape : initial.SameShape s.values)
      (advanced : config.advance problem s = (s', .ok step)) : initial.SameShape s'.values := by
    obtain ⟨left, d, moved⟩ := config.advance_retracts problem advanced
    exact left ▸ Problem.retract_sameShape shape moved
  have begun : initial.SameShape (State.start initial cost).values := fun _ => rfl
  exact loops.before_preserved begun preserved i made

theorem LevenbergMarquardt.before_sameShape {config : LevenbergMarquardt ℝ} {history : History ℝ (DampedState ℝ)}
    {start : DampedState ℝ} (fresh : start.toState = .start initial cost)
    (loops : (config.scheme clock problem).Loops config.maxIterations start history) (made : i ≤ history.steps.length) :
    initial.SameShape ((config.scheme clock problem).before start i).values := by
  have preserved (s s' : DampedState ℝ) (step : Step ℝ) (shape : initial.SameShape s.values)
      (advanced : config.advance problem s = (s', .ok step)) : initial.SameShape s'.values := by
    obtain ⟨left, stayed | ⟨d, moved⟩⟩ := config.advance_retracts problem advanced
    · exact left ▸ stayed ▸ shape
    · exact left ▸ Problem.retract_sameShape shape moved
  have begun : initial.SameShape start.values := by
    rw [fresh]
    exact fun _ => rfl
  exact loops.before_preserved begun preserved i made

/-- Once the first system is there, every later state follows it. -/
theorem GaussNewton.before_follows {config : GaussNewton ℝ} {history : History ℝ (State ℝ)}
    (loops : (config.scheme clock problem).Loops config.maxIterations (.start initial cost) history)
    (inside : problem.pattern.Inside) (made : i ≤ history.steps.length)
    (linear : problem.linearize ((config.scheme clock problem).before (.start initial cost) i).values = .ok (r, J)) :
    ∃ r₀ J₀, problem.linearize initial = .ok (r₀, J₀) ∧
      ((config.scheme clock problem).before (.start initial cost) i).Follows config.useScaling config.damping.isSome
        initial J₀ := by
  have needs (s s' : State ℝ) (step : Step ℝ) (advanced : config.advance problem s = (s', .ok step)) :
      ∃ r J, problem.linearize s.values = .ok (r, J) := by
    obtain ⟨r, J, -, linear, -⟩ := advance_ok_iff.mp advanced
    exact ⟨r, J, linear⟩
  obtain ⟨r₀, J₀, first⟩ : ∃ r₀ J₀, problem.linearize initial = .ok (r₀, J₀) :=
    loops.needed_first needs made ⟨r, J, linear⟩
  exact ⟨r₀, J₀, first, loops.before_preserved (State.start_follows _ _ _ _ cost)
    (fun s s' step follows advanced => (advance_solves inside first follows advanced).1) i made⟩

theorem LevenbergMarquardt.before_follows {config : LevenbergMarquardt ℝ} {history : History ℝ (DampedState ℝ)}
    {start : DampedState ℝ} (fresh : start.toState = .start initial cost)
    (loops : (config.scheme clock problem).Loops config.maxIterations start history)
    (inside : problem.pattern.Inside) (made : i ≤ history.steps.length)
    (linear : problem.linearize ((config.scheme clock problem).before start i).values = .ok (r, J)) :
    ∃ r₀ J₀, problem.linearize initial = .ok (r₀, J₀) ∧
      ((config.scheme clock problem).before start i).Follows config.useScaling true initial J₀ := by
  have begun : start.values = initial := by rw [fresh]; rfl
  have needs (s s' : DampedState ℝ) (step : Step ℝ) (advanced : config.advance problem s = (s', .ok step)) :
      ∃ r J, problem.linearize s.values = .ok (r, J) := by
    obtain ⟨r, J, -, linear, -⟩ := advance_ok_iff.mp advanced
    exact ⟨r, J, linear⟩
  obtain ⟨r₀, J₀, first⟩ : ∃ r₀ J₀, problem.linearize start.values = .ok (r₀, J₀) :=
    loops.needed_first needs made ⟨r, J, linear⟩
  rw [begun] at first
  have follows : start.toState.Follows config.useScaling true initial J₀ := fresh ▸ State.start_follows _ _ _ _ cost
  have preserved (s s' : DampedState ℝ) (step : Step ℝ) (follows : s.toState.Follows config.useScaling true initial J₀)
      (advanced : config.advance problem s = (s', .ok step)) : s'.toState.Follows config.useScaling true initial J₀ :=
    (advance_solves inside first follows advanced).1
  exact ⟨r₀, J₀, first, loops.before_preserved follows preserved i made⟩

end Runs

end GraduatedFit.LeastSquares
