import GraduatedFit.Proofs.FiniteStates
import GraduatedFit.Proofs.GraphOperations
import GraduatedFit.Proofs.MirroredRuns
import GraduatedFit.Proofs.SlotOrder

/-! What a run may change of an estimate: the values of the variables that its graph refers to, and nothing else. -/

namespace GraduatedFit

/-- The same names with values of the same lengths, and no other values but where a variable may move. -/
structure Values.MovesOnly {K : Type} (moving : String → Prop) (values values' : Values K) : Prop where
  keys_eq : values'.keys = values.keys
  shape : values.SameShape values'
  others : ∀ key, ¬moving key → values'.get? key = values.get? key

namespace Values

variable {K : Type} {moving moving' : String → Prop} {values values' values'' : Values K}

theorem MovesOnly.refl (moving : String → Prop) (values : Values K) : values.MovesOnly moving values :=
  ⟨rfl, fun _ => rfl, fun _ _ => rfl⟩

theorem MovesOnly.trans (first : values.MovesOnly moving values') (second : values'.MovesOnly moving values'') :
    values.MovesOnly moving values'' where
  keys_eq := second.keys_eq.trans first.keys_eq
  shape key := (second.shape key).trans (first.shape key)
  others key still := (second.others key still).trans (first.others key still)

theorem MovesOnly.imp (moves : values.MovesOnly moving values') (wider : ∀ key, moving key → moving' key) :
    values.MovesOnly moving' values' :=
  ⟨moves.keys_eq, moves.shape, fun key still => moves.others key fun moved => still (wider key moved)⟩

theorem keys_mapValues (values : Values K) (f : String → Vec K → Vec K) : (values.mapValues f).keys = values.keys := by
  rw [keys, keys, mapValues, List.map_map]
  rfl

/-- A step moves the variables that it is laid out for. -/
theorem retract_movesOnly [Scalar K] {order : List String} {step : Vec K} {moved : Values K}
    (retracted : values.retract? order step = some moved) : values.MovesOnly (· ∈ order) moved := by
  refine ⟨?_, retract_shape retracted, ?_⟩
  · induction order generalizing values step with
    | nil =>
        obtain rfl := Option.some.inj retracted
        rfl
    | cons key order ih =>
        rw [retract?] at retracted
        split at retracted
        · exact ih retracted
        · split at retracted
          · exact (ih retracted).trans (keys_mapValues _ _)
          · cases retracted
  · intro other absent
    induction order generalizing values step with
    | nil =>
        obtain rfl := Option.some.inj retracted
        rfl
    | cons key order ih =>
        obtain ⟨apart, later⟩ := not_or.mp (List.mem_cons.not.mp absent)
        rw [retract?] at retracted
        split at retracted
        · exact ih retracted later
        · split at retracted
          · rw [ih retracted later, get?_mapValues]
            simp only [if_neg apart, Option.map_id']
          · cases retracted

end Values

/-- A slot of the graph is about the variable. -/
def Graph.Refers {K : Type} (graph : Graph K) (key : String) : Prop := ∃ f ∈ graph.factors, key ∈ f.keys

/-- Graphs with the same keys slot by slot refer to the same variables. -/
theorem Graph.refers_of_frame {K : Type} {graph graph' : Graph K}
    (frame : List.Forall₂ GraphFactor.SameFrame graph.factors graph'.factors) (key : String) :
    graph'.Refers key ↔ graph.Refers key := by
  have names : sortedNames (graph'.factors.flatMap (·.keys)) = sortedNames (graph.factors.flatMap (·.keys)) :=
    variableNames_of_frame frame
  rw [Refers, Refers, ← List.mem_flatMap, ← List.mem_flatMap, ← mem_sortedNames, names, mem_sortedNames]

namespace LeastSquares

variable {K : Type} [Scalar K]

section Runs

variable {clock : Clock} {graph : Graph K} {initial : Values K} {solver : Solver K}

/-- What a retraction keeps holds of every estimate that a run reports, and of the one that it returns. -/
theorem Method.Loops.always {method : Method K} {problem : Problem K} {cost : K} {run : Run K} {Holds : Values K → Prop}
    (loops : method.Loops clock problem initial cost run) (start : Holds initial)
    (retracted : ∀ values d moved, Holds values → problem.retract values d = .ok moved → Holds moved) :
    (∀ step ∈ run.steps, Holds step.values) ∧ ∀ solution, run.outcome = .ok solution → Holds solution.values := by
  have reported : ∀ step ∈ run.steps, Holds step.values := by
    cases loops with
    | @gaussNewton config history loops =>
        have preserved (s s' : State K) (step : Step K) (before : Holds s.values)
            (advanced : config.advance problem s = (s', .ok step)) : Holds s'.values ∧ Holds step.values := by
          obtain ⟨left, d, moved⟩ := config.advance_retracts problem advanced
          have after := retracted _ _ _ before moved
          exact ⟨left ▸ after, after⟩
        exact loops.always start preserved
    | @levenbergMarquardt config history loops =>
        have preserved (s s' : DampedState K) (step : Step K) (before : Holds s.values)
            (advanced : config.advance problem s = (s', .ok step)) : Holds s'.values ∧ Holds step.values := by
          obtain ⟨left, stayed | ⟨d, moved⟩⟩ := config.advance_retracts problem advanced
          · exact ⟨left ▸ stayed ▸ before, stayed ▸ before⟩
          · have after := retracted _ _ _ before moved
            exact ⟨left ▸ after, after⟩
        exact loops.always start preserved
  refine ⟨reported, fun solution returned => ?_⟩
  obtain ⟨σ, scheme, state, begun, history, keeps, fresh, inner, steps, outcome⟩ := loops.books
  obtain ⟨⟨step, status⟩, ended, rfl⟩ := Result.except_map_ok_iff.mp (outcome.symm.trans returned)
  exact reported step (steps ▸ List.mem_of_getLast? (inner.last ended).1)

/-- A run moves the variables that its graph refers to. -/
theorem Solver.optimize_movesOnly (solver : Solver K) (clock : Clock) (graph : Graph K) (initial : Values K) :
    let run := (solver.optimize clock graph initial).2
    (∀ step ∈ run.steps, initial.MovesOnly graph.Refers step.values) ∧
      ∀ solution, run.outcome = .ok solution → initial.MovesOnly graph.Refers solution.values := by
  rcases solver.optimize_cases clock graph initial with ⟨failure, failed, -⟩ | ⟨problem, cost, prepared, -, loops⟩
  · rw [failed]
    refine ⟨fun step member => ?_, fun solution returned => ?_⟩
    · cases member
    · cases returned
  · obtain ⟨-, layout, laid, -, pattern, -, rfl⟩ := Problem.prepare_ok_iff.mp prepared
    refine loops.always (.refl _ _) fun values d moved before retracted => before.trans ?_
    refine (Values.retract_movesOnly (Result.ofShape_ok_iff.mp retracted)).imp fun key listed => ?_
    exact ((Graph.layout_columns laid).referenced key).mp listed

end Runs

end LeastSquares

namespace Continuation.Optimizer

open LeastSquares

variable {K : Type} [Scalar K] {o : Optimizer K}

/-- A weighted problem refers to the variables of the graph. -/
theorem solved_movesOnly {graph : Graph K} {weights : Vec K} (reweighted : o.reweighted weights = .ok graph)
    {clock : Clock} {values : Values K} {solution : LeastSquares.Solution K}
    (returned : (o.config.base.build.optimize clock graph values).2.outcome = .ok solution) :
    values.MovesOnly o.graph.Refers solution.values := by
  have frame := (Graph.reweights_of_ok reweighted).frame
  refine ((o.config.base.build.optimize_movesOnly clock graph values).2 solution returned).imp fun key => ?_
  exact (Graph.refers_of_frame frame key).mp

theorem chain_movesOnly {clock : Nat → Clock} {number : Nat} {mu : K} {final : Optimizer K}
    {records : List (Iteration K)} (chain : Chain clock number mu o records final) :
    (∀ record ∈ records, o.estimate.MovesOnly o.graph.Refers record.values) ∧
      o.estimate.MovesOnly o.graph.Refers final.estimate := by
  induction chain with
  | nil number mu o =>
      refine ⟨fun record member => ?_, .refl _ _⟩
      cases member
  | @cons number mu o final record records first rest ih =>
      obtain ⟨graph, solution, reweighted, returned, values, -⟩ := first.solved
      have moved : o.estimate.MovesOnly o.graph.Refers record.values := values ▸ solved_movesOnly reweighted returned
      obtain ⟨later, left⟩ := ih
      refine ⟨fun other member => ?_, moved.trans left⟩
      rcases List.mem_cons.mp member with rfl | member
      · exact moved
      · exact moved.trans (later other member)

/-- A run moves the variables that its graph refers to, and what it returns is the estimate that it leaves. -/
theorem optimize_movesOnly (o : Optimizer K) (clock : Nat → Clock) :
    let run := o.optimize clock
    (∀ record ∈ run.iterations, o.estimate.MovesOnly o.graph.Refers record.values) ∧
      o.estimate.MovesOnly o.graph.Refers run.optimizer.estimate ∧
      ∀ solution, run.outcome = .ok solution → solution.values = run.optimizer.estimate := by
  have opens := o.optimize_opens clock
  dsimp only
  generalize o.optimize clock = run at opens ⊢
  cases opens with
  | unknown initial | costless initial start =>
      refine ⟨fun record member => ?_, .refl _ _, fun solution finished => ?_⟩
      · cases member
      · cases finished
  | @plain mu cost note initial start early said =>
      have none : [.configured o.config, .started mu cost, note].filterMap Event.iteration? = [] := by
        rcases said with rfl | rfl <;> rfl
      rcases o.evenly.solvePlain_cases (clock 0) mu with ⟨failure, -, same⟩ | ⟨base, solved, same⟩
      · rw [same]
        refine ⟨?_, .refl _ _, fun solution finished => by cases finished⟩
        simp [none]
      · rw [same]
        refine ⟨?_, ?_, fun solution finished => ?_⟩
        · simp [none]
        · exact (o.config.base.build.optimize_movesOnly (clock 0) o.graph o.estimate).2 base (solve_sound solved).1
        · obtain rfl := Except.ok.inj finished
          rfl
  | @looped mu cost initial start someFree positive =>
      have chain := continueFrom_chain clock o.config.maxIterations 0 mu o.evenly
      obtain ⟨recorded, left⟩ := chain_movesOnly chain
      refine ⟨?_, left, fun solution finished => ?_⟩
      · rw [Run.iterations_after]
        exact recorded
      · obtain ⟨values, -⟩ := ends_state (continueFrom_ends finished)
        rw [values, ← chain_final chain]
        rfl

theorem Reachable.movesOnly {graph : Graph K} {initial : Values K} {config : Config K}
    (reachable : Reachable graph initial config o) : initial.MovesOnly graph.Refers o.estimate := by
  induction reachable with
  | created made =>
      obtain ⟨-, -, rfl⟩ := create_ok_iff.mp made
      exact .refl _ _
  | @optimized o before clock ih =>
      have frame := graph.stripRobustLosses_remodels.imp fun f f' remodels => remodels.toSameFrame
      rw [← before.builtFrom.graph_eq] at frame
      refine ih.trans ((o.optimize_movesOnly clock).2.1.imp fun key => ?_)
      exact (Graph.refers_of_frame frame key).mp

/-- Whatever the scalars are: a run of a solver or of a continuation changes the values of the variables that its graph
refers to, and neither their lengths nor any other variable. This holds of every estimate that is reported, also by a
run that fails, and of every estimate that is kept from run to run. -/
theorem estimates_kept (graph : Graph K) (initial : Values K) :
    (∀ (solver : Solver K) (clock : Clock),
      let run := (solver.optimize clock graph initial).2
      (∀ step ∈ run.steps, initial.MovesOnly graph.Refers step.values) ∧
        ∀ solution, run.outcome = .ok solution → initial.MovesOnly graph.Refers solution.values) ∧
    ∀ (config : Config K) (o : Optimizer K), Reachable graph initial config o →
      initial.MovesOnly graph.Refers o.estimate ∧
      ∀ clock : Nat → Clock,
        let run := o.optimize clock
        (∀ record ∈ run.iterations, initial.MovesOnly graph.Refers record.values) ∧
          ∀ solution, run.outcome = .ok solution → initial.MovesOnly graph.Refers solution.values := by
  refine ⟨fun solver clock => solver.optimize_movesOnly clock graph initial, fun config o reachable => ?_⟩
  refine ⟨reachable.movesOnly, fun clock => ?_⟩
  have before := reachable.movesOnly
  have frame := graph.stripRobustLosses_remodels.imp fun f f' remodels => remodels.toSameFrame
  rw [← reachable.builtFrom.graph_eq] at frame
  obtain ⟨recorded, -, returned⟩ := o.optimize_movesOnly clock
  refine ⟨fun record member => ?_, fun solution finished => ?_⟩
  · exact before.trans ((recorded record member).imp fun key => (Graph.refers_of_frame frame key).mp)
  · rw [returned solution finished]
    exact (reachable.optimized clock).movesOnly

/-- Both iterations move the variable that the priors pull at, and neither moves the one beside it. -/
theorem halving_estimates_kept : ∃ solution, ((halving 4 1 1).optimize fun _ _ => 0).outcome = .ok solution ∧
    (∀ record ∈ ((halving 4 1 1).optimize fun _ _ => 0).iterations,
      (Values.beside 4).MovesOnly (Graph.pulled 1 1).Refers record.values) ∧
    (Values.beside 4).MovesOnly (Graph.pulled 1 1).Refers solution.values ∧
    ¬(Graph.pulled 1 1).Refers "y" ∧ solution.values.get? "y" = some [7, -7] ∧
    solution.values.get? "x" = some [halvingEnd] := by
  obtain ⟨finished, -⟩ := halving_optimize
  obtain ⟨-, continuations⟩ := estimates_kept (Graph.pulled 1 1) (Values.beside 4)
  obtain ⟨-, runs⟩ := continuations (halving 4 1 1).config (halving 4 1 1) (.created halving_created)
  obtain ⟨recorded, returned⟩ := runs fun _ _ => 0
  have moves := returned _ finished
  have apart : ¬(Graph.pulled 1 1).Refers "y" := by
    simp [Graph.Refers, Graph.pulled]
  refine ⟨_, finished, recorded, moves, apart, ?_, rfl⟩
  exact (moves.others "y" apart).trans rfl

end Continuation.Optimizer

end GraduatedFit
