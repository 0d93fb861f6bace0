import GraduatedFit.Proofs.ControlParameter
import GraduatedFit.Proofs.FailedRun
import GraduatedFit.Proofs.ReweightedLoss
import GraduatedFit.Proofs.SlotOrder

/-! A continuation of the slots in another order: the same iterations, with the weights in that order. -/

namespace GraduatedFit

section Lists

variable {α β γ : Type}

theorem rearrange_zipWith (order : List Nat) (f : α → β → γ) {xs : List α} {ys : List β}
    (same : xs.length = ys.length) :
    rearrange order (List.zipWith f xs ys) = List.zipWith f (rearrange order xs) (rearrange order ys) := by
  rw [← List.map_uncurry_zip_eq_zipWith, rearrange_map, rearrange_zip order same, List.map_uncurry_zip_eq_zipWith]

theorem length_rearrange {order : List Nat} {xs : List α} (permutes : order.Perm (List.range xs.length)) :
    (rearrange order xs).length = xs.length := (rearrange_perm permutes).length_eq

theorem rearrange_replicate {order : List Nat} {n : Nat} (permutes : order.Perm (List.range n)) (x : α) :
    rearrange order (List.replicate n x) = List.replicate n x := by
  have moved : (rearrange order (List.replicate n x)).Perm (List.replicate n x) :=
    rearrange_perm (by rwa [List.length_replicate])
  exact List.perm_replicate.mp moved

theorem rearrange_places {order : List Nat} {n : Nat} (permutes : order.Perm (List.range n)) :
    rearrange order (List.range n) = order := by
  have each : ∀ k ∈ order, (List.range n)[k]? = some k := fun k member =>
    List.getElem?_range (List.mem_range.mp (permutes.mem_iff.mp member))
  rw [rearrange, List.filterMap_congr each, List.filterMap_some]

/-- The places that are listed, after each of them has moved. -/
theorem contains_places {order : List Nat} {n : Nat} (permutes : order.Perm (List.range n)) (slots : List Nat) :
    (List.range n).map (slots.map order.idxOf).contains = rearrange order ((List.range n).map slots.contains) := by
  have length : order.length = n := by simpa using permutes.length_eq
  have different : order.Nodup := permutes.nodup_iff.mpr List.nodup_range
  rw [rearrange_map, rearrange_places permutes]
  refine List.ext_getElem (by simp [length]) fun k left right => ?_
  have bound : k < order.length := by simpa using right
  rw [List.getElem_map, List.getElem_map, List.getElem_range, Bool.eq_iff_iff, List.contains_iff_mem,
    List.contains_iff_mem, List.mem_map]
  constructor
  · rintro ⟨slot, member, rfl⟩
    rwa [List.getElem_idxOf]
  · intro member
    exact ⟨order[k], member, different.idxOf_getElem k bound⟩

/-- A traversal that looks up a flag for each place pairs the flags with the elements. -/
theorem mapIdx_flags {flags : List Bool} {xs : List α} (same : flags.length = xs.length) (f : Bool → α → β) :
    xs.mapIdx (fun i x => f (flags.getD i false) x) = List.zipWith f flags xs := by
  refine List.ext_getElem (by simp [same]) fun i left right => ?_
  have inside : i < flags.length := by
    rw [same]
    simpa using left
  simp [inside]

end Lists

namespace Graph

/-- Weights follow their slots. -/
theorem Reweights.rearrange {K : Type} [Scalar K] {weights : Vec K} {fs fs' : List (GraphFactor K)} (order : List Nat)
    (reweights : Reweights weights fs fs') :
    Reweights (GraduatedFit.rearrange order weights) (GraduatedFit.rearrange order fs)
      (GraduatedFit.rearrange order fs') := by
  induction order with
  | nil => exact .nil
  | cons k order ih =>
      rw [rearrange_cons, rearrange_cons, rearrange_cons]
      rcases present : weights[k]? with _ | weight
      · have outside := List.getElem?_eq_none_iff.mp present
        have outside' : fs.length ≤ k := reweights.length_eq ▸ outside
        have outside'' : fs'.length ≤ k := reweights.frame.length_eq ▸ outside'
        rw [List.getElem?_eq_none outside', List.getElem?_eq_none outside'']
        exact ih
      · obtain ⟨admitted, f, f', found, found', weighted⟩ := reweights.slot present
        rw [found, found']
        exact .cons admitted weighted ih

theorem reweight_rearrange {K : Type} [Scalar K] {order : List Nat} {graph g : Graph K} {weights : Vec K}
    (done : graph.reweight weights = .ok g) :
    (graph.rearrange order).reweight (GraduatedFit.rearrange order weights) = .ok (g.rearrange order) := by
  have reweights := (reweights_of_ok done).rearrange order
  exact (reweight_ok_iff reweights.length_eq).mpr reweights

end Graph

namespace Continuation

section Slots

/-- The largest error does not depend on the order of the errors. -/
theorem largestError_perm {errors errors' : List ℝ} (moved : errors'.Perm errors) :
    largestError errors' = largestError errors := by
  refine eq_of_forall_ge_iff fun bound => ?_
  rw [largestError_le_iff, largestError_le_iff]
  simp only [moved.mem_iff]

variable {order : List Nat} {known : List Bool}

theorem weights_rearrange (family : Family) {errors : List ℝ} (mu threshold : ℝ)
    (permutes : order.Perm (List.range errors.length)) (slots : known.length = errors.length) :
    weights family (GraduatedFit.rearrange order errors) mu threshold
        (fun slot => (GraduatedFit.rearrange order known).getD slot false) =
      GraduatedFit.rearrange order (weights family errors mu threshold fun slot => known.getD slot false) := by
  have lengths : (GraduatedFit.rearrange order known).length = (GraduatedFit.rearrange order errors).length := by
    rw [length_rearrange permutes, length_rearrange (slots ▸ permutes), slots]
  have pinned (known : List Bool) (errors : List ℝ) (same : known.length = errors.length) :=
    mapIdx_flags same fun pinned error => if pinned then 1 else family.weight error mu threshold
  rw [weights, weights, pinned _ _ lengths, pinned _ _ slots, rearrange_zipWith order _ slots]

theorem saturated_rearrange {weights : Vec ℝ} (tolerance : ℝ) (permutes : order.Perm (List.range weights.length))
    (slots : known.length = weights.length) :
    saturated (GraduatedFit.rearrange order weights) tolerance
        (fun slot => (GraduatedFit.rearrange order known).getD slot false) =
      saturated weights tolerance fun slot => known.getD slot false := by
  have lengths : (GraduatedFit.rearrange order known).length = (GraduatedFit.rearrange order weights).length := by
    rw [length_rearrange permutes, length_rearrange (slots ▸ permutes), slots]
  let decided (pinned : Bool) (w : ℝ) : Bool := pinned || Scalar.le w tolerance || nearOne tolerance w
  have pairs (known : List Bool) (weights : Vec ℝ) (same : known.length = weights.length) :
      (weights.zipIdx.all fun (w, slot) => decided (known.getD slot false) w) =
        (List.zipWith decided known weights).all id := by
    rw [← mapIdx_flags same, List.mapIdx_eq_zipIdx_map, List.all_map]
    rfl
  have moved : (GraduatedFit.rearrange order (List.zipWith decided known weights)).Perm
      (List.zipWith decided known weights) :=
    rearrange_perm (by rwa [List.length_zipWith, slots, min_self])
  rw [saturated, saturated, (rearrange_perm permutes).any_eq]
  refine congrArg (· && _) ?_
  rw [pairs _ _ lengths, pairs _ _ slots, ← rearrange_zipWith order _ slots, moved.all_eq]

end Slots

section Runs

variable {K : Type}

/-- The trusted slots at their new places. -/
def Config.rearrange (order : List Nat) (config : Config K) : Config K :=
  { config with knownInliers := config.knownInliers.map order.idxOf }

def Iteration.rearrange (order : List Nat) (record : Iteration K) : Iteration K :=
  { record with weights := GraduatedFit.rearrange order record.weights }

def Solution.rearrange (order : List Nat) (solution : Solution K) : Solution K :=
  { solution with weights := GraduatedFit.rearrange order solution.weights }

def Event.rearrange (order : List Nat) : Event K → Event K
  | .configured config => .configured (config.rearrange order)
  | .iterated record => .iterated (record.rearrange order)
  | .finished outcome iterations weights => .finished outcome iterations (GraduatedFit.rearrange order weights)
  | event => event

/-- The optimizer of the rearranged graph: what it holds for a slot it holds at the new place of the slot. -/
def Optimizer.rearrange (order : List Nat) (o : Optimizer K) : Optimizer K where
  graph := o.graph.rearrange order
  estimate := o.estimate
  config := o.config.rearrange order
  weights := GraduatedFit.rearrange order o.weights
  known := GraduatedFit.rearrange order o.known

def Run.rearrange (order : List Nat) (run : Run K) : Run K where
  events := run.events.map (·.rearrange order)
  optimizer := run.optimizer.rearrange order
  outcome := run.outcome.map (·.rearrange order)

theorem Event.map_append_one (order : List Nat) (events : List (Event K)) (event : Event K) :
    (events ++ [event]).map (Event.rearrange order) = events.map (Event.rearrange order) ++ [event.rearrange order] :=
  List.map_append

theorem Run.rearrange_after (order : List Nat) (events : List (Event K)) (run : Run K) :
    (run.after events).rearrange order = (run.rearrange order).after (events.map (·.rearrange order)) := by
  simp [after, rearrange]

end Runs

namespace Optimizer

open LeastSquares

section Steps

variable {order : List Nat} {o : Optimizer ℝ}

theorem weightsSaturated_rearrange {weights : Vec ℝ} (permutes : order.Perm (List.range weights.length))
    (slots : o.known.length = weights.length) :
    (o.rearrange order).weightsSaturated (GraduatedFit.rearrange order weights) = o.weightsSaturated weights :=
  saturated_rearrange _ permutes slots

/-- A base solve of a rearranged graph. -/
theorem solve_rearrange {g : Graph ℝ} (permutes : order.Perm (List.range g.size))
    (untimed : o.config.base.criteria.timeout = none) (clock clock' : Clock) {solution : LeastSquares.Solution ℝ}
    {events : List (Event ℝ)} (solved : o.solve clock g = (events, .ok solution)) :
    (o.rearrange order).solve clock' (g.rearrange order) = (events.map (·.rearrange order), .ok solution) := by
  obtain ⟨rfl, checked⟩ := Prod.mk.inj solved
  obtain ⟨found, returned, passed⟩ := Result.bind_ok_iff.mp checked
  have same :
      ((o.rearrange order).config.base.build.optimize clock' (g.rearrange order) (o.rearrange order).estimate).2 =
        (o.config.base.build.optimize clock g o.estimate).2 :=
    Solver.optimize_rearrange permutes untimed clock clock' returned
  rw [solve, same, returned, Result.ok_bind, passed]
  refine congrArg (·, _) ?_
  split <;> rfl

variable (permutes : order.Perm (List.range o.graph.size)) (slots : o.known.length = o.graph.size)
include permutes

theorem initialMu_rearrange {mu : ℝ} (initially : o.initialMu = .ok mu) : (o.rearrange order).initialMu = .ok mu := by
  obtain ⟨errors, known, rest⟩ := Result.bind_ok_iff.mp initially
  have count : errors.length = o.graph.size := (Result.mapM_ok_iff.mp known).length_eq.symm
  have known' : (o.rearrange order).graph.factorErrors (o.rearrange order).estimate =
      .ok (GraduatedFit.rearrange order errors) := Graph.factorErrors_rearrange known
  rw [initialMu, known', Result.ok_bind, largestError_perm (rearrange_perm (count ▸ permutes))]
  exact rest

include slots

theorem weightsAt_rearrange {values : Values ℝ} {mu : ℝ} {weights : Vec ℝ}
    (weighed : o.weightsAt values mu = .ok weights) :
    (o.rearrange order).weightsAt values mu = .ok (GraduatedFit.rearrange order weights) ∧
      weights.length = o.graph.size := by
  obtain ⟨errors, known, rest⟩ := Result.bind_ok_iff.mp weighed
  rw [checkErrors_real, Result.ok_bind] at rest
  obtain rfl := Except.ok.inj rest
  have count : errors.length = o.graph.size := (Result.mapM_ok_iff.mp known).length_eq.symm
  have known' : (o.rearrange order).graph.factorErrors values = .ok (GraduatedFit.rearrange order errors) :=
    Graph.factorErrors_rearrange known
  refine ⟨?_, List.length_mapIdx.trans count⟩
  rw [weightsAt, known', Result.ok_bind, checkErrors_real, Result.ok_bind]
  exact congrArg Except.ok (weights_rearrange _ _ _ (count ▸ permutes) (slots.trans count.symm))

/-- An iteration that succeeds, of the rearranged graph. -/
theorem step_rearrange (untimed : o.config.base.criteria.timeout = none) (clock clock' : Clock) {iteration : Nat}
    {mu : ℝ} {events : List (Event ℝ)} {next : Optimizer ℝ} {record : Iteration ℝ}
    (stepped : o.step clock iteration mu = (events, .ok (next, record))) :
    (o.rearrange order).step clock' iteration mu =
      (events.map (·.rearrange order), .ok (next.rearrange order, record.rearrange order)) ∧
      record.weights.length = o.graph.size := by
  unfold step at stepped
  split at stepped
  · cases stepped
  · rename_i g reweighted
    rcases solved : o.solve clock g with ⟨begun, outcome⟩
    rw [solved] at stepped
    obtain ⟨rfl, produced⟩ := Prod.mk.inj stepped
    obtain ⟨solution, rfl, moved⟩ := Result.bind_ok_iff.mp produced
    obtain ⟨weights, weighed, done⟩ := Result.bind_ok_iff.mp moved
    obtain ⟨rfl, rfl⟩ := Prod.mk.inj (Except.ok.inj done)
    have size : g.size = o.graph.size := (Graph.reweights_of_ok reweighted).frame.length_eq.symm
    obtain ⟨weighed', count⟩ := weightsAt_rearrange permutes slots weighed
    have reweighted' : (o.rearrange order).reweighted (o.rearrange order).weights = .ok (g.rearrange order) :=
      Graph.reweight_rearrange reweighted
    refine ⟨?_, count⟩
    rw [step, reweighted']
    dsimp only
    rw [solve_rearrange (size ▸ permutes) untimed clock clock' solved]
    dsimp only
    rw [Result.ok_bind, weighed']
    rfl

end Steps

section Rearranged

variable {order : List Nat} {o : Optimizer ℝ}

/-- The two runs stay in step until the first one ends. -/
theorem continueFrom_rearrange (untimed : o.config.base.criteria.timeout = none) (clock clock' : Nat → Clock)
    (left iteration : Nat) (mu : ℝ) (permutes : order.Perm (List.range o.graph.size))
    (slots : o.known.length = o.graph.size) {solution : Solution ℝ}
    (returned : (continueFrom clock left iteration mu o).outcome = .ok solution) :
    continueFrom clock' left iteration mu (o.rearrange order) =
      (continueFrom clock left iteration mu o).rearrange order := by
  induction left generalizing iteration mu o with
  | zero => rfl
  | succ left ih =>
      have continues := continueFrom_continues clock left iteration mu o
      generalize continueFrom clock (left + 1) iteration mu o = run at continues returned ⊢
      have saturated {record : Iteration ℝ} (count : record.weights.length = o.graph.size) :
          ((o.moveTo record).rearrange order).weightsSaturated ((o.moveTo record).rearrange order).weights =
            o.weightsSaturated record.weights :=
        weightsSaturated_rearrange (o := o.moveTo record) (count ▸ permutes) (slots.trans count.symm)
      -- the second run takes the step of the first one, and meets the same tests
      cases continues with
      | failed unfinished => cases returned
      | saturated stepped decided =>
          obtain ⟨same, count⟩ :=
            step_rearrange permutes slots untimed _ (clock' iteration) (Prod.ext rfl stepped)
          rw [continueFrom_saturated left (congrArg Prod.snd same) ((saturated count).trans decided), same,
            Run.rearrange_after, Event.map_append_one, Event.map_append_one]
          rfl
      | muConverged stepped undecided met =>
          obtain ⟨same, count⟩ :=
            step_rearrange permutes slots untimed _ (clock' iteration) (Prod.ext rfl stepped)
          rw [continueFrom_muConverged left (congrArg Prod.snd same) ((saturated count).trans undecided) met, same,
            Run.rearrange_after, Event.map_append_one, Event.map_append_one]
          rfl
      | @later record stepped undecided unmet =>
          obtain ⟨same, count⟩ :=
            step_rearrange permutes slots untimed _ (clock' iteration) (Prod.ext rfl stepped)
          have rest := ih (o := o.moveTo record) untimed (iteration + 1) (o.nextMu mu) permutes slots returned
          rw [continueFrom_later left (congrArg Prod.snd same) ((saturated count).trans undecided) unmet, same,
            Run.rearrange_after, Event.map_append_one, ← rest]
          rfl

theorem solvePlain_rearrange (untimed : o.config.base.criteria.timeout = none) (clock clock' : Clock) {mu : ℝ}
    (permutes : order.Perm (List.range o.graph.size)) {solution : Solution ℝ}
    (returned : (o.solvePlain clock mu).outcome = .ok solution) :
    (o.rearrange order).solvePlain clock' mu = (o.solvePlain clock mu).rearrange order := by
  unfold solvePlain at returned ⊢
  rcases solved : o.solve clock o.graph with ⟨events, failure | base⟩
  · rw [solved] at returned
    cases returned
  · have solved' : (o.rearrange order).solve clock' (o.rearrange order).graph =
        (events.map (·.rearrange order), .ok base) := solve_rearrange permutes untimed clock clock' solved
    rw [solved']
    dsimp only
    rw [Run.rearrange_after]
    rfl

theorem evenly_rearrange (permutes : order.Perm (List.range o.graph.size)) :
    (o.rearrange order).evenly = o.evenly.rearrange order := by
  have size : (o.rearrange order).graph.size = o.graph.size := Graph.size_rearrange permutes
  rw [evenly, size, ← rearrange_replicate permutes 1]
  rfl

/-- A run that ends well is, up to the order of the slots, the run of the rearranged optimizer. -/
theorem optimize_rearrange (untimed : o.config.base.criteria.timeout = none) (clock clock' : Nat → Clock)
    (permutes : order.Perm (List.range o.graph.size)) (slots : o.known.length = o.graph.size) {solution : Solution ℝ}
    (returned : (o.optimize clock).outcome = .ok solution) :
    (o.rearrange order).optimize clock' = (o.optimize clock).rearrange order := by
  rcases initially : o.initialMu with failure | mu
  · rw [optimize_unknown clock initially] at returned
    cases returned
  rcases start : o.graph.error o.estimate with failure | cost
  · rw [optimize_costless clock initially start] at returned
    cases returned
  have start' : (o.rearrange order).graph.error (o.rearrange order).estimate = .ok cost :=
    Graph.error_rearrange permutes start
  have same_known : (o.rearrange order).known.all id = o.known.all id := (rearrange_perm (slots ▸ permutes)).all_eq
  rw [optimize_started clock initially start] at returned ⊢
  rw [optimize_started clock' (initialMu_rearrange permutes initially) start', evenly_rearrange permutes, same_known]
  split at returned
  · rename_i all_known
    rw [if_pos all_known, if_pos all_known, Run.rearrange_after,
      solvePlain_rearrange (o := o.evenly) untimed (clock 0) (clock' 0) permutes returned]
    rfl
  · rename_i some_free
    rw [if_neg some_free, if_neg some_free]
    split at returned
    · rename_i inside
      rw [if_pos inside, if_pos inside, Run.rearrange_after,
        solvePlain_rearrange (o := o.evenly) untimed (clock 0) (clock' 0) permutes returned]
      rfl
    · rename_i outside
      rw [if_neg outside, if_neg outside, Run.rearrange_after]
      exact congrArg (Run.after _)
        (continueFrom_rearrange (o := o.evenly) untimed clock clock' _ 0 mu permutes slots returned)

/-- A new optimizer of the rearranged graph. -/
theorem create_rearrange {graph : Graph ℝ} {initial : Values ℝ} {config : Config ℝ}
    (permutes : order.Perm (List.range graph.size)) (made : create graph initial config = .ok o) :
    create (graph.rearrange order) initial (config.rearrange order) = .ok (o.rearrange order) := by
  obtain ⟨valid, inside, rfl⟩ := create_ok_iff.mp made
  have size : (graph.rearrange order).size = graph.size := Graph.size_rearrange permutes
  refine create_ok_iff.mpr ⟨valid, ?_, ?_⟩
  · intro place member
    obtain ⟨slot, trusted, rfl⟩ := List.mem_map.mp member
    have listed : slot ∈ order := permutes.mem_iff.mpr (List.mem_range.mpr (inside slot trusted))
    have below := List.idxOf_lt_length_of_mem listed
    rwa [permutes.length_eq, List.length_range, ← size] at below
  · have even : GraduatedFit.rearrange order (List.replicate graph.size (1 : ℝ)) = List.replicate graph.size 1 :=
      rearrange_replicate permutes 1
    have known := contains_places permutes config.knownInliers
    rw [rearrange, Graph.rearrange_stripRobustLosses, size, even, ← known]
    rfl

end Rearranged

/-- Renumbering the slots of a graph changes no run that ends well but for the order of the weights, unless a time limit
is set. -/
theorem slot_order_immaterial (graph : Graph ℝ) (initial : Values ℝ) {order : List Nat}
    (permutes : order.Perm (List.range graph.size)) :
    (∀ (solver : Solver ℝ) (clock clock' : Clock) (solution : LeastSquares.Solution ℝ),
      solver.method.criteria.timeout = none → (solver.optimize clock graph initial).2.outcome = .ok solution →
      (solver.optimize clock' (graph.rearrange order) initial).2 = (solver.optimize clock graph initial).2) ∧
    ∀ (config : Config ℝ) (o : Optimizer ℝ),
      (create graph initial config = .ok o →
        create (graph.rearrange order) initial (config.rearrange order) = .ok (o.rearrange order)) ∧
      (Reachable graph initial config o → config.base.criteria.timeout = none →
        ∀ (clock clock' : Nat → Clock) (solution : Solution ℝ), (o.optimize clock).outcome = .ok solution →
        ((o.rearrange order).optimize clock').outcome =
          .ok { solution with weights := GraduatedFit.rearrange order solution.weights } ∧
        (o.rearrange order).optimize clock' = (o.optimize clock).rearrange order) := by
  refine ⟨?_, fun config o => ⟨create_rearrange permutes, ?_⟩⟩
  · intro solver clock clock' solution untimed returned
    exact Solver.optimize_rearrange permutes untimed clock clock' returned
  · intro reachable untimed clock clock' solution returned
    have built := reachable.builtFrom
    have slots : o.known.length = o.graph.size := by
      rw [built.known_eq, List.length_map, List.length_range, built.size_eq]
    have same := optimize_rearrange (built.config_eq.symm ▸ untimed) clock clock' (built.size_eq.symm ▸ permutes) slots
      returned
    refine ⟨?_, same⟩
    rw [same, Run.rearrange, returned]
    rfl

/-- The two priors with the second one first, under another clock: the estimate moves as before. -/
theorem pulled_slot_order :
    (∃ solution, ((Method.levenbergMarquardt .brief).build.optimize (fun _ => 7) ((Graph.pulled 1 1).rearrange [1, 0])
      (.beside 4)).2.outcome = .ok solution ∧ solution.values = .beside (5 / 3)) ∧
    create ((Graph.pulled 1 1).rearrange [1, 0]) (.beside 4) ((halving 4 1 1).config.rearrange [1, 0]) =
      .ok ((halving 4 1 1).rearrange [1, 0]) ∧
    (((halving 4 1 1).rearrange [1, 0]).optimize fun _ _ => 7).outcome =
      .ok ⟨.beside halvingEnd, [heed 8 (halvingEnd - 1), heed 8 halvingEnd], 2, .maxIterationsReached, 4⟩ := by
  have permutes : [1, 0].Perm (List.range (Graph.pulled 1 1).size) := by decide
  obtain ⟨solved, continued⟩ := slot_order_immaterial (.pulled 1 1) (.beside 4) permutes
  obtain ⟨created, optimized⟩ := continued (halving 4 1 1).config (halving 4 1 1)
  obtain ⟨finished, -⟩ := halving_optimize
  refine ⟨?_, created halving_created, (optimized (.created halving_created) rfl (fun _ _ => 0) _ _ finished).1⟩
  obtain ⟨solution, -, returned, -, -, values⟩ := LevenbergMarquardt.run_evenly 4 (fun _ => 0) none
  have same := solved (Method.levenbergMarquardt .brief).build (fun _ => 0) (fun _ => 7) solution rfl returned
  refine ⟨solution, same ▸ returned, ?_⟩
  rw [values]
  norm_num

end Optimizer

end Continuation

end GraduatedFit
