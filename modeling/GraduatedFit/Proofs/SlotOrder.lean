import GraduatedFit.Proofs.MatchedRuns
import GraduatedFit.Proofs.MovedEstimate
import GraduatedFit.Proofs.Rearrangement

/-! A solver does not see the order of the slots: the rows of its systems are stacked in another order, and that is
all. -/

namespace GraduatedFit

namespace Values

variable {K : Type}

/-- The same variables of the same dimensions. -/
def SameShape (values values' : Values K) : Prop := ∀ key, values'.dim? key = values.dim? key

theorem find_dim {β : Type} (values : Values K) (key : String) (f : Nat → Result K β) :
    (do f (← values.find key).length) = (values.dim? key).elim (.failModel (.lookup (.missing key))) f := by
  unfold find dim?
  cases values.get? key <;> rfl

/-- What only asks for the dimension of a variable. -/
theorem find_length {β : Type} {values values' : Values K} (same : values.SameShape values') (key : String)
    (f : Nat → Result K β) : (do f (← values'.find key).length) = (do f (← values.find key).length) := by
  rw [find_dim, find_dim, same key]

/-- A step moves the variables and keeps their dimensions. -/
theorem retract_shape [Scalar K] {values moved : Values K} {order : List String} {step : Vec K}
    (retracted : values.retract? order step = some moved) : values.SameShape moved := by
  induction order generalizing values step with
  | nil =>
      obtain rfl := Option.some.inj retracted
      exact fun _ => rfl
  | cons key order ih =>
      rw [retract?] at retracted
      split at retracted
      · exact ih retracted
      · rename_i value found
        split at retracted
        · rename_i enough
          intro other
          rw [ih retracted other, dim?, dim?, get?_mapValues, Option.map_map]
          by_cases here : other = key
          · simp [here, found, enough]
          · simp [here, Function.comp_def]
        · cases retracted

end Values

namespace Graph

section Shapes

variable {K : Type} {values values' : Values K} (same : values.SameShape values')
include same

theorem positionsFrom_shape (layout : Layout) (row : Nat) (fs : List (GraphFactor K)) :
    positionsFrom values' layout row fs = positionsFrom values layout row fs := by
  induction fs generalizing row with
  | nil => rfl
  | cons f fs ih =>
      have block (start : Nat) (key : String) :=
        Values.find_length same key fun size => pure (blockPositions row f.noise.dim start size)
      simp only [positionsFrom, ih, block]

/-- The positions of the entries depend on the dimensions of the variables only. -/
theorem pattern_shape (graph : Graph K) (layout : Layout) :
    graph.pattern values' layout = graph.pattern values layout := by
  rw [pattern, pattern, positionsFrom_shape same]

theorem Columns.of_shape {graph : Graph K} {layout : Layout} (columns : graph.Columns values layout) :
    graph.Columns values' layout where
  increasing := columns.increasing
  referenced := columns.referenced
  sizes block member := (same _).trans (columns.sizes block member)
  starts := columns.starts
  width := columns.width
  covered := columns.covered
  inside := columns.inside

end Shapes

section Rearranged

variable {order : List Nat} {graph : Graph ℝ} {values : Values ℝ} {layout : Layout}
variable (permutes : order.Perm (List.range graph.size))
include permutes

theorem Columns.rearrange (columns : graph.Columns values layout) : (graph.rearrange order).Columns values layout where
  increasing := columns.increasing
  referenced key := by
    rw [columns.referenced]
    exact exists_congr fun f => and_congr_left fun _ => (rearrange_factors_perm permutes).mem_iff.symm
  sizes := columns.sizes
  starts := columns.starts
  width := columns.width
  covered := columns.covered
  inside := columns.inside

/-- The slots emit what they emitted, in another order and in other rows. -/
theorem pattern_rearrange (columns : graph.Columns values layout)
    (counted : graph.residualDimension = (graph.factors.map (·.noise.dim)).sum) {systems : List (Vec ℝ × Mat ℝ)}
    (each : List.Forall₂ (GraphFactor.HasSystem values) graph.factors systems) :
    ∃ positions blocks,
      (graph.rearrange order).pattern values layout = .ok ⟨graph.residualDimension, layout.totalDof, positions⟩ ∧
      (graph.rearrange order).factors.mapM (linearizeBlock values) = .ok blocks ∧
      Emitted values layout 0 (graph.rearrange order).factors (GraduatedFit.rearrange order systems) positions
        blocks := by
  have columns' := columns.rearrange permutes
  have each' : List.Forall₂ (GraphFactor.HasSystem values) (graph.rearrange order).factors
      (GraduatedFit.rearrange order systems) := rearrange_forall₂ order each
  obtain ⟨positions, blocks, positioned, blockwise, emitted⟩ := emitted_exists 0 each'
    (fun f present key member => ⟨_, columns'.start_exists (columns'.listed present member)⟩)
    (fun f present key member => columns'.contains (columns'.listed present member))
  refine ⟨positions, blocks, pattern_ok_iff.mpr ⟨positions, positioned, ?_, ?_⟩, blockwise, emitted⟩
  · intro p member
    have named : positions =
        (graphEntries values layout 0 (graph.rearrange order).factors
          (GraduatedFit.rearrange order systems)).map Prod.fst := by
      rw [← emitted.entries, List.map_fst_zip emitted.count.ge]
    rw [named] at member
    obtain ⟨e, present, rfl⟩ := List.mem_map.mp member
    obtain ⟨row, column⟩ := columns'.entry_inside each' present
    have rows : ((graph.rearrange order).factors.map (·.noise.dim)).sum = (graph.factors.map (·.noise.dim)).sum :=
      ((rearrange_factors_perm permutes).map _).sum_eq
    rw [length_residual each', rows, ← counted] at row
    rw [residualDimension_rearrange permutes]
    exact ⟨row, column⟩
  · rw [residualDimension_rearrange permutes]

/-- The linear system has the same products. -/
theorem linearize_rearrange (columns : graph.Columns values layout)
    (counted : graph.residualDimension = (graph.factors.map (·.noise.dim)).sum) {pattern pattern' : Pattern}
    (found : graph.pattern values layout = .ok pattern)
    (found' : (graph.rearrange order).pattern values layout = .ok pattern') {r : Vec ℝ} {J : SparseMat ℝ}
    (linear : graph.linearize values pattern = .ok (r, J)) :
    ∃ r' J', (graph.rearrange order).linearize values pattern' = .ok (r', J') ∧ SameProducts r r' J J' := by
  obtain ⟨systems, -, each, -, -, rfl, rfl⟩ := linearize_entries columns found linear
  obtain ⟨positions, blocks, emits, blockwise, emitted⟩ := pattern_rearrange permutes columns counted each
  obtain rfl := Except.ok.inj (found'.symm.trans emits)
  obtain ⟨_, -, -, rfl⟩ := pattern_ok_iff.mp found
  have each' : List.Forall₂ (GraphFactor.HasSystem values) (graph.rearrange order).factors
      (GraduatedFit.rearrange order systems) := rearrange_forall₂ order each
  have rows : ((graph.rearrange order).factors.map (·.noise.dim)).sum = graph.residualDimension :=
    ((rearrange_factors_perm permutes).map _).sum_eq.trans counted.symm
  have length := (length_residual each).trans counted.symm
  have length' := (length_residual each').trans rows
  refine ⟨_, _, linearize_ok_iff.mpr ⟨blocks, blockwise, rfl, Pattern.fill_some_iff.mpr ⟨emitted.count, rfl⟩⟩, ?_⟩
  rw [emitted.residual, emitted.entries]
  refine SameProducts.of_rows (fun e member => ?_) (fun e member => ?_) length length' ?_
  · exact length ▸ (columns.entry_inside each member).1
  · exact length' ▸ ((columns.rearrange permutes).entry_inside each' member).1
  · have slots := stackedRows_slots layout each
    have slots' := stackedRows_slots layout each'
    rw [← counted] at slots
    rw [rows] at slots'
    have same : graph.factors.length = systems.length := each.length_eq
    have moved : (GraduatedFit.rearrange order (List.zip graph.factors systems)).Perm
        (List.zip graph.factors systems) := rearrange_perm (by rwa [List.length_zip, ← same, min_self])
    rw [slots, slots', rearrange, ← rearrange_zip order same]
    exact moved.flatMap_right _

end Rearranged

end Graph

namespace LeastSquares

theorem Problem.retract_sameShape {K : Type} [Scalar K] {problem : Problem K} {initial values moved : Values K}
    {step : Vec K} (shape : initial.SameShape values) (retracted : problem.retract values step = .ok moved) :
    initial.SameShape moved := by
  intro key
  rw [Values.retract_shape (Result.ofShape_ok_iff.mp retracted) key, shape key]

section Rearranged

variable {order : List Nat} {graph : Graph ℝ} (permutes : order.Perm (List.range graph.size))
include permutes

/-- A problem that can be solved at its initial estimate matches the one of the rearranged graph. -/
theorem Problem.prepare_rearrange {initial : Values ℝ} {problem : Problem ℝ}
    (prepared : Problem.prepare graph initial = .ok problem) {r : Vec ℝ} {J : SparseMat ℝ}
    (linear : problem.linearize initial = .ok (r, J)) (fits : r.length = J.height) :
    ∃ problem', Problem.prepare (graph.rearrange order) initial = .ok problem' ∧
      problem'.graph = graph.rearrange order ∧ problem.Matches problem' initial.SameShape := by
  obtain ⟨occupied, layout, laid, wide, pattern, found, rfl⟩ := prepare_ok_iff.mp prepared
  have columns := Graph.layout_columns laid
  obtain ⟨systems, -, each, -, -, rfl, rfl⟩ := Graph.linearize_entries columns found linear
  have counted : graph.residualDimension = (graph.factors.map (·.noise.dim)).sum := by
    obtain ⟨_, -, -, rfl⟩ := Graph.pattern_ok_iff.mp found
    exact fits.symm.trans (Graph.length_residual each)
  obtain ⟨positions, blocks, found', -, -⟩ := Graph.pattern_rearrange permutes columns counted each
  refine ⟨_, prepare_ok_iff.mpr ⟨?_, layout, ?_, wide, _, found', rfl⟩, rfl, rfl, ?_, ?_, ?_⟩
  · exact (Graph.rearrange_factors_perm permutes).isEmpty_eq.trans occupied
  · rw [Graph.layout_rearrange permutes, laid]
  · intro values cost known
    exact Graph.error_rearrange permutes known
  · intro values r J shape linear
    rw [← Graph.pattern_shape shape] at found found'
    exact Graph.linearize_rearrange permutes (columns.of_shape shape) counted found found' linear
  · exact fun values step moved => Problem.retract_sameShape

/-- Without a time limit a run that ends well is that of the rearranged graph. -/
theorem Solver.optimize_rearrange {solver : Solver ℝ} (untimed : solver.method.criteria.timeout = none)
    (clock clock' : Clock) {initial : Values ℝ} {solution : Solution ℝ}
    (returned : (solver.optimize clock graph initial).2.outcome = .ok solution) :
    (solver.optimize clock' (graph.rearrange order) initial).2 = (solver.optimize clock graph initial).2 := by
  rcases solver.optimize_cases clock graph initial with ⟨failure, failed, -⟩ | ⟨problem, cost, prepared, known, loops⟩
  · rw [failed] at returned
    cases returned
  · obtain ⟨r, J, linear, fits⟩ := loops.first returned
    obtain ⟨problem', prepared', -, matched⟩ := Problem.prepare_rearrange permutes prepared linear fits
    have known' := Graph.error_rearrange permutes known
    have loops' := loops.matched matched untimed clock' (fun _ => rfl) returned
    exact loops'.unique (solver.optimize_loops clock' prepared' known')

end Rearranged

end LeastSquares

end GraduatedFit
