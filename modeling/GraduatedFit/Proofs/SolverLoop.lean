import GraduatedFit.Proofs.Results
import GraduatedFit.Proofs.SparseGram
import GraduatedFit.LeastSquares.Basic

/-! What every iteration of a solver run starts from, and what stays the same between the iterations. -/

namespace GraduatedFit

namespace Pattern

variable {K : Type} [Scalar K]

/-- Every position is in a row of the matrix. -/
def Inside (pattern : Pattern) : Prop := ∀ p ∈ pattern.positions, p.1 < pattern.height

/-- The positions that a matrix of the pattern stores, column by column. -/
def places (K : Type) [Scalar K] (pattern : Pattern) : List (List Nat) :=
  (SparseMat.ofEntries pattern.height pattern.width (pattern.positions.map fun p => (p, (0 : K)))).support

theorem fill_some_iff {pattern : Pattern} {values : List K} {J : SparseMat K} :
    pattern.fill? values = some J ↔ values.length = pattern.positions.length ∧
      J = SparseMat.ofEntries pattern.height pattern.width (List.zip pattern.positions values) := by
  unfold fill?
  split
  · rename_i count
    rw [Option.some.injEq, eq_comm]
    exact (and_iff_right count).symm
  · rename_i differ
    refine iff_of_false ?_ fun filled => differ filled.1
    intro filled
    cases filled

/-- What is stored does not depend on the values that are filled in. -/
theorem fill_support {pattern : Pattern} {values : List K} {J : SparseMat K}
    (filled : pattern.fill? values = some J) : J.support = pattern.places K := by
  obtain ⟨count, rfl⟩ := fill_some_iff.mp filled
  apply SparseMat.ofEntries_support
  rw [List.map_fst_zip count.ge, List.map_map]
  exact (List.map_id _).symm

theorem fill_wellFormed {pattern : Pattern} {values : List K} {J : SparseMat K} (inside : pattern.Inside)
    (filled : pattern.fill? values = some J) : J.WellFormed := by
  obtain ⟨-, rfl⟩ := fill_some_iff.mp filled
  apply SparseMat.ofEntries_wellFormed
  intro e member
  exact inside _ (List.of_mem_zip member).1

end Pattern

namespace Graph

variable {K : Type} {graph : Graph K} {values : Values K} {layout : Layout} {pattern : Pattern}

/-- A pattern lists the positions of all slots, and each of them is inside of the matrix. -/
theorem pattern_ok_iff : graph.pattern values layout = .ok pattern ↔
    ∃ positions, positionsFrom values layout 0 graph.factors = .ok positions ∧
      (∀ p ∈ positions, p.1 < graph.residualDimension ∧ p.2 < layout.totalDof) ∧
      pattern = ⟨graph.residualDimension, layout.totalDof, positions⟩ := by
  simp only [Graph.pattern, Result.bind_ok_iff]
  constructor
  · rintro ⟨positions, placed, found⟩
    split at found
    · rename_i inside
      simp only [List.all_eq_true, Bool.and_eq_true, decide_eq_true_eq] at inside
      exact ⟨positions, placed, inside, (Except.ok.inj found).symm⟩
    · cases found
  · rintro ⟨positions, placed, inside, rfl⟩
    refine ⟨positions, placed, if_pos ?_⟩
    simpa only [List.all_eq_true, Bool.and_eq_true, decide_eq_true_eq] using inside

theorem pattern_inside (found : graph.pattern values layout = .ok pattern) : pattern.Inside := by
  obtain ⟨positions, -, inside, rfl⟩ := pattern_ok_iff.mp found
  exact fun p member => (inside p member).1

theorem linearize_ok_iff [Scalar K] {r : Vec K} {J : SparseMat K} : graph.linearize values pattern = .ok (r, J) ↔
    ∃ blocks, graph.factors.mapM (linearizeBlock values) = .ok blocks ∧ r = (blocks.map Prod.fst).flatten ∧
      pattern.fill? (blocks.map Prod.snd).flatten = some J := by
  simp only [Graph.linearize, Result.bind_ok_iff, Result.ofShape_ok_iff, Result.pure_ok, Except.ok.injEq, Prod.mk.injEq]
  constructor
  · rintro ⟨blocks, evaluated, _, filled, rfl, rfl⟩
    exact ⟨blocks, evaluated, rfl, filled⟩
  · rintro ⟨blocks, evaluated, rfl, filled⟩
    exact ⟨blocks, evaluated, J, filled, rfl, rfl⟩

theorem linearize_stored [Scalar K] {r : Vec K} {J : SparseMat K} (inside : pattern.Inside)
    (linear : graph.linearize values pattern = .ok (r, J)) : J.support = pattern.places K ∧ J.WellFormed := by
  obtain ⟨blocks, -, -, filled⟩ := linearize_ok_iff.mp linear
  exact ⟨Pattern.fill_support filled, Pattern.fill_wellFormed inside filled⟩

end Graph

namespace LeastSquares

/-- A problem keeps the layout and the pattern of its initial estimate. -/
theorem Problem.prepare_ok_iff {K : Type} [Scalar K] {graph : Graph K} {initial : Values K} {problem : Problem K} :
    Problem.prepare graph initial = .ok problem ↔ graph.isEmpty = false ∧
      ∃ layout, graph.layout initial = .ok layout ∧ layout.totalDof ≠ 0 ∧
        ∃ pattern, graph.pattern initial layout = .ok pattern ∧ problem = ⟨graph, layout, pattern⟩ := by
  unfold Problem.prepare
  constructor
  · intro prepared
    split at prepared
    · cases prepared
    · rename_i occupied
      simp only [Result.bind_ok_iff] at prepared
      obtain ⟨layout, laid, rest⟩ := prepared
      split at rest
      · cases rest
      · rename_i wide
        simp only [Result.bind_ok_iff] at rest
        obtain ⟨pattern, found, done⟩ := rest
        exact ⟨Bool.eq_false_iff.mpr occupied, layout, laid, wide, pattern, found, (Except.ok.inj done).symm⟩
  · rintro ⟨occupied, layout, laid, wide, pattern, found, rfl⟩
    rw [if_neg (Bool.eq_false_iff.mp occupied), laid, Result.ok_bind, if_neg wide, found]
    rfl

theorem Problem.prepare_ok {K : Type} [Scalar K] {graph : Graph K} {initial : Values K} {problem : Problem K}
    (prepared : Problem.prepare graph initial = .ok problem) :
    problem.graph = graph ∧ problem.pattern.Inside := by
  obtain ⟨-, layout, -, -, pattern, found, rfl⟩ := prepare_ok_iff.mp prepared
  exact ⟨rfl, Graph.pattern_inside found⟩

/-- Every Jacobian of a run stores the same positions. -/
theorem Problem.linearize_stored {K : Type} [Scalar K] {problem : Problem K} {values : Values K} {r : Vec K}
    {J : SparseMat K} (inside : problem.pattern.Inside) (linear : problem.linearize values = .ok (r, J)) :
    J.support = problem.pattern.places K ∧ J.WellFormed := Graph.linearize_stored inside linear

namespace State

variable {K : Type} [Scalar K] {useScaling : Bool} {r : Vec K} {J scaled : SparseMat K} {s : State K}

/-- A system is scaled by the scaling of the run, or not at all. -/
theorem scaledJacobian_cases (found : s.scaledJacobian useScaling J = .ok scaled) :
    (∃ scaling, s.scaling = some scaling ∧ scaled = scaling.scale J) ∨ scaled = J := by
  unfold scaledJacobian at found
  split at found
  · split at found
    · rename_i scaling present
      exact .inl ⟨scaling, present, (Except.ok.inj found).symm⟩
    · cases found
  · exact .inr (Except.ok.inj found).symm

theorem scaledJacobian_stored (formed : J.WellFormed)
    (sized : ∀ scaling, s.scaling = some scaling → scaling.factors.length = J.width)
    (found : s.scaledJacobian useScaling J = .ok scaled) : scaled.support = J.support ∧ scaled.WellFormed := by
  rcases scaledJacobian_cases found with ⟨scaling, present, rfl⟩ | rfl
  · exact ⟨SparseMat.scaleColumns_support (sized scaling present), SparseMat.scaleColumns_wellFormed formed⟩
  · exact ⟨rfl, formed⟩

/-- A direction that is found solves the scaled system, and keeps the gradient of that. -/
theorem direction_ok {damping : Option K} {fault : LinearError → SystemFault} {noGradient : SolveError K}
    {d : Direction K} (solved : s.direction useScaling damping fault noGradient r J = .ok d) :
    ∃ scaled, s.scaledJacobian useScaling J = .ok scaled ∧
      s.equations.solve r scaled damping = (d.equations, .ok d.systemStep) ∧
      d.equations.gradient = some d.gradient := by
  simp only [direction, Result.bind_ok_iff] at solved
  obtain ⟨scaled, found, rest⟩ := solved
  rcases outcome : s.equations.solve r scaled damping with ⟨equations, failure | systemStep⟩
  · simp [outcome, Except.mapError] at rest
  · simp only [outcome, Except.mapError, Except.ok.injEq, exists_eq_left'] at rest
    split at rest
    · rename_i gradient present
      obtain rfl := Except.ok.inj rest
      exact ⟨scaled, found, outcome, present⟩
    · cases rest

end State

section Loop

variable {K σ : Type} {scheme : Scheme K σ}

/-- The state before the iteration of an index. -/
def Scheme.before (scheme : Scheme K σ) (start : σ) (i : Nat) : σ := (fun s => (scheme.advance s).1)^[i] start

@[simp]
theorem Scheme.before_zero (start : σ) : scheme.before start 0 = start := rfl

theorem Scheme.before_succ (start : σ) (i : Nat) :
    scheme.before start (i + 1) = (scheme.advance (scheme.before start i)).1 :=
  Function.iterate_succ_apply' _ _ _

theorem Scheme.before_advance (start : σ) (i : Nat) :
    scheme.before (scheme.advance start).1 i = scheme.before start (i + 1) := rfl

/-- An iteration fails, is the last one, or is followed by the rest of the run. -/
theorem iterate_cases (scheme : Scheme K σ) (left : Nat) (start : σ) :
    (∃ s failure, scheme.advance start = (s, .error failure) ∧
      iterate scheme left start = ⟨[], s, .error failure⟩) ∨
    (∃ s step status, scheme.advance start = (s, .ok step) ∧
      iterate scheme left start = ⟨[step], s, .ok (step, status)⟩) ∨
    (∃ s step rest, scheme.advance start = (s, .ok step) ∧ left = rest + 1 ∧
      iterate scheme left start =
        ⟨step :: (iterate scheme rest s).steps, (iterate scheme rest s).final, (iterate scheme rest s).outcome⟩) := by
  rw [iterate]
  rcases advanced : scheme.advance start with ⟨s, failure | step⟩
  · exact .inl ⟨s, failure, rfl, rfl⟩
  · refine .inr ?_
    dsimp only
    split
    · rename_i status _
      exact .inl ⟨s, step, status, rfl, rfl⟩
    · cases left with
      | zero => exact .inl ⟨s, step, _, rfl, rfl⟩
      | succ rest =>
          dsimp only
          split
          · rename_i status _
            exact .inl ⟨s, step, status, rfl, rfl⟩
          · exact .inr ⟨s, step, rest, rfl, rfl, rfl⟩

theorem advance_first {start s : σ} {step : Step K} (advanced : scheme.advance start = (s, .ok step)) :
    scheme.advance (scheme.before start 0) = (scheme.before start 1, .ok step) := by
  rw [Scheme.before_succ, Scheme.before_zero, advanced]

/-- Every iteration that is reported advances the state that it finds. -/
theorem iterate_advance {left : Nat} {start : σ} {i : Nat} {step : Step K}
    (reported : (iterate scheme left start).steps[i]? = some step) :
    scheme.advance (scheme.before start i) = (scheme.before start (i + 1), .ok step) := by
  induction left using Nat.strong_induction_on generalizing start i with
  | h left ih =>
      rcases iterate_cases scheme left start with ⟨s, failure, -, same⟩ | ⟨s, only, status, advanced, same⟩ |
        ⟨s, head, rest, advanced, rfl, same⟩
      · simp [same] at reported
      · rw [same] at reported
        cases i with
        | zero =>
            obtain rfl := Option.some.inj reported
            exact advance_first advanced
        | succ i => cases reported
      · rw [same] at reported
        cases i with
        | zero =>
            obtain rfl := Option.some.inj reported
            exact advance_first advanced
        | succ i =>
            have state : (scheme.advance start).1 = s := by rw [advanced]
            rw [← Scheme.before_advance, ← Scheme.before_advance, state]
            exact ih rest (by omega) reported

/-- A run that ends well ends with its last step, in the state after it. -/
theorem iterate_ended {left : Nat} {start : σ} {step : Step K} {status : Status}
    (ended : (iterate scheme left start).outcome = .ok (step, status)) :
    (iterate scheme left start).steps.getLast? = some step ∧
      (iterate scheme left start).final = scheme.before start (iterate scheme left start).steps.length := by
  induction left using Nat.strong_induction_on generalizing start with
  | h left ih =>
      rcases iterate_cases scheme left start with ⟨s, failure, -, same⟩ | ⟨s, only, status, advanced, same⟩ |
        ⟨s, head, rest, advanced, rfl, same⟩
      · simp [same] at ended
      · rw [same] at ended ⊢
        obtain ⟨rfl, -⟩ := Prod.mk.inj (Except.ok.inj ended)
        have state : scheme.before start 1 = s := by rw [Scheme.before_succ, Scheme.before_zero, advanced]
        exact ⟨rfl, state.symm⟩
      · rw [same] at ended ⊢
        obtain ⟨last, final⟩ := ih rest (by omega) ended
        have state : (scheme.advance start).1 = s := by rw [advanced]
        constructor
        · rw [List.getLast?_cons, last]
          rfl
        · rw [List.length_cons, ← Scheme.before_advance, state]
          exact final

/-- What an iteration preserves holds before every iteration and after the last one. -/
theorem before_preserved {left : Nat} {start : σ} {Inv : σ → Prop} (initial : Inv start)
    (preserved : ∀ s s' step, Inv s → scheme.advance s = (s', .ok step) → Inv s')
    (i : Nat) (made : i ≤ (iterate scheme left start).steps.length) : Inv (scheme.before start i) := by
  induction i with
  | zero => exact initial
  | succ i ih =>
      have found := List.getElem?_eq_getElem (show i < (iterate scheme left start).steps.length by omega)
      exact preserved _ _ _ (ih (by omega)) (iterate_advance found)

end Loop

end LeastSquares

end GraduatedFit
