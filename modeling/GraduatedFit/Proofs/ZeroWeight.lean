import GraduatedFit.Proofs.ErasedSlot
import GraduatedFit.Proofs.InlierThreshold
import GraduatedFit.Proofs.MirroredRuns
import GraduatedFit.Proofs.Reweighting

/-! A slot of weight zero has no influence on a solver: its run is the run without the slot. -/

namespace GraduatedFit

open GraduatedFit.Result

/-- A prior can be evaluated wherever its variable has one component. -/
theorem GraphFactor.prior_linearizes {x : ℝ} {values : Values ℝ} (shape : (Values.beside x).SameShape values) (tag : Nat)
    (target : ℝ) (wanted : Bool) : ∃ system,
      GraphFactor.linearize ⟨["x"], ⟨tag, .prior [target]⟩, .isotropic 1 1⟩ values wanted = .ok system := by
  obtain ⟨v, found, length⟩ := Option.map_eq_some_iff.mp (shape "x")
  obtain ⟨y, rfl⟩ := List.length_eq_one_iff.mp length
  cases wanted
  all_goals
    simp [GraphFactor.linearize, GraphFactor.params, Values.find, found, Factor.prior, Factor.ofParts, Vec.sub?, Vec.zip?,
      GraphFactor.checkResidual, Noise.dim, Result.ofShape, GraphFactor.checkJacobian, Mat.identity, Mat.ofFn, Mat.height,
      Noise.whitenSystem?, Noise.whiten?, Noise.whitenJacobian?]

namespace LeastSquares

section Asked

variable {K : Type} [Scalar K] {initial values : Values K} {wanted : Bool}

/-- A run asks for nothing but estimates of the initial shape. -/
theorem Solver.Asks.sameShape {solver : Solver K} {clock : Clock} {graph : Graph K}
    (asked : solver.Asks clock graph initial values wanted) : initial.SameShape values := by
  cases asked with
  | initial prepared => exact fun _ => rfl
  | @gaussNewton config problem cost _ _ method prepared known asked =>
      refine asked.always ?_ ?_ fun _ => rfl
      · intro s tried shape chosen
        simp only [GaussNewton.candidate, bind_ok_iff, Prod.exists] at chosen
        obtain ⟨r, J, -, d, -, moved⟩ := chosen
        exact Problem.retract_sameShape shape moved
      · intro s s' step shape advanced
        obtain ⟨left, d, moved⟩ := config.advance_retracts problem advanced
        exact left ▸ Problem.retract_sameShape shape moved
  | @levenbergMarquardt config problem cost _ _ method prepared known asked =>
      refine asked.always ?_ ?_ fun _ => rfl
      · intro s tried shape chosen
        simp only [LevenbergMarquardt.candidate, bind_ok_iff, Prod.exists] at chosen
        obtain ⟨r, J, -, d, -, moved⟩ := chosen
        exact Problem.retract_sameShape shape moved
      · intro s s' step shape advanced
        obtain ⟨left, stayed | ⟨d, moved⟩⟩ := config.advance_retracts problem advanced
        · exact left ▸ stayed ▸ shape
        · exact left ▸ Problem.retract_sameShape shape moved

end Asked

section Omitted

variable {before after : List (GraphFactor ℝ)} {f : GraphFactor ℝ}

/-- With a mute slot and without it a problem cannot be prepared for the same reason, or both can be and mirror each other
wherever the slot evaluates. -/
theorem Problem.prepare_omit (mute : f.Mute) (plain : f.noise.isRobust = false) (others : before ++ after ≠ [])
    (shared : ∀ key ∈ f.keys, ∃ g ∈ before ++ after, key ∈ g.keys)
    (addressable : ((before ++ f :: after).map (·.noise.dim)).sum < 2 ^ 64) (initial : Values ℝ) :
    Alongside (fun problem problem' => problem.Mirrors problem' initial.SameShape fun values wanted =>
        ∃ system, f.linearize values wanted = .ok system)
      (Problem.prepare ⟨before ++ f :: after⟩ initial) (Problem.prepare ⟨before ++ after⟩ initial) := by
  have occupied : Graph.isEmpty ⟨before ++ f :: after⟩ = false := by simp [Graph.isEmpty]
  have occupied' : Graph.isEmpty ⟨before ++ after⟩ = false := by simpa [Graph.isEmpty] using others
  have smaller := (Graph.rows_omit before after f).trans_lt addressable
  have layouts := Graph.layout_omit shared initial
  simp only [Problem.prepare, occupied, occupied', layouts]
  rcases laid : Graph.layout ⟨before ++ f :: after⟩ initial with failure | layout
  · exact .failed failure
  · have columns := Graph.layout_columns laid
    have columns' := Graph.layout_columns (layouts.trans laid)
    obtain ⟨positions, found⟩ := columns.pattern_exists addressable
    obtain ⟨positions', found'⟩ := columns'.pattern_exists smaller
    by_cases wide : layout.totalDof = 0
    · simp only [Result.ok_bind, wide]
      exact .failed _
    · simp only [Result.ok_bind, wide, found, found']
      refine .returned ⟨rfl, Graph.pattern_inside found, Graph.pattern_inside found', ?_, ?_, ?_⟩
      · rintro values ⟨system, linear⟩
        obtain ⟨e, known⟩ := GraphFactor.error_exists plain linear
        exact Graph.error_omit mute known
      · rintro values shape ⟨system, linear⟩
        rw [← Graph.pattern_shape shape] at found found'
        exact Graph.linearize_omit mute (columns.of_shape shape) (columns'.of_shape shape) addressable found found' linear
      · exact fun values step moved => Problem.retract_sameShape

end Omitted

section Erased

/-- A mute slot can be erased from a graph that refers to its variables elsewhere. -/
theorem Solver.optimize_erase {solver : Solver ℝ} (untimed : solver.method.criteria.timeout = none) (clock clock' : Clock)
    {graph : Graph ℝ} {slot : Nat} {f : GraphFactor ℝ} (present : graph.get? slot = some f) (mute : f.Mute)
    (plain : f.noise.isRobust = false) (keyed : f.keys ≠ [])
    (shared : ∀ key ∈ f.keys, ∃ g ∈ (graph.erase slot).factors, key ∈ g.keys)
    (addressable : (graph.factors.map (·.noise.dim)).sum < 2 ^ 64) {initial : Values ℝ}
    (evaluates : ∀ values wanted, solver.Asks clock graph initial values wanted →
      ∃ system, f.linearize values wanted = .ok system) :
    (solver.optimize clock' (graph.erase slot) initial).2 = (solver.optimize clock graph initial).2 := by
  obtain ⟨before, after, whole, part⟩ := Graph.erase_split present
  rw [part] at shared
  rw [whole] at addressable
  have others : before ++ after ≠ [] := by
    obtain ⟨key, referred⟩ := List.exists_mem_of_ne_nil f.keys keyed
    obtain ⟨g, member, -⟩ := shared key referred
    exact List.ne_nil_of_mem member
  have prepared := Problem.prepare_omit mute plain others shared addressable initial
  rw [← whole, ← part] at prepared
  exact Solver.optimize_mirrored untimed clock clock' (fun _ => rfl) prepared evaluates

/-- Weight zero takes a slot out of a solve: on the weighted graph either solver makes the run that it makes on the weighted
graph without the slot, whether it succeeds or fails, if the slot can be evaluated wherever the run asks for it. Every slot
that was added to a graph has a key, and a machine word counts the rows. -/
theorem Solver.zero_weight_immaterial (solver : Solver ℝ) (untimed : solver.method.criteria.timeout = none)
    (graph : Graph ℝ) (plain : graph.hasRobustFactors = false) (weights : Vec ℝ) (count : weights.length = graph.size)
    (nonneg : ∀ weight ∈ weights, 0 ≤ weight) (slot : Nat) (zero : weights[slot]? = some 0) (f : GraphFactor ℝ)
    (present : graph.get? slot = some f) (keyed : f.keys ≠ [])
    (shared : ∀ key ∈ f.keys, ∃ other g, other ≠ slot ∧ graph.get? other = some g ∧ key ∈ g.keys)
    (addressable : (graph.factors.map (·.noise.dim)).sum < 2 ^ 64) :
    ∃ g, graph.reweight weights = .ok g ∧ ∀ clock clock' initial,
      (∀ values wanted, solver.Asks clock g initial values wanted → ∃ system, f.linearize values wanted = .ok system) →
      (solver.optimize clock' (g.erase slot) initial).2 = (solver.optimize clock g initial).2 := by
  obtain ⟨g, done, reweights⟩ := Graph.reweight_exists plain count nonneg
  refine ⟨g, done, fun clock clock' initial evaluates => ?_⟩
  obtain ⟨-, f₀, f', here, there, weighted⟩ := reweights.slot zero
  obtain rfl : f₀ = f := Option.some.inj (here.symm.trans present)
  have plain' := Graph.hasRobustFactors_false_iff.mp reweights.plain f' (List.mem_of_getElem? there)
  have rows : (g.factors.map (·.noise.dim)).sum = (graph.factors.map (·.noise.dim)).sum :=
    Graph.rows_of_frame reweights.frame
  refine Solver.optimize_erase untimed clock clock' there weighted.mute plain' (weighted.keys_eq ▸ keyed) ?_
    (rows ▸ addressable) ?_
  · intro key referred
    obtain ⟨other, h, differ, found, listed⟩ := shared key (weighted.keys_eq ▸ referred)
    obtain ⟨h', found', frame⟩ := Graph.slot_of_frame reweights.frame found
    exact ⟨h', Graph.mem_erase differ found', frame.keys_eq ▸ listed⟩
  · intro values wanted asked
    obtain ⟨system, linear⟩ := evaluates values wanted asked
    rw [weighted.linearize_eq, linear]
    exact ⟨_, rfl⟩

/-- The prior towards one has weight zero, and the variable is moved by the other prior alone. -/
theorem Solver.pulled_zero_weight : ∃ g solution, (Graph.pulled 1 1).reweight [1 / 2, 0] = .ok g ∧
    ((Method.levenbergMarquardt .brief).build.optimize (fun _ => 1) (g.erase 1) (.beside 4)).2 =
      ((Method.levenbergMarquardt .brief).build.optimize (fun _ => 0) g (.beside 4)).2 ∧
    ((Method.levenbergMarquardt .brief).build.optimize (fun _ => 1) (g.erase 1) (.beside 4)).2.outcome = .ok solution ∧
    solution.values = .beside (8 / 3) := by
  have half : (0 : ℝ) ≤ 1 / 2 := by norm_num
  have nonneg : ∀ weight ∈ ([1 / 2, 0] : Vec ℝ), 0 ≤ weight := by
    norm_num
  have shared : ∀ key ∈ ["x"], ∃ other g, other ≠ 1 ∧ (Graph.pulled 1 1).get? other = some g ∧ key ∈ g.keys := by
    intro key member
    exact ⟨0, _, by decide, rfl, member⟩
  have addressable : ((Graph.pulled 1 1).factors.map (·.noise.dim)).sum < 2 ^ 64 := by simp [Graph.pulled, Noise.dim]
  obtain ⟨g, done, same⟩ := Solver.zero_weight_immaterial (Method.levenbergMarquardt .brief).build rfl (.pulled 1 1) rfl
    [1 / 2, 0] rfl nonneg 1 rfl _ rfl (List.cons_ne_nil _ _) shared addressable
  have erased := same (fun _ => 0) (fun _ => 1) (.beside 4) fun values wanted asked =>
    GraphFactor.prior_linearizes asked.sameShape 1 1 wanted
  obtain rfl := Except.ok.inj ((Graph.pulled_reweight 1 1 half le_rfl).symm.trans done)
  obtain ⟨solution, -, returned, -, -, values, -⟩ := LevenbergMarquardt.run_pulled half le_rfl 4 (fun _ => 0) none
  have mean : pulledMean (1 / 2) 0 4 = 8 / 3 := by norm_num [pulledMean]
  refine ⟨_, solution, done, erased, ?_, values.trans (congrArg _ mean)⟩
  rw [erased]
  exact returned

end Erased

end LeastSquares

end GraduatedFit
