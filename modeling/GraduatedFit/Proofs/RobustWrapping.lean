import GraduatedFit.Proofs.InlierThreshold
import GraduatedFit.Proofs.ReweightedLoss
import GraduatedFit.Proofs.WhitenedShape

/-! Robust losses around the noise models of a graph make no difference to a continuation. -/

namespace GraduatedFit

namespace Noise

section Models

variable {K : Type} {model base : Noise K}

theorem ofLoss_ok_iff {loss : Shared (Loss K)} :
    ofLoss loss base = .ok model ↔ base.isRobust = false ∧ model = robust loss base := by
  unfold ofLoss
  cases base.isRobust with
  | true => exact iff_of_false (fun made => by cases made) (fun both => by cases both.1)
  | false => simp [eq_comm]

theorem withoutRobustLoss_plain (plain : model.isRobust = false) : model.withoutRobustLoss = model := by
  cases model with
  | robust loss base => cases plain
  | gaussian R | diagonal sigmas | isotropic dim sigma | unit dim => rfl

/-- One layer is all there is. -/
theorem withoutRobustLoss_isRobust (sound : model.Sound) : model.withoutRobustLoss.isRobust = false := by
  cases model with
  | robust loss base => exact sound.2
  | gaussian R | diagonal sigmas | isotropic dim sigma | unit dim => rfl

/-- The numbers that are compared where models are. -/
def parameters : Noise K → List K
  | gaussian R => R.rows.flatten
  | diagonal sigmas => sigmas
  | isotropic _ sigma => [sigma]
  | unit _ => []
  | robust _ base => base.parameters

end Models

section Agreement

variable {K : Type} [Scalar K]

theorem close_refl {x : K} (number : Scalar.isNaN x = false) (tolerance : K) : Scalar.close tolerance x x = true := by
  have same : Scalar.eq x x = true := by simpa [Scalar.isNaN] using number
  rw [Scalar.close, same, Bool.true_or]

theorem vec_agree_refl {xs : Vec K} (numbers : ∀ x ∈ xs, Scalar.isNaN x = false) (tolerance : K) :
    Vec.agree (Scalar.close tolerance) xs xs = true := by
  simp only [Vec.agree, beq_self_eq_true, Bool.true_and, List.zipWith_self, List.all_map, List.all_eq_true]
  exact fun x member => close_refl (numbers x member) tolerance

/-- A model agrees with itself unless one of its parameters is not a number. -/
theorem agree_refl {model : Noise K} (numbers : ∀ x ∈ model.parameters, Scalar.isNaN x = false) (tolerance : K) :
    model.agree tolerance model = true := by
  induction model with
  | gaussian R =>
      simp only [agree, Mat.agree, beq_self_eq_true, Bool.true_and, List.zipWith_self, List.all_map, List.all_eq_true]
      intro row member
      exact vec_agree_refl (fun x inside => numbers x (List.mem_flatten_of_mem member inside)) tolerance
  | diagonal sigmas => exact vec_agree_refl numbers tolerance
  | isotropic dim sigma =>
      rw [agree, beq_self_eq_true, Bool.true_and]
      exact close_refl (numbers sigma (.head _)) tolerance
  | unit dim => exact beq_self_eq_true dim
  | robust loss base ih =>
      rw [agree, ih numbers, Shared.sameAs, beq_self_eq_true, Bool.true_and]

/-- Models that agree are of one kind. -/
theorem agree_isRobust {tolerance : K} {a b : Noise K} (same : a.agree tolerance b = true) :
    b.isRobust = a.isRobust := by
  cases a <;> cases b <;> first | rfl | cases same

end Agreement

end Noise

/-- A slot with its robust loss taken off. -/
def GraphFactor.bare {K : Type} (f : GraphFactor K) : GraphFactor K := { f with noise := f.noise.withoutRobustLoss }

theorem GraphFactor.bare_plain {K : Type} {f : GraphFactor K} (plain : f.noise.isRobust = false) : f.bare = f := by
  rw [bare, Noise.withoutRobustLoss_plain plain]

namespace Graph

section Stripping

variable {K : Type} {graph wrapped : Graph K} {losses : Nat → Option (Shared (Loss K))}

theorem stripRobustLosses_eq (graph : Graph K) : graph.stripRobustLosses = ⟨graph.factors.map GraphFactor.bare⟩ := rfl

theorem stripRobustLosses_slots (graph : Graph K) :
    graph.stripRobustLosses.factors.map (fun f => (f.keys, f.factor)) =
      graph.factors.map fun f => (f.keys, f.factor) := List.map_map

theorem stripRobustLosses_isPlain (sound : ∀ f ∈ graph.factors, f.noise.Sound) :
    graph.stripRobustLosses.hasRobustFactors = false := by
  rw [hasRobustFactors_false_iff]
  intro g member
  obtain ⟨f, present, rfl⟩ := List.mem_map.mp member
  exact Noise.withoutRobustLoss_isRobust (sound f present)

theorem stripRobustLosses_eq_self_iff (sound : ∀ f ∈ graph.factors, f.noise.Sound) :
    graph.stripRobustLosses = graph ↔ graph.hasRobustFactors = false := by
  constructor
  · intro same
    have plain := stripRobustLosses_isPlain sound
    rwa [same] at plain
  · exact stripRobustLosses_plain

/-- The graph with losses around the models of some slots. -/
def wrapSlots (graph : Graph K) (losses : Nat → Option (Shared (Loss K))) : Result K (Graph K) :=
  graph.withNoise fun slot f => (losses slot).elim (.ok f.noise) (Noise.ofLoss · f.noise)

theorem withNoise_ok_iff {noiseOf : Nat → GraphFactor K → Result K (Noise K)} :
    graph.withNoise noiseOf = .ok wrapped ↔
      List.Forall₂ (fun p g => ∃ noise, noiseOf p.2 p.1 = .ok noise ∧ { p.1 with noise } = g)
        graph.factors.zipIdx wrapped.factors := by
  have made : graph.withNoise noiseOf = .ok wrapped ↔
      graph.factors.zipIdx.mapM (fun p => do return { p.1 with noise := (← noiseOf p.2 p.1) }) =
        .ok wrapped.factors := by
    simp only [withNoise, Result.bind_ok_iff, Result.pure_ok, Except.ok.injEq]
    constructor
    · rintro ⟨factors, done, rfl⟩
      exact done
    · exact fun done => ⟨wrapped.factors, done, rfl⟩
  rw [made, Result.mapM_ok_iff]
  simp only [Result.bind_ok_iff, Result.pure_ok, Except.ok.injEq]

/-- Only a model without a loss takes one, so that taking it off again gives the slot back. -/
theorem bare_wrapped {f : GraphFactor K} {loss : Option (Shared (Loss K))} {noise : Noise K}
    (made : loss.elim (.ok f.noise) (Noise.ofLoss · f.noise) = .ok noise) :
    ({ f with noise } : GraphFactor K).bare = f.bare := by
  cases loss with
  | none =>
      obtain rfl := Except.ok.inj made
      rfl
  | some loss =>
      obtain ⟨plain, rfl⟩ := Noise.ofLoss_ok_iff.mp made
      rw [GraphFactor.bare_plain plain]
      rfl

/-- Wrapping leaves no trace once the losses are taken off. -/
theorem stripRobustLosses_wrapped (made : graph.wrapSlots losses = .ok wrapped) :
    wrapped.stripRobustLosses = graph.stripRobustLosses := by
  have related := withNoise_ok_iff.mp made
  have each : List.Forall₂ (fun p g => g.bare = p.1.bare) graph.factors.zipIdx wrapped.factors := by
    refine related.imp ?_
    rintro ⟨f, slot⟩ g ⟨noise, chosen, rfl⟩
    exact bare_wrapped chosen
  have bases : wrapped.factors.map GraphFactor.bare = graph.factors.map GraphFactor.bare := by
    rw [← List.zipIdx_map_fst 0 graph.factors, List.map_map, ← List.forall₂_eq_eq_eq, List.forall₂_map_left_iff,
      List.forall₂_map_right_iff]
    exact each.flip
  rw [stripRobustLosses_eq, stripRobustLosses_eq, bases]

theorem size_wrapped (made : graph.wrapSlots losses = .ok wrapped) : wrapped.size = graph.size := by
  have related := withNoise_ok_iff.mp made
  exact related.length_eq.symm.trans List.length_zipIdx

/-- Any slots of a graph without losses can be wrapped. -/
theorem wrapSlots_exists (plain : graph.hasRobustFactors = false) (losses : Nat → Option (Shared (Loss K))) :
    ∃ wrapped, graph.wrapSlots losses = .ok wrapped := by
  have each : ∀ p ∈ graph.factors.zipIdx, ∃ g : GraphFactor K,
      ∃ noise, (losses p.2).elim (.ok p.1.noise) (Noise.ofLoss · p.1.noise) = .ok noise ∧
        { p.1 with noise } = g := by
    rintro ⟨f, slot⟩ member
    have base := hasRobustFactors_false_iff.mp plain f (List.fst_mem_of_mem_zipIdx member)
    cases chosen : losses slot with
    | none => exact ⟨_, _, rfl, rfl⟩
    | some loss => exact ⟨_, _, Noise.ofLoss_ok_iff.mpr ⟨base, rfl⟩, rfl⟩
  obtain ⟨factors, related⟩ := forall₂_exists each
  exact ⟨⟨factors⟩, withNoise_ok_iff.mpr related⟩

variable [Scalar K]

/-- Taking the losses off changes a graph in the eye of the equality test just where there are some. -/
theorem agree_stripRobustLosses (sound : ∀ f ∈ graph.factors, f.noise.Sound)
    (numbers : ∀ f ∈ graph.factors, ∀ x ∈ f.noise.parameters, Scalar.isNaN x = false) (tolerance : K) :
    graph.stripRobustLosses.agree tolerance graph = true ↔ graph.hasRobustFactors = false := by
  constructor
  · intro same
    rw [hasRobustFactors_false_iff]
    intro f member
    simp only [agree, stripRobustLosses_eq, List.zipWith_map_left, List.zipWith_self, List.all_map, Bool.and_eq_true,
      List.all_eq_true] at same
    have slot := same.2 f member
    simp only [Function.comp_apply, id_eq, Bool.and_eq_true] at slot
    have noise := slot.2
    exact (Noise.agree_isRobust noise).trans (Noise.withoutRobustLoss_isRobust (sound f member))
  · intro plain
    rw [stripRobustLosses_plain plain]
    simp only [agree, beq_self_eq_true, Bool.true_and, List.zipWith_self, List.all_map, List.all_eq_true]
    intro f member
    have noise := Noise.agree_refl (numbers f member) tolerance
    simp [Shared.sameAs, noise]

end Stripping

end Graph

namespace Continuation.Optimizer

variable {K : Type} [Scalar K]

/-- Runs one after the other, each from what the one before leaves. -/
def runs : Optimizer K → List (Nat → Clock) → List (Run K)
  | _, [] => []
  | o, clock :: clocks => o.optimize clock :: runs (o.optimize clock).optimizer clocks

/-- A new optimizer and its runs. -/
def session (graph : Graph K) (initial : Values K) (config : Config K) (clocks : List (Nat → Clock)) :
    Result K (List (Run K)) := do
  return (← create graph initial config).runs clocks

/-- Nothing but the size of the graph and its base models goes into an optimizer. -/
theorem create_wrapped {graph wrapped : Graph K} {losses : Nat → Option (Shared (Loss K))}
    (made : graph.wrapSlots losses = .ok wrapped) (initial : Values K) (config : Config K) :
    create wrapped initial config = create graph initial config := by
  rw [create, create, Graph.stripRobustLosses_wrapped made, Graph.size_wrapped made]

/-- A continuation cannot tell a graph from the same graph with robust losses around some of its models. -/
theorem robust_losses_invisible {graph : Graph K} (models : ∀ f ∈ graph.factors, f.noise.Made) :
    (∀ losses wrapped, graph.wrapSlots losses = .ok wrapped → ∀ initial config,
      create wrapped initial config = create graph initial config ∧
      ∀ clocks, session wrapped initial config clocks = session graph initial config clocks) ∧
    graph.stripRobustLosses.hasRobustFactors = false ∧
    graph.stripRobustLosses.factors.map (fun f => (f.keys, f.factor)) =
      graph.factors.map (fun f => (f.keys, f.factor)) ∧
    graph.stripRobustLosses.stripRobustLosses = graph.stripRobustLosses ∧
    (graph.hasRobustFactors = false → ∀ losses, ∃ wrapped,
      graph.wrapSlots losses = .ok wrapped ∧ wrapped.stripRobustLosses = graph) ∧
    (graph.stripRobustLosses = graph ↔ graph.hasRobustFactors = false) ∧
    ((∀ f ∈ graph.factors, ∀ x ∈ f.noise.parameters, Scalar.isNaN x = false) → ∀ tolerance,
      (graph.stripRobustLosses.agree tolerance graph = true ↔ graph.hasRobustFactors = false)) := by
  have sound : ∀ f ∈ graph.factors, f.noise.Sound := fun f member => (models f member).sound
  have plain := Graph.stripRobustLosses_isPlain sound
  refine ⟨?_, plain, graph.stripRobustLosses_slots, Graph.stripRobustLosses_plain plain, ?_,
    Graph.stripRobustLosses_eq_self_iff sound, Graph.agree_stripRobustLosses sound⟩
  · intro losses wrapped made initial config
    have created := create_wrapped made initial config
    refine ⟨created, fun clocks => ?_⟩
    rw [session, session, created]
  · intro bare losses
    obtain ⟨wrapped, made⟩ := Graph.wrapSlots_exists bare losses
    exact ⟨wrapped, made, (Graph.stripRobustLosses_wrapped made).trans (Graph.stripRobustLosses_plain bare)⟩

/-- The second of three slots wrapped. -/
theorem early_wrapped :
    let losses : Nat → Option (Shared (Loss ℝ)) := fun slot => if slot = 1 then some ⟨0, .quadratic 1 0⟩ else none
    ∃ wrapped, Graph.triple.wrapSlots losses = .ok wrapped ∧ wrapped.hasRobustFactors = true ∧
      wrapped.stripRobustLosses = .triple ∧
      session wrapped (.single 0) early.config [fun _ _ => 0] = .ok [early.optimize fun _ _ => 0] := by
  intro losses
  have models : ∀ f ∈ Graph.triple.factors, f.noise.Made := by
    intro f member
    have unit : f.noise = .isotropic 1 1 := by
      simp only [Graph.triple, List.mem_cons, List.not_mem_nil, or_false] at member
      rcases member with rfl | rfl | rfl <;> rfl
    rw [unit]
    exact .ofSigma (show Noise.ofSigma 1 1 = .ok (.isotropic 1 1) by simp [Noise.ofSigma])
  obtain ⟨invisible, -, -, -, wraps, -, -⟩ := robust_losses_invisible models
  obtain ⟨wrapped, made, stripped⟩ := wraps rfl losses
  obtain ⟨-, sessions⟩ := invisible losses wrapped made (.single 0) early.config
  have robust : wrapped.hasRobustFactors = true := by
    simp only [Graph.wrapSlots, Graph.withNoise, Graph.triple, losses] at made
    obtain rfl := Except.ok.inj made
    rfl
  refine ⟨wrapped, made, robust, stripped, ?_⟩
  rw [sessions, session, early_created]
  rfl

end Continuation.Optimizer

end GraduatedFit
