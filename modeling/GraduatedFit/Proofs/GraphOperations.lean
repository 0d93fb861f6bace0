import GraduatedFit.Proofs.Reweighting
import GraduatedFit.Proofs.RobustWrapping

/-! Graphs under construction: what their slots have in common after any operations, whether these succeed or fail. -/

namespace GraduatedFit

namespace Noise

variable {K : Type} {model : Noise K}

/-- There is no loss under the outermost one. -/
def Flat (model : Noise K) : Prop := model.withoutRobustLoss.isRobust = false

theorem flat_of_plain (plain : model.isRobust = false) : model.Flat := by
  rw [Flat, withoutRobustLoss_plain plain]
  exact plain

theorem Made.flat [Scalar K] (made : model.Made) : model.Flat := withoutRobustLoss_isRobust made.sound

theorem withoutRobustLoss_dim (model : Noise K) : model.withoutRobustLoss.dim = model.dim := by
  cases model <;> rfl

end Noise

namespace GraphFactor

variable {K : Type} {f f' : GraphFactor K}

/-- A factor with a name for each of its variables, under a model with a row for each of its residuals. -/
structure Fits (f : GraphFactor K) : Prop where
  referring : f.keys ≠ []
  arity_eq : f.keys.length = f.factor.value.arity
  dim_eq : f.noise.dim = f.factor.value.dim

/-- A slot whose model was exchanged for one with as many rows that nests no losses unless the old one did. -/
structure Remodels (f f' : GraphFactor K) : Prop extends SameFrame f f' where
  flat : f.noise.Flat → f'.noise.Flat

theorem SameFrame.fits (frame : SameFrame f f') (fits : f.Fits) : f'.Fits where
  referring := frame.keys_eq ▸ fits.referring
  arity_eq := by rw [frame.keys_eq, frame.factor_eq, fits.arity_eq]
  dim_eq := by rw [frame.dim_eq, frame.factor_eq, fits.dim_eq]

theorem bare_remodels (f : GraphFactor K) : f.Remodels f.bare where
  keys_eq := rfl
  factor_eq := rfl
  dim_eq := f.noise.withoutRobustLoss_dim
  flat flat := Noise.flat_of_plain flat

theorem ofLoss_remodels {loss : Shared (Loss K)} {noise : Noise K} (made : Noise.ofLoss loss f.noise = .ok noise) :
    f.Remodels { f with noise } := by
  obtain ⟨plain, rfl⟩ := Noise.ofLoss_ok_iff.mp made
  exact ⟨⟨rfl, rfl, rfl⟩, fun _ => plain⟩

theorem Weighted.remodels [Scalar K] {weight : K} (weighted : Weighted weight f f') : f.Remodels f' :=
  ⟨weighted.frame, fun _ => Noise.flat_of_plain (Noise.scaledByWeight_plain weighted.scaled).2⟩

end GraphFactor

/-- What is done to a graph. -/
inductive Operation (K : Type)
  | add (keys : List String) (factor : Shared (Factor K)) (noise : Noise K)
  | reweight (weights : Vec K)
  | stripRobustLosses
  | wrapLosses (loss : Shared (Loss K))

/-- The operations that bring no model of their own, and those whose model is admitted. -/
def Operation.Admitted {K : Type} (models : Noise K → Prop) : Operation K → Prop
  | add _ _ noise => models noise
  | _ => True

def Operation.isAddition {K : Type} : Operation K → Bool
  | add .. => true
  | _ => false

namespace Graph

section Additions

variable {K : Type} {graph g : Graph K} {keys : List String} {factor : Shared (Factor K)} {noise : Noise K}

/-- A factor is added just where it fits. -/
theorem add_ok_iff : graph.add keys factor noise = .ok g ↔
    GraphFactor.Fits ⟨keys, factor, noise⟩ ∧ g = ⟨graph.factors ++ [⟨keys, factor, noise⟩]⟩ := by
  unfold add
  constructor
  · intro added
    split at added
    · cases added
    · rename_i referring
      split at added
      · cases added
      · rename_i arity
        split at added
        · cases added
        · rename_i rows
          obtain rfl := Except.ok.inj added
          exact ⟨⟨by simpa using referring, not_not.mp arity, (not_not.mp rows).symm⟩, rfl⟩
  · rintro ⟨⟨referring, arity, rows⟩, rfl⟩
    have some : ¬keys.isEmpty = true := by simpa using referring
    rw [if_neg some, if_neg (not_not.mpr arity), if_neg (not_not.mpr rows.symm)]

end Additions

section Transforms

variable {K : Type} {graph g : Graph K}

/-- What every choice of a model does to a slot, it does slot by slot. -/
theorem withNoise_slots {noiseOf : Nat → GraphFactor K → Result K (Noise K)} {R : GraphFactor K → GraphFactor K → Prop}
    (each : ∀ slot f noise, noiseOf slot f = .ok noise → R f { f with noise })
    (made : graph.withNoise noiseOf = .ok g) : List.Forall₂ R graph.factors g.factors := by
  rw [← List.zipIdx_map_fst 0 graph.factors, List.forall₂_map_left_iff]
  refine (withNoise_ok_iff.mp made).imp ?_
  rintro ⟨f, slot⟩ f' ⟨noise, chosen, rfl⟩
  exact each slot f noise chosen

theorem stripRobustLosses_remodels (graph : Graph K) :
    List.Forall₂ GraphFactor.Remodels graph.factors graph.stripRobustLosses.factors := by
  rw [stripRobustLosses_eq, List.forall₂_map_right_iff, List.forall₂_same]
  exact fun f _ => f.bare_remodels

theorem wrapLosses_remodels {loss : Shared (Loss K)} (made : graph.wrapLosses loss = .ok g) :
    List.Forall₂ GraphFactor.Remodels graph.factors g.factors :=
  withNoise_slots (fun _ _ _ => GraphFactor.ofLoss_remodels) made

theorem Reweights.remodels [Scalar K] {weights : Vec K} {fs fs' : List (GraphFactor K)}
    (reweights : Reweights weights fs fs') : List.Forall₂ GraphFactor.Remodels fs fs' := by
  induction reweights with
  | nil => exact .nil
  | cons admitted first rest ih => exact .cons first.remodels ih

end Transforms

section Operations

variable {K : Type} [Scalar K] {graph g : Graph K}

/-- The graph that an operation makes, and the slot of what it adds. -/
def apply (graph : Graph K) : Operation K → Result K (Graph K × Option Nat)
  | .add keys factor noise => do
    let g ← graph.add keys factor noise
    return (g, some (g.size - 1))
  | .reweight weights => do return (← graph.reweight weights, none)
  | .stripRobustLosses => .ok (graph.stripRobustLosses, none)
  | .wrapLosses loss => do return (← graph.wrapLosses loss, none)

/-- The graph after an operation and what is reported: after a failure it is the graph before. -/
def perform (graph : Graph K) (op : Operation K) : Graph K × Result K (Option Nat) :=
  match graph.apply op with
  | .ok (g, slot) => (g, .ok slot)
  | .error failure => (graph, .error failure)

/-- The graph after operations, one after the other. -/
def after (graph : Graph K) (ops : List (Operation K)) : Graph K :=
  ops.foldl (fun graph op => (graph.perform op).1) graph

theorem perform_failed {op : Operation K} {failure : Failure K} (failed : (graph.perform op).2 = .error failure) :
    (graph.perform op).1 = graph := by
  unfold perform at failed ⊢
  split
  · rename_i applied
    rw [applied] at failed
    cases failed
  · rfl

theorem perform_add {keys : List String} {factor : Shared (Factor K)} {noise : Noise K} :
    (graph.perform (.add keys factor noise)).1.factors = graph.factors ++ [⟨keys, factor, noise⟩] ∧
        (graph.perform (.add keys factor noise)).2 = .ok (some graph.size) ∧
        GraphFactor.Fits ⟨keys, factor, noise⟩ ∨
      (∃ failure, graph.perform (.add keys factor noise) = (graph, .error failure)) ∧
        ¬GraphFactor.Fits ⟨keys, factor, noise⟩ := by
  rw [perform, apply]
  rcases added : graph.add keys factor noise with failure | g
  · refine .inr ⟨⟨failure, rfl⟩, fun fits => ?_⟩
    rw [add_ok_iff.mpr ⟨fits, rfl⟩] at added
    cases added
  · obtain ⟨fits, rfl⟩ := add_ok_iff.mp added
    refine .inl ⟨rfl, ?_, fits⟩
    simp [size]

/-- The graphs that are made of another one have its slots. -/
theorem perform_remodels {op : Operation K} (transform : op.isAddition = false) :
    List.Forall₂ GraphFactor.Remodels graph.factors (graph.perform op).1.factors := by
  have same : List.Forall₂ GraphFactor.Remodels graph.factors graph.factors :=
    List.forall₂_same.mpr fun f _ => ⟨⟨rfl, rfl, rfl⟩, id⟩
  cases op with
  | add keys factor noise => cases transform
  | reweight weights =>
      rw [perform, apply]
      rcases made : graph.reweight weights with failure | g
      · exact same
      · exact (reweights_of_ok made).remodels
  | stripRobustLosses => exact graph.stripRobustLosses_remodels
  | wrapLosses loss =>
      rw [perform, apply]
      rcases made : graph.wrapLosses loss with failure | g
      · exact same
      · exact wrapLosses_remodels made

/-- What holds of every slot that is added and survives a change of its model holds of every slot after an operation. -/
theorem perform_slots {Holds : GraphFactor K → Prop} (remodelled : ∀ f f', f.Remodels f' → Holds f → Holds f')
    {op : Operation K} (added : ∀ keys factor noise, op = .add keys factor noise →
      GraphFactor.Fits ⟨keys, factor, noise⟩ → Holds ⟨keys, factor, noise⟩)
    (before : ∀ f ∈ graph.factors, Holds f) : ∀ f ∈ (graph.perform op).1.factors, Holds f := by
  cases transform : op.isAddition with
  | false =>
      intro f' member
      obtain ⟨slot, inside, rfl⟩ := List.getElem_of_mem member
      have remodels := graph.perform_remodels transform
      have inside' := remodels.length_eq ▸ inside
      exact remodelled _ _ (remodels.get inside' inside) (before _ (List.getElem_mem inside'))
  | true =>
      cases op with
      | add keys factor noise =>
          rcases graph.perform_add with ⟨slots, -, fits⟩ | ⟨⟨failure, failed⟩, -⟩
          · rw [slots]
            intro f member
            rcases List.mem_append.mp member with earlier | new
            · exact before f earlier
            · obtain rfl := List.mem_singleton.mp new
              exact added keys factor noise rfl fits
          · rw [failed]
            exact before
      | reweight weights | stripRobustLosses | wrapLosses loss => cases transform

/-- The same after any operations. -/
theorem after_slots {Holds : GraphFactor K → Prop} (remodelled : ∀ f f', f.Remodels f' → Holds f → Holds f')
    {ops : List (Operation K)} (added : ∀ keys factor noise, .add keys factor noise ∈ ops →
      GraphFactor.Fits ⟨keys, factor, noise⟩ → Holds ⟨keys, factor, noise⟩)
    (before : ∀ f ∈ graph.factors, Holds f) : ∀ f ∈ (graph.after ops).factors, Holds f := by
  induction ops generalizing graph with
  | nil => exact before
  | cons op ops ih =>
      refine ih (fun keys factor noise later => added keys factor noise (.tail _ later)) ?_
      refine perform_slots remodelled (fun keys factor noise same => added keys factor noise ?_) before
      exact same ▸ .head _

theorem after_fits (ops : List (Operation K)) : ∀ f ∈ ((empty : Graph K).after ops).factors, f.Fits := by
  refine after_slots (fun f f' remodels => remodels.fits) (fun _ _ _ _ fits => fits) ?_
  intro f member
  cases member

theorem after_flat {ops : List (Operation K)} (admitted : ∀ op ∈ ops, op.Admitted Noise.Made) :
    ∀ f ∈ ((empty : Graph K).after ops).factors, f.noise.Flat := by
  refine after_slots (fun f f' remodels => remodels.flat) ?_ ?_
  · intro keys factor noise member fits
    exact (admitted _ member : noise.Made).flat
  · intro f member
    cases member

omit [Scalar K] in
/-- The rows of slots that fit are those of their factors, as far as a machine word counts them. -/
theorem residualDimension_factors (fits : ∀ f ∈ graph.factors, f.Fits) :
    graph.residualDimension = (graph.factors.map (·.factor.value.dim)).sum % 2 ^ 64 := by
  have rows : graph.factors.map (·.factor.value.dim) = graph.factors.map (·.noise.dim) :=
    List.map_congr_left fun f member => (fits f member).dim_eq.symm
  rw [rows, List.sum_eq_foldr, List.foldr_map]
  rfl

/-- Whatever is done to graphs from the empty one on: every slot fits; a failure leaves the graph as it was; an addition
succeeds just where the factor fits, and puts it after all slots; and the other operations keep every slot but for its
model. Losses are nested only if a model that was handed in nests them. -/
theorem operations_keep_slots (ops : List (Operation K)) :
    let graph := (empty : Graph K).after ops
    (∀ f ∈ graph.factors, f.Fits) ∧
    ((∀ op ∈ ops, op.Admitted Noise.Made) → ∀ f ∈ graph.factors, f.noise.Flat) ∧
    graph.residualDimension = (graph.factors.map (·.factor.value.dim)).sum % 2 ^ 64 ∧
    (∀ op failure, (graph.perform op).2 = .error failure → (graph.perform op).1 = graph) ∧
    (∀ keys factor noise,
      ((∃ slot, (graph.perform (.add keys factor noise)).2 = .ok slot) ↔ GraphFactor.Fits ⟨keys, factor, noise⟩) ∧
      ∀ slot, (graph.perform (.add keys factor noise)).2 = .ok slot → slot = some graph.size ∧
        (graph.perform (.add keys factor noise)).1.factors = graph.factors ++ [⟨keys, factor, noise⟩]) ∧
    ∀ op, op.isAddition = false →
      List.Forall₂ GraphFactor.SameFrame graph.factors (graph.perform op).1.factors ∧
      (graph.perform op).1.residualDimension = graph.residualDimension := by
  intro graph
  have fits : ∀ f ∈ graph.factors, f.Fits := after_fits ops
  refine ⟨fits, after_flat, residualDimension_factors fits, fun op failure => perform_failed, ?_, ?_⟩
  · intro keys factor noise
    rcases graph.perform_add with ⟨slots, reported, fits⟩ | ⟨⟨failure, failed⟩, misfit⟩
    · refine ⟨iff_of_true ⟨_, reported⟩ fits, fun slot done => ?_⟩
      exact ⟨(Except.ok.inj (reported.symm.trans done)).symm, slots⟩
    · rw [failed]
      refine ⟨iff_of_false ?_ misfit, fun slot done => by cases done⟩
      rintro ⟨slot, done⟩
      cases done
  · intro op transform
    have frame : List.Forall₂ GraphFactor.SameFrame graph.factors (graph.perform op).1.factors :=
      (graph.perform_remodels transform).imp fun f f' remodels => remodels.toSameFrame
    exact ⟨frame, residualDimension_of_frame frame⟩

/-- Two factors of more rows together than a machine word counts are counted as none, and a model that is written out
can have a loss under its loss. -/
theorem operations_limits :
    let factor (rows : Nat) : Shared (Factor ℝ) := ⟨0, ⟨rows, 1, fun _ _ => none⟩⟩
    let loss : Shared (Loss ℝ) := ⟨0, .quadratic 1 0⟩
    let half : Operation ℝ := .add ["x"] (factor (2 ^ 63)) (.unit (2 ^ 63))
    let nested : Operation ℝ := .add ["x"] (factor 1) (.robust loss (.robust loss (.unit 1)))
    ((empty.after [half, half]).residualDimension = 0 ∧
      ((empty.after [half, half]).factors.map (·.factor.value.dim)).sum = 2 ^ 64) ∧
    ∃ f ∈ (empty.after [nested]).factors, f.noise.withoutRobustLoss.isRobust = true := by
  intro factor loss half nested
  have twice (rows : Nat) :
      let op : Operation ℝ := .add ["x"] (factor rows) (.unit rows)
      let graph := empty.after [op, op]
      graph.residualDimension = (rows + rows) % Nat.pow 2 64 ∧
        (graph.factors.map (·.factor.value.dim)).sum = rows + rows := by
    simp [after, perform, apply, add, empty, factor, residualDimension, Noise.dim]
  obtain ⟨counted, total⟩ := twice (2 ^ 63)
  refine ⟨⟨counted.trans ?_, total.trans ?_⟩, ?_⟩
  · norm_num
  · norm_num
  · exact ⟨_, .head _, rfl⟩

end Operations

end Graph

end GraduatedFit
