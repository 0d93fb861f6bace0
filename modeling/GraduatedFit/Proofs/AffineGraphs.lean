import GraduatedFit.Proofs.CostGradient
import GraduatedFit.Proofs.ErasedSlot
import GraduatedFit.Proofs.ScaledSystem
import GraduatedFit.Proofs.StackedSteps

/-! Graphs of affine factors: a step that moves the variables by the columns of the stacked Jacobian moves the stacked
residual by the product of that Jacobian with the step. -/

namespace GraduatedFit

namespace Graph

variable {graph : Graph ℝ} {values moved : Values ℝ} {layout : Layout} {h : Vec ℝ}

/-- The system of an affine slot after a stacked step. -/
noncomputable def movedSystem (values : Values ℝ) (layout : Layout) (h : Vec ℝ) (f : GraphFactor ℝ)
    (system : Vec ℝ × Mat ℝ) : Vec ℝ × Mat ℝ :=
  (List.zipWith (· + ·) system.1 (slotImage values layout h f system), system.2)

/-- The product of the stacked Jacobian with a step, slot by slot. -/
theorem Columns.mulVec_slotImages (columns : graph.Columns values layout) {systems : List (Vec ℝ × Mat ℝ)}
    (each : List.Forall₂ (GraphFactor.HasSystem values) graph.factors systems) (length : h.length = layout.totalDof)
    {height : Nat} (rows : (systems.map Prod.fst).flatten.length = height) :
    (SparseMat.ofEntries height layout.totalDof (graphEntries values layout 0 graph.factors systems)).mulVec h =
      (List.zipWith (slotImage values layout h) graph.factors systems).flatten := by
  have blocks : ∀ f ∈ graph.factors, ∀ key ∈ f.keys, layout.startOf key + values.sizeOf key ≤ h.length := by
    intro f present key member
    rw [length]
    exact columns.block_inside (columns.listed present member)
  have inside : ∀ e ∈ graphEntries values layout 0 graph.factors systems, e.1.1 < height ∧ e.1.2 < layout.totalDof :=
    fun e member => rows ▸ columns.entry_inside each member
  have size : (List.zipWith (slotImage values layout h) graph.factors systems).flatten.length = height := by
    rw [← rows, List.length_flatten, List.length_flatten, length_slotImages each]
  have tall : (SparseMat.ofEntries height layout.totalDof
      (graphEntries values layout 0 graph.factors systems)).height = height := rfl
  have wide : (SparseMat.ofEntries height layout.totalDof
      (graphEntries values layout 0 graph.factors systems)).width = layout.totalDof := by
    simp [SparseMat.width, SparseMat.ofEntries]
  refine Vec.ext_getD (by rw [SparseMat.length_mulVec, tall, size]) fun p bound => ?_
  rw [SparseMat.length_mulVec, tall] at bound
  -- A row is the sum over all entries that weighs its own by one and all others by zero.
  have all := (@SparseMat.sum_ofEntries height _ _ _ inside fun i a => (if i = p then 1 else 0) * h.getD a 0).trans
    (sum_graphEntries 0 each blocks fun i => if i = p then 1 else 0)
  rw [Finset.sum_eq_single_of_mem p (Finset.mem_range.mpr bound)
    fun i _ apart => Finset.sum_eq_zero fun a _ => by rw [if_neg apart, zero_mul, mul_zero]] at all
  rw [SparseMat.mulVec_getD _ _ bound, wide]
  simpa [size, bound] using all

/-- A step moves the variables of each slot by their own blocks of it. -/
theorem Columns.params_moved (columns : graph.Columns values layout) (length : h.length = layout.totalDof)
    (retracted : values.retract? layout.order h = some moved) {f : GraphFactor ℝ} (present : f ∈ graph.factors) :
    ∃ params, f.params values = .ok params ∧
      (directions values layout h f.keys).map List.length = params.map List.length ∧
      f.params moved = .ok (List.zipWith (List.zipWith (· + ·)) params (directions values layout h f.keys)) := by
  obtain ⟨_, retracted', places⟩ := columns.retract_exists h length.ge
  obtain rfl := Option.some.inj (retracted'.symm.trans retracted)
  obtain ⟨params, known⟩ : ∃ params, f.params values = .ok params :=
    Result.mapM_exists fun key member => Values.find_exists (columns.contains (columns.listed present member))
  refine ⟨params, known, ?_, ?_⟩
  · rw [Values.sizes_find known]
    exact length_directions fun key member => length ▸ columns.block_inside (columns.listed present member)
  · have once := params_along (t := 1) known fun key member value found => by
      simpa using places key (columns.listed present member) value found
    simp only [along, one_mul] at once
    exact once

/-- Each system of an affine graph after a step. -/
theorem Columns.systems_moved (columns : graph.Columns values layout) (length : h.length = layout.totalDof)
    (retracted : values.retract? layout.order h = some moved) (affine : ∀ f ∈ graph.factors, f.factor.value.Affine)
    (plain : ∀ f ∈ graph.factors, f.noise.isRobust = false) {systems : List (Vec ℝ × Mat ℝ)}
    (each : List.Forall₂ (GraphFactor.HasSystem values) graph.factors systems) :
    List.Forall₂ (GraphFactor.HasSystem moved) graph.factors
      (List.zipWith (movedSystem values layout h) graph.factors systems) := by
  have slots (f : GraphFactor ℝ) (present : f ∈ graph.factors) := columns.params_moved length retracted present
  generalize graph.factors = fs at affine plain each slots
  induction each with
  | nil => exact .nil
  | @cons f system fs systems first rest ih =>
      obtain ⟨params, known, sizes, moves⟩ := slots f (.head _)
      obtain ⟨A, same, hasSystem⟩ := GraphFactor.hasSystem_of_linearize
        (first.moved (affine f (.head _)) (plain f (.head _)) known sizes moves)
      obtain rfl := Option.some.inj same
      exact .cons hasSystem (ih (fun g member => affine g (.tail _ member)) (fun g member => plain g (.tail _ member))
        fun g member => slots g (.tail _ member))

theorem movedSystems_residual {fs : List (GraphFactor ℝ)} {systems : List (Vec ℝ × Mat ℝ)}
    (each : List.Forall₂ (GraphFactor.HasSystem values) fs systems) :
    ((List.zipWith (movedSystem values layout h) fs systems).map Prod.fst).flatten =
      List.zipWith (· + ·) (systems.map Prod.fst).flatten
        (List.zipWith (slotImage values layout h) fs systems).flatten := by
  rw [← Vec.flatten_zipWith_add (length_slotImages each h)]
  refine congrArg List.flatten ?_
  induction each with
  | nil => rfl
  | cons first rest ih =>
      rw [List.zipWith_cons_cons, List.map_cons, ih]
      rfl

theorem slotEntries_shape (shape : values.SameShape moved) (row column : Nat) (A : Mat ℝ) (keys : List String) :
    slotEntries moved layout row A column keys = slotEntries values layout row A column keys := by
  induction keys generalizing column with
  | nil => rfl
  | cons key keys ih => rw [slotEntries, slotEntries, ih, shape.sizeOf_eq]

/-- A step leaves the entries of the stacked Jacobian what and where they are. -/
theorem graphEntries_moved (shape : values.SameShape moved) (row : Nat) (fs : List (GraphFactor ℝ))
    (systems : List (Vec ℝ × Mat ℝ)) :
    graphEntries moved layout row fs (List.zipWith (movedSystem values layout h) fs systems) =
      graphEntries values layout row fs systems := by
  induction fs generalizing row systems with
  | nil => rfl
  | cons f fs ih =>
      cases systems with
      | nil => rfl
      | cons system systems =>
          rw [List.zipWith_cons_cons, graphEntries, graphEntries, ih, slotEntries_shape shape]
          rfl

section Linearized

variable {pattern : Pattern} {r : Vec ℝ} {J : SparseMat ℝ}

/-- The stacked system has as many rows as there are residuals, where a machine word can count them, and a column for
each component. -/
theorem Columns.linearize_dims (columns : graph.Columns values layout)
    (addressable : (graph.factors.map (·.noise.dim)).sum < 2 ^ 64) (found : graph.pattern values layout = .ok pattern)
    (linear : graph.linearize values pattern = .ok (r, J)) : r.length = J.height ∧ J.width = layout.totalDof := by
  obtain ⟨systems, -, each, -, -, rfl, rfl⟩ := linearize_entries columns found linear
  obtain ⟨_, -, -, rfl⟩ := pattern_ok_iff.mp found
  refine ⟨?_, by simp [SparseMat.width, SparseMat.ofEntries]⟩
  rw [length_residual each, ← residualDimension_eq addressable]
  rfl

/-- The stacked system of an affine graph after a step. -/
theorem Columns.linearize_moved (columns : graph.Columns values layout)
    (found : graph.pattern values layout = .ok pattern) (linear : graph.linearize values pattern = .ok (r, J))
    (fits : r.length = J.height) (affine : ∀ f ∈ graph.factors, f.factor.value.Affine)
    (plain : graph.hasRobustFactors = false) (length : h.length = layout.totalDof)
    (retracted : values.retract? layout.order h = some moved) :
    graph.pattern moved layout = .ok pattern ∧
      graph.linearize moved pattern = .ok (List.zipWith (· + ·) r (J.mulVec h), J) := by
  have shape := Values.retract_shape retracted
  have found' : graph.pattern moved layout = .ok pattern := (pattern_shape shape graph layout).trans found
  obtain ⟨_, -, -, rfl⟩ := pattern_ok_iff.mp found
  obtain ⟨systems, -, each, -, -, rfl, rfl⟩ := linearize_entries columns found linear
  have each' := columns.systems_moved length retracted affine (hasRobustFactors_false_iff.mp plain) each
  have rows : (systems.map Prod.fst).flatten.length = graph.residualDimension := fits
  refine ⟨found', ?_⟩
  rw [(columns.of_shape shape).linearize_systems found' each', movedSystems_residual each, graphEntries_moved shape]
  dsimp only
  rw [columns.mulVec_slotImages each length rows]

end Linearized

/-- Retraction and linearization of affine factors without robust models read a step by the same columns: each component
of a variable is moved by the entry of its column, the stacked residual by the product of the Jacobian with the step,
and steps one after the other add up. -/
theorem retract_linearize_affine {graph : Graph ℝ} {values : Values ℝ}
    (affine : ∀ f ∈ graph.factors, f.factor.value.Affine) (plain : graph.hasRobustFactors = false)
    (known : ∀ f ∈ graph.factors, ∀ key ∈ f.keys, values.contains key = true)
    (addressable : (graph.factors.map (·.noise.dim)).sum < 2 ^ 64) :
    ∃ layout pattern, graph.layout values = .ok layout ∧ graph.Columns values layout ∧
      graph.pattern values layout = .ok pattern ∧
      ((∀ f ∈ graph.factors, f.Shaped values ∧ f.noise.Sound) →
        ∃ r J, graph.linearize values pattern = .ok (r, J)) ∧
      ∀ h : Vec ℝ, h.length = layout.totalDof →
        ∃ moved, values.retract? layout.order h = some moved ∧ Values.Stepped layout h values moved ∧
          (∀ r J, graph.linearize values pattern = .ok (r, J) → r.length = J.height ∧ h.length = J.width ∧
            graph.linearize moved pattern = .ok (List.zipWith (· + ·) r (J.mulVec h), J) ∧
            graph.stackedResidual moved = .ok (List.zipWith (· + ·) r (J.mulVec h))) ∧
          (∀ h' : Vec ℝ, h'.length = layout.totalDof →
            moved.retract? layout.order h' = values.retract? layout.order (List.zipWith (· + ·) h h')) ∧
          moved.retract? layout.order (h.map (- ·)) = some values := by
  obtain ⟨layout, laid⟩ := layout_exists known
  have columns := layout_columns laid
  obtain ⟨positions, found⟩ := columns.pattern_exists addressable
  have coherent : ∀ f ∈ graph.factors, f.factor.value.Coherent := fun f present => (affine f present).coherent
  refine ⟨layout, _, laid, columns, found, ?_, fun h length => ?_⟩
  · intro regular
    obtain ⟨systems, each⟩ := forall₂_exists fun f present =>
      (regular f present).1.hasSystem (regular f present).2.square (known f present)
    exact ⟨_, _, columns.linearize_systems found each⟩
  · obtain ⟨moved, retracted, stepped⟩ := columns.retract_stepped length
    refine ⟨moved, retracted, stepped, ?_, fun h' length' => columns.retract_add length length' retracted,
      columns.retract_neg length retracted⟩
    intro r J linear
    obtain ⟨fits, width⟩ := columns.linearize_dims addressable found linear
    obtain ⟨found', linear'⟩ := columns.linearize_moved found linear fits affine plain length retracted
    exact ⟨fits, length.trans width.symm, linear',
      stackedResidual_of_linearize (columns.of_shape stepped.shape) found' linear' coherent⟩

/-- A slot that refers to its variables in another order than that of their columns, and a prior. -/
noncomputable def crossed : Graph ℝ where
  factors := [⟨["y", "x"], ⟨0, .affine (Mat.ofFn 1 3 fun _ j => j) [1] 2⟩, .unit 1⟩, ⟨["x"], ⟨1, .prior [1]⟩, .unit 1⟩]

theorem crossed_retract_linearize : ∃ layout pattern r J, crossed.layout .paired = .ok layout ∧
    crossed.pattern .paired layout = .ok pattern ∧ crossed.linearize .paired pattern = .ok (r, J) ∧
    ∀ h : Vec ℝ, h.length = layout.totalDof → ∃ moved, Values.paired.retract? layout.order h = some moved ∧
      crossed.linearize moved pattern = .ok (List.zipWith (· + ·) r (J.mulVec h), J) := by
  have affine : ∀ f ∈ crossed.factors, f.factor.value.Affine := by
    simp [crossed, Factor.affine_affine, Factor.prior_affine]
  have known : ∀ f ∈ crossed.factors, ∀ key ∈ f.keys, Values.paired.contains key = true := by
    simp [crossed, Values.contains, Values.get?, Values.paired, List.lookup]
  have shaped : ∀ f ∈ crossed.factors, f.Shaped .paired := by
    intro f present params found
    rcases List.mem_pair.mp present with rfl | rfl
    · obtain rfl : [[0, 0], [0]] = params := Except.ok.inj (.trans (by
        simp [GraphFactor.params, Values.find, Values.get?, Values.paired, List.lookup]) found)
      exact ⟨_, _, rfl, rfl, rfl, rfl⟩
    · obtain rfl : [[0]] = params := Except.ok.inj (.trans (by
        simp [GraphFactor.params, Values.find, Values.get?, Values.paired, List.lookup]) found)
      exact ⟨_, _, Factor.linearize_prior rfl, rfl, rfl, rfl⟩
  have sound : ∀ f ∈ crossed.factors, f.noise.Sound := by simp [crossed, Noise.Sound]
  obtain ⟨layout, pattern, laid, -, found, exist, steps⟩ := retract_linearize_affine affine rfl known
    (by simp [crossed, Noise.dim])
  obtain ⟨r, J, linear⟩ := exist fun f present => ⟨shaped f present, sound f present⟩
  refine ⟨layout, pattern, r, J, laid, found, linear, fun h length => ?_⟩
  obtain ⟨moved, retracted, -, shifted, -⟩ := steps h length
  exact ⟨moved, retracted, (shifted r J linear).2.2.1⟩

end Graph

end GraduatedFit
