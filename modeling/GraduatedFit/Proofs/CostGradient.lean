import GraduatedFit.Proofs.DenseAssembly
import GraduatedFit.Proofs.MovedEstimate
import GraduatedFit.Proofs.WhitenedDerivative

/-! The gradient of the cost. The cost is evaluated slot by slot and never through a Jacobian; the stacked Jacobian and
residual give its derivative along every direction. -/

namespace GraduatedFit

open Filter Topology SparseMat

/-- Variables moved along directions. -/
def along (params directions : List (Vec ℝ)) (t : ℝ) : List (Vec ℝ) :=
  List.zipWith (List.zipWith fun p d => p + t * d) params directions

theorem along_zero {params directions : List (Vec ℝ)} (sizes : directions.map List.length = params.map List.length) :
    along params directions 0 = params := by
  induction params generalizing directions with
  | nil => rfl
  | cons param params ih =>
      cases directions with
      | nil => cases sizes
      | cons direction directions =>
          obtain ⟨size, rest⟩ := List.cons.inj sizes
          have same : List.zipWith (fun p d => p + 0 * d) param direction = param := by
            apply List.ext_getElem
            · rw [List.length_zipWith, size, min_self]
            · intro i _ _
              simp
          change _ :: along params directions 0 = _
          rw [same, ih rest]

namespace Factor

/-- At the given variables the Jacobian is the derivative of the residual, along every direction. -/
def DerivedAt (factor : Factor ℝ) (params : List (Vec ℝ)) : Prop :=
  ∀ r A, factor.linearize? params true = some (r, some A) →
    ∀ directions : List (Vec ℝ), directions.map List.length = params.map List.length →
      ∃ residual : ℝ → Vec ℝ, (∀ t, (residual t).length = r.length) ∧
        (∀ᶠ t in 𝓝 0, ∃ jacobian, factor.linearize? (along params directions t) false = some (residual t, jacobian)) ∧
        ∀ i < r.length, HasDerivAt (fun t => (residual t).getD i 0) (Vec.dot (A.rows.getD i []) directions.flatten) 0

theorem linearize_prior {data p : Vec ℝ} (size : p.length = data.length) :
    (prior data).linearize? [p] true = some (List.zipWith (· - ·) p data, some (Mat.identity data.length)) := by
  simp [prior, ofParts, Vec.sub?, Vec.zip?, size]

/-- The Jacobian of a prior is the derivative of its residual. -/
theorem prior_derived {data p : Vec ℝ} (size : p.length = data.length) : (prior data).DerivedAt [p] := by
  intro r A evaluated directions sizes
  obtain ⟨rfl, jacobian⟩ := Prod.mk.inj (Option.some.inj ((linearize_prior size).symm.trans evaluated))
  obtain rfl := Option.some.inj jacobian
  obtain ⟨d, rfl⟩ : ∃ d, directions = [d] := List.length_eq_one_iff.mp (by simpa using congrArg List.length sizes)
  have wide : d.length = data.length := (List.cons.inj sizes).1.trans size
  refine ⟨fun t => List.zipWith (· - ·) (List.zipWith (fun p d => p + t * d) p d) data, ?_, ?_, ?_⟩
  · intro t
    simp [size, wide]
  · apply Eventually.of_forall
    intro t
    exact ⟨none, by simp [along, prior, ofParts, Vec.sub?, Vec.zip?, size, wide]⟩
  · intro i inside
    have bound : i < data.length := by
      rw [List.length_zipWith] at inside
      omega
    have row : Vec.dot ((Mat.identity data.length).rows.getD i []) [d].flatten = d.getD i 0 := by
      have entries : ∀ j ∈ Finset.range data.length, ((Mat.identity data.length).rows.getD i []).getD j 0 * d.getD j 0 =
          if i = j then d.getD j 0 else 0 := by
        intro j member
        simp [Mat.identity, Mat.ofFn, bound, Finset.mem_range.mp member]
      rw [List.flatten_singleton, Vec.dot_eq_range _ d data.length (by simp [Mat.identity, Mat.ofFn, bound]) wide,
        Finset.sum_congr rfl entries, Finset.sum_ite_eq, if_pos (Finset.mem_range.mpr bound)]
    have entry : (fun t => (List.zipWith (· - ·) (List.zipWith (fun p d => p + t * d) p d) data).getD i 0) =
        fun t => p.getD i 0 + t * d.getD i 0 - data.getD i 0 := by
      funext t
      simp [List.getD_eq_getElem?_getD, bound, size, wide]
    rw [row, entry]
    have linear := (((hasDerivAt_id (0 : ℝ)).mul_const (d.getD i 0)).const_add (p.getD i 0)).sub_const (data.getD i 0)
    exact linear.congr_deriv (one_mul _)

end Factor

namespace GraphFactor

variable {f : GraphFactor ℝ} {values : Values ℝ}

/-- The Jacobian of the factor is the derivative of its residual, and the loss has a positive slope there. -/
structure SmoothAt (values : Values ℝ) (f : GraphFactor ℝ) : Prop where
  coherent : f.factor.value.Coherent
  derived : ∀ params, f.params values = .ok params → f.factor.value.DerivedAt params
  noise : ∀ r, f.residual values = .ok r → f.noise.SmoothAt r

theorem residual_of_linearize (coherent : f.factor.value.Coherent) {params : List (Vec ℝ)} {r : Vec ℝ} {A : Mat ℝ}
    (known : f.params values = .ok params) (evaluated : f.factor.value.linearize? params true = some (r, some A))
    (length : r.length = f.noise.dim) : f.residual values = .ok r := by
  obtain ⟨jacobian, unwanted⟩ := coherent _ _ _ evaluated
  simp only [residual, known, unwanted, Result.ok_bind, Result.ofShape, checkResidual, if_pos length]
  rfl

/-- Along a direction the error of a slot changes at the rate that its whitened and corrected system gives. -/
theorem SmoothAt.error_slope (smooth : f.SmoothAt values) {system : Vec ℝ × Mat ℝ}
    (hasSystem : f.HasSystem values system) {params directions : List (Vec ℝ)} (known : f.params values = .ok params)
    (sizes : directions.map List.length = params.map List.length) {moved : ℝ → Values ℝ}
    (moves : ∀ t, f.params (moved t) = .ok (along params directions t)) :
    ∃ cost : ℝ → ℝ, (∀ᶠ t in 𝓝 0, f.error (moved t) = .ok (cost t)) ∧
      HasDerivAt cost (Vec.dot system.1 (system.2.apply directions.flatten)) 0 := by
  obtain ⟨params', r, A, known', evaluated, length, height, width, whitened⟩ := linearize_ok_iff.mp hasSystem.linear
  obtain rfl := Except.ok.inj (known.symm.trans known')
  obtain ⟨residual, lengths, near, slopes⟩ := smooth.derived _ known r A evaluated directions sizes
  have start : residual 0 = r := by
    obtain ⟨jacobian, here⟩ := near.self_of_nhds
    obtain ⟨jacobian', unwanted⟩ := smooth.coherent _ _ _ evaluated
    rw [along_zero sizes] at here
    exact (Prod.mk.inj (Option.some.inj (here.symm.trans unwanted))).1
  have rows : A.height = r.length := height.trans length.symm
  have moves' : Noise.Moves residual A directions.flatten := by
    refine ⟨?_, fun t => (lengths t).trans rows.symm, ?_⟩
    · rw [width, List.length_flatten, List.length_flatten, sizes]
    · intro i inside
      rw [Mat.apply_getD]
      exact slopes i (rows ▸ inside)
  have noise := smooth.noise r (residual_of_linearize smooth.coherent known evaluated length)
  obtain ⟨cost, costs, derivative⟩ := Noise.error_hasDerivAt moves' height (start.symm ▸ noise)
    (start.symm ▸ whitened)
  refine ⟨cost, ?_, derivative⟩
  filter_upwards [near] with t ⟨jacobian, evaluated'⟩
  exact error_ok_iff.mpr ⟨_, _, _, moves t, evaluated', (lengths t).trans length, costs t⟩

end GraphFactor

namespace Graph

variable {values : Values ℝ} {layout : Layout}

/-- The rate at which the error of a slot changes along a stacked direction. -/
noncomputable def slotSlope (values : Values ℝ) (layout : Layout) (h : Vec ℝ) (f : GraphFactor ℝ)
    (system : Vec ℝ × Mat ℝ) : ℝ :=
  Vec.dot system.1 (system.2.apply (directions values layout h f.keys).flatten)

/-- What the Jacobian of a slot makes of a stacked direction. -/
noncomputable def slotImage (values : Values ℝ) (layout : Layout) (h : Vec ℝ) (f : GraphFactor ℝ)
    (system : Vec ℝ × Mat ℝ) : Vec ℝ :=
  system.2.apply (directions values layout h f.keys).flatten

section Products

theorem length_directions {h : Vec ℝ} {keys : List String}
    (inside : ∀ key ∈ keys, layout.startOf key + values.sizeOf key ≤ h.length) :
    (directions values layout h keys).map List.length = keys.map values.sizeOf := by
  rw [directions, List.map_map]
  apply List.map_congr_left
  intro key member
  have := inside key member
  simp only [Function.comp_apply, List.length_take, List.length_drop]
  omega

/-- The entries of a slot times weights by row and direction by column, summed. -/
theorem sum_slotEntries {row column : Nat} {A : Mat ℝ} {h : Vec ℝ} {keys : List String}
    (inside : ∀ key ∈ keys, layout.startOf key + values.sizeOf key ≤ h.length) (weight : Nat → ℝ) :
    ((slotEntries values layout row A column keys).map fun e => e.2 * (weight e.1.1 * h.getD e.1.2 0)).sum =
      ∑ i ∈ Finset.range A.height, weight (row + i) * ∑ q ∈ Finset.range (keys.map values.sizeOf).sum,
        A.get i (column + q) * (directions values layout h keys).flatten.getD q 0 := by
  induction keys generalizing column with
  | nil => simp [slotEntries]
  | cons key keys ih =>
      have bound := inside key (.head _)
      have length : ((h.drop (layout.startOf key)).take (values.sizeOf key)).length = values.sizeOf key := by
        rw [List.length_take, List.length_drop]
        omega
      have first : ∀ c ∈ Finset.range (values.sizeOf key),
          (directions values layout h (key :: keys)).flatten.getD c 0 = h.getD (layout.startOf key + c) 0 := by
        intro c member
        have small : c < values.sizeOf key := Finset.mem_range.mp member
        rw [directions, List.map_cons, List.flatten_cons, List.getD_append _ _ _ _ (length.symm ▸ small)]
        simp [List.getD_eq_getElem?_getD, small]
      have later (q : Nat) : (directions values layout h (key :: keys)).flatten.getD (values.sizeOf key + q) 0 =
          (directions values layout h keys).flatten.getD q 0 := by
        rw [directions, List.map_cons, List.flatten_cons, List.getD_append_right _ _ _ _ (by rw [length]; omega),
          length, Nat.add_sub_cancel_left]
        rfl
      rw [slotEntries, List.map_append, List.sum_append, sum_denseBlock,
        ih fun other member => inside other (.tail _ member), ← Finset.sum_add_distrib]
      apply Finset.sum_congr rfl
      intro i _
      rw [List.map_cons, List.sum_cons, Finset.sum_range_add, mul_add]
      refine congrArg₂ (· + ·) ?_ ?_
      · rw [Finset.mul_sum]
        apply Finset.sum_congr rfl
        intro c member
        rw [first c member]
        ring
      · simp only [later, Nat.add_assoc]

/-- The rows of the images are the rows of the slots. -/
theorem length_slotImages {fs : List (GraphFactor ℝ)} {systems : List (Vec ℝ × Mat ℝ)}
    (each : List.Forall₂ (GraphFactor.HasSystem values) fs systems) (h : Vec ℝ) :
    (List.zipWith (slotImage values layout h) fs systems).map List.length =
      (systems.map Prod.fst).map List.length := by
  induction each with
  | nil => rfl
  | cons first rest ih =>
      rw [List.zipWith_cons_cons, List.map_cons, List.map_cons, List.map_cons, ih, first.rows, ← first.height]
      exact congrArg (· :: _) (Mat.length_apply _ _)

/-- The entries of the slots times weights by row and the direction by column, summed over the rows of the images. -/
theorem sum_graphEntries (row : Nat) {fs : List (GraphFactor ℝ)} {systems : List (Vec ℝ × Mat ℝ)}
    (each : List.Forall₂ (GraphFactor.HasSystem values) fs systems) {h : Vec ℝ}
    (inside : ∀ f ∈ fs, ∀ key ∈ f.keys, layout.startOf key + values.sizeOf key ≤ h.length) (weight : Nat → ℝ) :
    let images := (List.zipWith (slotImage values layout h) fs systems).flatten
    ((graphEntries values layout row fs systems).map fun e => e.2 * (weight e.1.1 * h.getD e.1.2 0)).sum =
      ∑ p ∈ Finset.range images.length, weight (row + p) * images.getD p 0 := by
  induction each generalizing row with
  | nil => rfl
  | @cons f system fs systems first rest ih =>
      have wide : (directions values layout h f.keys).flatten.length = system.2.width := by
        rw [List.length_flatten, length_directions (inside f (.head _)), first.width]
      have length : (slotImage values layout h f system).length = system.2.height := Mat.length_apply _ _
      -- The rows of the first slot come before those of the others.
      have own : ∀ i ∈ Finset.range system.2.height, weight (row + i) *
          (slotImage values layout h f system ++ (List.zipWith (slotImage values layout h) fs systems).flatten).getD i 0 =
          weight (row + i) * ∑ q ∈ Finset.range (f.keys.map values.sizeOf).sum,
            system.2.get i (0 + q) * (directions values layout h f.keys).flatten.getD q 0 := by
        intro i member
        have inside := Finset.mem_range.mp member
        rw [List.getD_append _ _ _ _ (inside.trans_eq length.symm), slotImage, Mat.apply_getD,
          Vec.dot_eq_range _ _ system.2.width (Mat.length_row inside) wide, first.width]
        simp only [Nat.zero_add]
        rfl
      have others (p : Nat) :
          (slotImage values layout h f system ++ (List.zipWith (slotImage values layout h) fs systems).flatten).getD
            (f.noise.dim + p) 0 = (List.zipWith (slotImage values layout h) fs systems).flatten.getD p 0 := by
        rw [List.getD_append_right _ _ _ _ (by rw [length, first.height]; omega), length, first.height,
          Nat.add_sub_cancel_left]
      dsimp only at ih ⊢
      rw [graphEntries, List.map_append, List.sum_append, ih _ (fun g member => inside g (.tail _ member)),
        sum_slotEntries (inside f (.head _)), List.zipWith_cons_cons, List.flatten_cons, List.length_append, length,
        Finset.sum_range_add, Finset.sum_congr rfl own]
      simp only [first.height, others, Nat.add_assoc]

/-- The residuals of the slots times their images. -/
theorem dot_slotImages {fs : List (GraphFactor ℝ)} {systems : List (Vec ℝ × Mat ℝ)}
    (each : List.Forall₂ (GraphFactor.HasSystem values) fs systems) (h : Vec ℝ) :
    Vec.dot (systems.map Prod.fst).flatten (List.zipWith (slotImage values layout h) fs systems).flatten =
      (List.zipWith (slotSlope values layout h) fs systems).sum := by
  induction each with
  | nil => simp [Vec.dot_real]
  | @cons f system fs systems first rest ih =>
      have same : system.1.length = (slotImage values layout h f system).length :=
        first.rows.trans (first.height.symm.trans (Mat.length_apply _ _).symm)
      rw [List.map_cons, List.zipWith_cons_cons, List.flatten_cons, List.flatten_cons, List.zipWith_cons_cons,
        List.sum_cons, ← ih, Vec.dot_real, Vec.dot_real, List.zipWith_append same, List.sum_append, ← Vec.dot_real]
      rfl

/-- The product of the stacked Jacobian and residual with a direction, slot by slot. -/
theorem dot_transposeMul {graph : Graph ℝ} (columns : graph.Columns values layout)
    {systems : List (Vec ℝ × Mat ℝ)} (each : List.Forall₂ (GraphFactor.HasSystem values) graph.factors systems)
    {r : Vec ℝ} (stacked : r = (systems.map Prod.fst).flatten) {height : Nat} {J : SparseMat ℝ}
    (filled : J = ofEntries height layout.totalDof (graphEntries values layout 0 graph.factors systems))
    (formed : J.WellFormed) {h : Vec ℝ} (length : h.length = layout.totalDof) :
    Vec.dot (J.transposeMul r) h = (List.zipWith (slotSlope values layout h) graph.factors systems).sum := by
  have blocks : ∀ f ∈ graph.factors, ∀ key ∈ f.keys, layout.startOf key + values.sizeOf key ≤ h.length := by
    intro f present key member
    rw [length]
    exact columns.block_inside (columns.listed present member)
  have inside : ∀ e ∈ graphEntries values layout 0 graph.factors systems,
      e.1.1 < r.length ∧ e.1.2 < layout.totalDof := by
    intro e member
    rw [stacked]
    exact columns.entry_inside each member
  have width : J.width = layout.totalDof := by
    rw [filled]
    simp [SparseMat.width, ofEntries]
  have product : (J.transposeMul r).length = layout.totalDof := (List.length_map _).trans width
  let images := (List.zipWith (slotImage values layout h) graph.factors systems).flatten
  have rows : r.length = images.length := by
    rw [stacked, List.length_flatten, List.length_flatten, length_slotImages each]
  have entry : ∀ a ∈ Finset.range layout.totalDof, (J.transposeMul r).getD a 0 * h.getD a 0 =
      ∑ p ∈ Finset.range r.length, J.get p a * (r.getD p 0 * h.getD a 0) := by
    intro a member
    rw [transposeMul_getD formed _ (width.symm ▸ Finset.mem_range.mp member), Finset.sum_mul]
    apply Finset.sum_congr rfl
    intro p _
    ring
  calc
    Vec.dot (J.transposeMul r) h =
        ∑ a ∈ Finset.range layout.totalDof, (J.transposeMul r).getD a 0 * h.getD a 0 :=
      Vec.dot_eq_range _ h layout.totalDof product length
    _ = ∑ p ∈ Finset.range r.length, ∑ a ∈ Finset.range layout.totalDof, J.get p a * (r.getD p 0 * h.getD a 0) := by
      rw [Finset.sum_congr rfl entry, Finset.sum_comm]
    _ = ((graphEntries values layout 0 graph.factors systems).map fun e =>
        e.2 * (r.getD e.1.1 0 * h.getD e.1.2 0)).sum := by
      rw [filled]
      exact sum_ofEntries inside fun p a => r.getD p 0 * h.getD a 0
    _ = ∑ p ∈ Finset.range images.length, r.getD p 0 * images.getD p 0 := by
      rw [sum_graphEntries 0 each blocks fun p => r.getD p 0]
      simp only [Nat.zero_add, images]
    _ = (List.zipWith (slotSlope values layout h) graph.factors systems).sum := by
      rw [← dot_slotImages each, ← stacked, Vec.dot_eq_range r _ images.length rows rfl]

end Products

section Along

variable {graph : Graph ℝ} {h : Vec ℝ}

theorem zipWith_step (value : Vec ℝ) (start : Nat) (t : ℝ) :
    List.zipWith (· + ·) value ((h.map (t * ·)).drop start) =
      List.zipWith (fun p d => p + t * d) value ((h.drop start).take value.length) := by
  apply List.ext_getElem
  · simp
  · intro i _ _
    simp

/-- A multiple of a stacked direction moves the variables of a slot along their own blocks of the direction. -/
theorem params_along {moved : Values ℝ} {t : ℝ} {keys : List String} {params : List (Vec ℝ)}
    (known : keys.mapM values.find = .ok params)
    (places : ∀ key ∈ keys, ∀ value, values.find key = .ok value →
      moved.find key = .ok (List.zipWith (· + ·) value ((h.map (t * ·)).drop (layout.startOf key)))) :
    keys.mapM moved.find = .ok (along params (directions values layout h keys) t) := by
  have related := Result.mapM_ok_iff.mp known
  clear known
  apply Result.mapM_ok_iff.mpr
  induction related with
  | nil => exact .nil
  | @cons key value keys params found rest ih =>
      refine .cons ?_ (ih fun other member => places other (.tail _ member))
      rw [places key (.head _) value found, zipWith_step, ← Values.sizeOf_find found]

/-- Along a stacked direction the errors of the slots change together at the sum of their rates. -/
theorem errors_slope {fs : List (GraphFactor ℝ)} {systems : List (Vec ℝ × Mat ℝ)}
    (each : List.Forall₂ (GraphFactor.HasSystem values) fs systems) (smooth : ∀ f ∈ fs, f.SmoothAt values)
    {moved : ℝ → Values ℝ}
    (moves : ∀ f ∈ fs, ∃ params, f.params values = .ok params ∧
      (directions values layout h f.keys).map List.length = params.map List.length ∧
      ∀ t, f.params (moved t) = .ok (along params (directions values layout h f.keys) t)) :
    ∃ total : ℝ → ℝ, (∀ᶠ t in 𝓝 0, ∃ errors, fs.mapM (·.error (moved t)) = .ok errors ∧ errors.sum = total t) ∧
      HasDerivAt total (List.zipWith (slotSlope values layout h) fs systems).sum 0 := by
  induction each with
  | nil => exact ⟨fun _ => 0, .of_forall fun t => ⟨[], rfl, rfl⟩, hasDerivAt_const _ _⟩
  | @cons f system fs systems first rest ih =>
      obtain ⟨total, totals, slope⟩ := ih (fun g member => smooth g (.tail _ member))
        (fun g member => moves g (.tail _ member))
      obtain ⟨params, known, sizes, along⟩ := moves f (.head _)
      obtain ⟨cost, costs, own⟩ := (smooth f (.head _)).error_slope first known sizes along
      refine ⟨fun t => cost t + total t, ?_, own.add slope⟩
      filter_upwards [costs, totals] with t here ⟨errors, there, sum⟩
      refine ⟨cost t :: errors, ?_, by rw [List.sum_cons, sum]⟩
      rw [List.mapM_cons, here, there]
      rfl

/-- Along a stacked direction the estimate can be moved, and the cost changes at the sum of the rates of the slots. -/
theorem error_slope (columns : graph.Columns values layout) {systems : List (Vec ℝ × Mat ℝ)}
    (each : List.Forall₂ (GraphFactor.HasSystem values) graph.factors systems)
    (smooth : ∀ f ∈ graph.factors, f.SmoothAt values) (length : h.length = layout.totalDof) :
    ∃ cost : ℝ → ℝ, (∀ᶠ t in 𝓝 0, ∃ moved, values.retract? layout.order (h.map (t * ·)) = some moved ∧
        graph.error moved = .ok (cost t)) ∧
      HasDerivAt cost (List.zipWith (slotSlope values layout h) graph.factors systems).sum 0 := by
  have retracts (t : ℝ) := columns.retract_exists (h.map (t * ·)) (by rw [List.length_map, length])
  choose moved retracted places using retracts
  have moves : ∀ f ∈ graph.factors, ∃ params, f.params values = .ok params ∧
      (directions values layout h f.keys).map List.length = params.map List.length ∧
      ∀ t, f.params (moved t) = .ok (along params (directions values layout h f.keys) t) := by
    intro f present
    obtain ⟨params, known⟩ : ∃ params, f.params values = .ok params :=
      Result.mapM_exists fun key member => Values.find_exists (columns.contains (columns.listed present member))
    refine ⟨params, known, ?_, ?_⟩
    · rw [Values.sizes_find known]
      exact length_directions fun key member => length ▸ columns.block_inside (columns.listed present member)
    · intro t
      exact params_along known fun key member => places t key (columns.listed present member)
  obtain ⟨total, totals, slope⟩ := errors_slope each smooth moves
  refine ⟨total, ?_, slope⟩
  filter_upwards [totals] with t ⟨errors, evaluated, sum⟩
  refine ⟨moved t, retracted t, ?_⟩
  rw [error_sum, factorErrors, evaluated, ← sum]
  rfl

end Along

section Plain

theorem errors_plain {fs : List (GraphFactor ℝ)} {systems : List (Vec ℝ × Mat ℝ)}
    (each : List.Forall₂ (GraphFactor.HasSystem values) fs systems) (coherent : ∀ f ∈ fs, f.factor.value.Coherent)
    (plain : ∀ f ∈ fs, f.noise.isRobust = false) :
    fs.mapM (·.error values) = .ok (systems.map fun system => 0.5 * Vec.normSq system.1) := by
  rw [Result.mapM_ok_iff, List.forall₂_map_right_iff]
  induction each with
  | nil => exact .nil
  | cons first rest ih =>
      exact .cons (GraphFactor.error_of_linearize (plain _ (.head _)) (coherent _ (.head _)) first.linear)
        (ih (fun g member => coherent g (.tail _ member)) fun g member => plain g (.tail _ member))

theorem residuals_unwanted {fs : List (GraphFactor ℝ)} {systems : List (Vec ℝ × Mat ℝ)}
    (each : List.Forall₂ (GraphFactor.HasSystem values) fs systems) (coherent : ∀ f ∈ fs, f.factor.value.Coherent) :
    fs.mapM (·.linearize values false) = .ok (systems.map fun system => (system.1, none)) := by
  rw [Result.mapM_ok_iff, List.forall₂_map_right_iff]
  induction each with
  | nil => exact .nil
  | cons first rest ih =>
      exact .cons (GraphFactor.linearize_unwanted (coherent _ (.head _)) first.linear)
        (ih fun g member => coherent g (.tail _ member))

theorem normSq_flatten (blocks : List (Vec ℝ)) : Vec.normSq blocks.flatten = (blocks.map Vec.normSq).sum := by
  induction blocks with
  | nil => simp [Vec.normSq_real]
  | cons block blocks ih =>
      rw [List.flatten_cons, List.map_cons, List.sum_cons, ← ih, Vec.normSq_real, Vec.normSq_real, Vec.normSq_real,
        List.map_append, List.sum_append]

variable {graph : Graph ℝ} {pattern : Pattern} {r : Vec ℝ} {J : SparseMat ℝ}

/-- Without robust models the cost is half the squared norm of the residual. -/
theorem error_of_linearize (columns : graph.Columns values layout) (found : graph.pattern values layout = .ok pattern)
    (linear : graph.linearize values pattern = .ok (r, J)) (coherent : ∀ f ∈ graph.factors, f.factor.value.Coherent)
    (plain : graph.hasRobustFactors = false) : graph.error values = .ok (0.5 * Vec.normSq r) := by
  obtain ⟨systems, -, each, -, -, stacked, -⟩ := linearize_entries columns found linear
  rw [error_sum, factorErrors, errors_plain each coherent (hasRobustFactors_false_iff.mp plain), stacked,
    normSq_flatten, List.map_map, ← List.sum_map_mul_left]
  rfl

/-- The residual is the same when no Jacobian is asked for. -/
theorem stackedResidual_of_linearize (columns : graph.Columns values layout)
    (found : graph.pattern values layout = .ok pattern) (linear : graph.linearize values pattern = .ok (r, J))
    (coherent : ∀ f ∈ graph.factors, f.factor.value.Coherent) : graph.stackedResidual values = .ok r := by
  obtain ⟨systems, -, each, -, -, stacked, -⟩ := linearize_entries columns found linear
  rw [stackedResidual, residuals_unwanted each coherent, Result.ok_bind, List.map_map, stacked]
  rfl

end Plain

/-- The product of the stacked Jacobian with the stacked residual is the gradient of the cost. Without robust models the
cost is half the squared norm of the residual, and the residual is the same when no Jacobian is asked for. -/
theorem transposeMul_is_gradient {graph : Graph ℝ} (smooth : ∀ f ∈ graph.factors, f.SmoothAt values)
    {pattern : Pattern} {r : Vec ℝ} {J : SparseMat ℝ} (laid : graph.layout values = .ok layout)
    (found : graph.pattern values layout = .ok pattern) (linear : graph.linearize values pattern = .ok (r, J)) :
    (∀ h : Vec ℝ, h.length = layout.totalDof → ∃ cost : ℝ → ℝ,
      (∀ᶠ t in 𝓝 0, ∃ moved, values.retract? layout.order (h.map (t * ·)) = some moved ∧
        graph.error moved = .ok (cost t)) ∧
      HasDerivAt cost (Vec.dot (J.transposeMul r) h) 0) ∧
    (graph.hasRobustFactors = false → graph.error values = .ok (0.5 * Vec.normSq r)) ∧
    graph.stackedResidual values = .ok r := by
  have columns := layout_columns laid
  have coherent : ∀ f ∈ graph.factors, f.factor.value.Coherent := fun f present => (smooth f present).coherent
  refine ⟨?_, error_of_linearize columns found linear coherent,
    stackedResidual_of_linearize columns found linear coherent⟩
  intro h length
  have formed := (linearize_stored (pattern_inside found) linear).2
  obtain ⟨positions, -, -, rfl⟩ := pattern_ok_iff.mp found
  obtain ⟨systems, -, each, -, -, stacked, entries⟩ := linearize_entries columns found linear
  obtain ⟨cost, costs, slope⟩ := error_slope columns each smooth length
  refine ⟨cost, costs, ?_⟩
  rw [dot_transposeMul columns each stacked entries formed length]
  exact slope

end Graph

/-- A loss that grows faster than its argument. -/
noncomputable def Loss.growing : Loss ℝ := ⟨"growing", "Growing", [], fun s => ⟨s + s * s, 1 + (s + s), 1 + 1⟩⟩

theorem Loss.growing_smoothAt {s : ℝ} (nonneg : 0 ≤ s) : growing.SmoothAt s := by
  refine ⟨?_, ?_⟩
  · change 0 < 1 + (s + s)
    linarith
  · have square := (hasDerivAt_id s).add ((hasDerivAt_id s).mul (hasDerivAt_id s))
    have slope : 1 + (1 * s + s * 1) = 1 + (s + s) := by ring
    exact (square.congr_deriv slope).hasDerivWithinAt

/-- A prior of two components under that loss. -/
noncomputable def Graph.growing : Graph ℝ :=
  ⟨[⟨["y"], ⟨0, .prior [1, -1]⟩, .robust ⟨0, .growing⟩ (.unit 2)⟩]⟩

/-- The correction of second order has the gradient of a convex loss too. -/
theorem Graph.growing_gradient : ∃ layout pattern r J, growing.layout .paired = .ok layout ∧
    growing.pattern .paired layout = .ok pattern ∧ growing.linearize .paired pattern = .ok (r, J) ∧
    ∀ h : Vec ℝ, h.length = layout.totalDof → ∃ cost : ℝ → ℝ,
      (∀ᶠ t in 𝓝 0, ∃ moved, Values.paired.retract? layout.order (h.map (t * ·)) = some moved ∧
        growing.error moved = .ok (cost t)) ∧
      HasDerivAt cost (Vec.dot (J.transposeMul r) h) 0 := by
  have params : ∀ f ∈ growing.factors, f.params .paired = .ok [[0, 0]] := by
    simp [growing, GraphFactor.params, Values.find, Values.get?, Values.paired, List.lookup]
  have known : ∀ f ∈ growing.factors, ∀ key ∈ f.keys, Values.paired.contains key = true := by
    simp [growing, Values.contains, Values.get?, Values.paired, List.lookup]
  have shaped : ∀ f ∈ growing.factors, f.Shaped .paired := by
    intro f present other found
    obtain rfl := Except.ok.inj ((params f present).symm.trans found)
    obtain rfl := List.mem_singleton.mp present
    exact ⟨_, _, Factor.linearize_prior rfl, rfl, rfl, rfl⟩
  have smooth : ∀ f ∈ growing.factors, f.SmoothAt .paired := by
    intro f present
    have known := params f present
    obtain rfl := List.mem_singleton.mp present
    refine ⟨Factor.ofParts_coherent _ _ _ _, ?_, ?_⟩
    · intro other found
      obtain rfl := Except.ok.inj (known.symm.trans found)
      exact Factor.prior_derived rfl
    · intro r _ loss w same _
      obtain rfl := Option.some.inj same
      exact Loss.growing_smoothAt (Vec.normSq_nonneg w)
  have square : ∀ f ∈ growing.factors, f.noise.Square := by simp [growing, Noise.Square]
  have addressable : (growing.factors.map (·.noise.dim)).sum < 2 ^ 64 := by simp [growing, Noise.dim]
  obtain ⟨layout, pattern, r, J, laid, found, linear⟩ := linearize_exists square known shaped addressable
  exact ⟨layout, pattern, r, J, laid, found, linear, (transposeMul_is_gradient smooth laid found linear).1⟩

end GraduatedFit
