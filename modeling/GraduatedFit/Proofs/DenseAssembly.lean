import GraduatedFit.Proofs.ColumnLayout
import GraduatedFit.Proofs.SparseEntries
import GraduatedFit.Proofs.WeightedSystem

/-! The stacked Jacobian entry by entry: at each place it adds up what the slot of the row has for the variable of the
column. -/

namespace GraduatedFit

open SparseMat

/-- Lists put together alike are paired piece by piece. -/
theorem zip_flatMap {α β γ : Type} {xs : List α} {f : α → List β} {g : α → List γ}
    (same : ∀ x ∈ xs, (f x).length = (g x).length) :
    List.zip (xs.flatMap f) (xs.flatMap g) = xs.flatMap fun x => List.zip (f x) (g x) := by
  induction xs with
  | nil => rfl
  | cons x xs ih =>
      rw [List.flatMap_cons, List.flatMap_cons, List.flatMap_cons, List.zip_append (same x (.head _)),
        ih fun y member => same y (.tail _ member)]

namespace Mat

variable {K : Type} [Scalar K]

/-- The columns of a window, row by row. -/
theorem window_eq (A : Mat K) {column size : Nat} (inside : column + size ≤ A.width) :
    (A.rows.map (·.drop column)).flatMap (·.take size) =
      (List.range A.height).flatMap fun i => (List.range size).map fun c => A.get i (column + c) := by
  have rows : A.rows = (List.range A.height).map fun i => A.rows.getD i [] := by
    apply List.ext_getElem
    · simp [height]
    · intro i bound _
      simp [bound]
  have row : ∀ i ∈ List.range A.height,
      ((A.rows.getD i []).drop column).take size = (List.range size).map fun c => A.get i (column + c) := by
    intro i member
    have bound : i < A.rows.length := List.mem_range.mp member
    have wide := A.regular _ (List.getElem_mem bound)
    apply List.ext_getElem
    · simp [bound, wide]
      omega
    · intro c _ short
      have within : column + c < A.rows[i].length := by
        rw [wide]
        have : c < size := by simpa using short
        omega
      simp [get, bound, within]
  conv_lhs => rw [rows]
  rw [List.map_map, List.flatMap_map]
  exact List.flatMap_congr row

end Mat

namespace GraphFactor

variable {K : Type} [Scalar K]

/-- The whitened and corrected system of a slot, with a row per residual and a column per component. -/
structure HasSystem (values : Values K) (f : GraphFactor K) (system : Vec K × Mat K) : Prop where
  linear : f.linearize values true = .ok (system.1, some system.2)
  rows : system.1.length = f.noise.dim
  height : system.2.height = f.noise.dim
  width : system.2.width = (f.keys.map values.sizeOf).sum

/-- A residual of the dimension of the noise model and a Jacobian of matching shape. -/
def Shaped (values : Values K) (f : GraphFactor K) : Prop :=
  ∀ params, f.params values = .ok params → ∃ residual A,
    f.factor.value.linearize? params true = some (residual, some A) ∧ residual.length = f.noise.dim ∧
      A.height = f.noise.dim ∧ A.width = params.flatten.length

theorem hasSystem_of_linearize {values : Values K} {f : GraphFactor K} {residual : Vec K} {jacobian : Option (Mat K)}
    (linear : f.linearize values true = .ok (residual, jacobian)) :
    ∃ A, jacobian = some A ∧ f.HasSystem values (residual, A) := by
  obtain ⟨length, params, A, known, rfl, height, width⟩ := linearize_shape linear
  refine ⟨A, rfl, linear, length, height, ?_⟩
  rw [width, List.length_flatten, Values.sizes_find known]

/-- A block of matching shape is whitened and corrected. -/
theorem hasSystem_of_evaluated {values : Values K} {f : GraphFactor K} (square : f.noise.Square) {params : List (Vec K)}
    {residual : Vec K} {A : Mat K} (found : f.params values = .ok params)
    (evaluated : f.factor.value.linearize? params true = some (residual, some A)) (length : residual.length = f.noise.dim)
    (height : A.height = f.noise.dim) (width : A.width = params.flatten.length) :
    ∃ system, f.HasSystem values system := by
  obtain ⟨⟨whitened, jacobian⟩, system⟩ := Noise.whitenSystem_exists square length height
  have linear := linearize_ok_iff.mpr ⟨params, residual, A, found, evaluated, length, height, width, system⟩
  obtain ⟨B, -, hasSystem⟩ := hasSystem_of_linearize linear
  exact ⟨(whitened, B), hasSystem⟩

theorem Shaped.hasSystem {values : Values K} {f : GraphFactor K} (shaped : f.Shaped values) (square : f.noise.Square)
    (known : ∀ key ∈ f.keys, values.contains key = true) : ∃ system, f.HasSystem values system := by
  obtain ⟨params, found⟩ : ∃ params, f.params values = .ok params :=
    Result.mapM_exists fun key member => Values.find_exists (known key member)
  obtain ⟨residual, A, evaluated, length, height, width⟩ := shaped params found
  exact hasSystem_of_evaluated square found evaluated length height width

end GraphFactor

namespace Graph

variable {K : Type} [Scalar K] {values : Values K} {layout : Layout}

/-- The entries of a slot from a column of its Jacobian on: a dense block for each variable. -/
def slotEntries (values : Values K) (layout : Layout) (row : Nat) (A : Mat K) :
    Nat → List String → List ((Nat × Nat) × K)
  | _, [] => []
  | column, key :: keys =>
    denseBlock row (layout.startOf key) A.height (values.sizeOf key) (fun i c => A.get i (column + c)) ++
      slotEntries values layout row A (column + values.sizeOf key) keys

/-- The entries of the slots from a first row on. -/
def graphEntries (values : Values K) (layout : Layout) :
    Nat → List (GraphFactor K) → List (Vec K × Mat K) → List ((Nat × Nat) × K)
  | row, f :: fs, system :: systems =>
    slotEntries values layout row system.2 0 f.keys ++ graphEntries values layout (row + f.noise.dim) fs systems
  | _, _, _ => []

/-- The rows of the slots before a slot. -/
def rowsBefore (fs : List (GraphFactor K)) (slot : Nat) : Nat := ((fs.take slot).map (·.noise.dim)).sum

/-- The first column of a variable of a slot in the Jacobian of the slot. -/
def offset (values : Values K) (keys : List String) (p : Nat) : Nat := ((keys.take p).map values.sizeOf).sum

/-- The places of a variable among those of a slot. -/
def occurrences (keys : List String) (key : String) : List Nat :=
  (List.range keys.length).filter fun p => keys[p]? == some key

section Emission

/-- The positions and the entries of one block, in the same order. -/
theorem zip_block (A : Mat K) {row start column size : Nat} (inside : column + size ≤ A.width) :
    List.zip (blockPositions row A.height start size) ((A.rows.map (·.drop column)).flatMap (·.take size)) =
      denseBlock row start A.height size fun i c => A.get i (column + c) := by
  rw [Mat.window_eq A inside, blockPositions, denseBlock, zip_flatMap (by simp)]
  simp only [List.zip_map']

theorem length_window (A : Mat K) {column size : Nat} (inside : column + size ≤ A.width) :
    ((A.rows.map (·.drop column)).flatMap (·.take size)).length = A.height * size := by
  rw [Mat.window_eq A inside]
  simp [List.length_flatMap]

theorem zip_slot (values : Values K) (layout : Layout) (A : Mat K) (row column : Nat) (keys : List String)
    (inside : column + (keys.map values.sizeOf).sum ≤ A.width) :
    let positions := keys.map fun key => blockPositions row A.height (layout.startOf key) (values.sizeOf key)
    let entries := blockEntries (A.rows.map (·.drop column)) (keys.map values.sizeOf)
    List.zip positions.flatten entries = slotEntries values layout row A column keys ∧
      positions.flatten.length = entries.length := by
  induction keys generalizing column with
  | nil => exact ⟨rfl, rfl⟩
  | cons key keys ih =>
      rw [List.map_cons, List.sum_cons] at inside
      obtain ⟨paired, count⟩ := ih (column + values.sizeOf key) (by omega)
      have first : column + values.sizeOf key ≤ A.width := by omega
      have dropped : (A.rows.map (·.drop column)).map (·.drop (values.sizeOf key)) =
          A.rows.map (·.drop (column + values.sizeOf key)) := by
        simp [List.drop_drop]
      have size := (length_blockPositions row A.height (layout.startOf key) (values.sizeOf key)).trans
        (length_window A first).symm
      simp only [List.map_cons, List.flatten_cons, blockEntries, dropped, slotEntries]
      constructor
      · rw [List.zip_append size, zip_block A first, paired]
      · rw [List.length_append, List.length_append, size, count]

omit [Scalar K] in
theorem slotPositions_eq (row rows : Nat) {keys : List String}
    (placed : ∀ key ∈ keys, ∃ start, layout.start? key = some start)
    (known : ∀ key ∈ keys, values.contains key = true) :
    slotPositions values layout row rows keys =
      .ok (keys.map fun key => blockPositions row rows (layout.startOf key) (values.sizeOf key)) := by
  rw [slotPositions, Result.mapM_ok_iff, List.forall₂_map_right_iff, List.forall₂_same]
  intro key member
  obtain ⟨start, begins⟩ := placed key member
  obtain ⟨value, found⟩ := Values.find_exists (known key member)
  rw [begins, found, Layout.startOf, begins, Values.sizeOf_find found]
  rfl

theorem linearizeBlock_eq_entries {f : GraphFactor K} {system : Vec K × Mat K} (hasSystem : f.HasSystem values system) :
    linearizeBlock values f = .ok (system.1, blockEntries system.2.rows (f.keys.map values.sizeOf)) := by
  obtain ⟨-, params, -, known, -⟩ := GraphFactor.linearize_shape hasSystem.linear
  rw [linearizeBlock, hasSystem.linear, Result.ok_bind]
  dsimp only
  rw [mapM_sizes known, Values.sizes_find known]
  rfl

/-- What the slots from a first row on emit: as many entries as positions, and each at its position. -/
structure Emitted (values : Values K) (layout : Layout) (row : Nat) (fs : List (GraphFactor K))
    (systems : List (Vec K × Mat K)) (positions : List (Nat × Nat)) (blocks : List (Vec K × List K)) : Prop where
  residual : blocks.map Prod.fst = systems.map Prod.fst
  count : (blocks.map Prod.snd).flatten.length = positions.length
  entries : List.zip positions (blocks.map Prod.snd).flatten = graphEntries values layout row fs systems

theorem emitted_exists (row : Nat) {fs : List (GraphFactor K)} {systems : List (Vec K × Mat K)}
    (each : List.Forall₂ (GraphFactor.HasSystem values) fs systems)
    (placed : ∀ f ∈ fs, ∀ key ∈ f.keys, ∃ start, layout.start? key = some start)
    (known : ∀ f ∈ fs, ∀ key ∈ f.keys, values.contains key = true) :
    ∃ positions blocks, positionsFrom values layout row fs = .ok positions ∧
      fs.mapM (linearizeBlock values) = .ok blocks ∧ Emitted values layout row fs systems positions blocks := by
  induction each generalizing row with
  | nil => exact ⟨[], [], rfl, rfl, rfl, rfl, rfl⟩
  | @cons f system fs systems first rest ih =>
      obtain ⟨positions, blocks, positioned, linear, emitted⟩ := ih (row + f.noise.dim)
        (fun g member => placed g (.tail _ member)) (fun g member => known g (.tail _ member))
      have here := slotPositions_eq row f.noise.dim (placed f (.head _)) (known f (.head _))
      obtain ⟨paired, count⟩ := zip_slot values layout system.2 row 0 f.keys
        (by rw [first.width, Nat.zero_add])
      have whole : system.2.rows.map (·.drop 0) = system.2.rows := by simp
      rw [first.height, whole] at paired count
      refine ⟨(f.keys.map fun key => blockPositions row f.noise.dim (layout.startOf key) (values.sizeOf key)).flatten ++
        positions, (system.1, blockEntries system.2.rows (f.keys.map values.sizeOf)) :: blocks, ?_, ?_, ?_, ?_, ?_⟩
      · change (slotPositions values layout row f.noise.dim f.keys >>= _) = _
        rw [here, Result.ok_bind, positioned]
        rfl
      · rw [List.mapM_cons, linearizeBlock_eq_entries first, linear]
        rfl
      · rw [List.map_cons, List.map_cons, emitted.residual]
      · rw [List.map_cons, List.flatten_cons, List.length_append, List.length_append, emitted.count, count]
      · rw [List.map_cons, List.flatten_cons, List.zip_append count, paired, emitted.entries]
        rfl

end Emission

section Places

theorem occurrences_cons (first : String) (keys : List String) (key : String) :
    occurrences (first :: keys) key = (if first = key then [0] else []) ++ (occurrences keys key).map (· + 1) := by
  rw [occurrences, List.length_cons, List.range_succ_eq_map, List.filter_cons, List.filter_map]
  by_cases same : first = key
  · simp [same, occurrences, Function.comp_def]
  · simp [same, occurrences, Function.comp_def]

omit [Scalar K] in
theorem offset_succ (values : Values K) (first : String) (keys : List String) (p : Nat) :
    offset values (first :: keys) (p + 1) = values.sizeOf first + offset values keys p := rfl

theorem mem_slotEntries {row column : Nat} {A : Mat K} {keys : List String} {e : (Nat × Nat) × K}
    (member : e ∈ slotEntries values layout row A column keys) :
    ∃ i key c, i < A.height ∧ key ∈ keys ∧ c < values.sizeOf key ∧ e.1 = (row + i, layout.startOf key + c) := by
  induction keys generalizing column with
  | nil => cases member
  | cons first keys ih =>
      rcases List.mem_append.mp member with here | later
      · obtain ⟨i, rows, inner⟩ := List.mem_flatMap.mp here
        obtain ⟨c, columns, rfl⟩ := List.mem_map.mp inner
        exact ⟨i, first, c, List.mem_range.mp rows, .head _, List.mem_range.mp columns, rfl⟩
      · obtain ⟨i, key, c, inside, present, within, place⟩ := ih later
        exact ⟨i, key, c, inside, .tail _ present, within, place⟩

/-- Every entry is in a row of its slot and in a column of one of the variables of the slot. -/
theorem mem_graphEntries {row : Nat} {fs : List (GraphFactor K)} {systems : List (Vec K × Mat K)}
    (each : List.Forall₂ (GraphFactor.HasSystem values) fs systems) {e : (Nat × Nat) × K}
    (member : e ∈ graphEntries values layout row fs systems) :
    ∃ slot f i key c, fs[slot]? = some f ∧ i < f.noise.dim ∧ key ∈ f.keys ∧ c < values.sizeOf key ∧
      e.1 = (row + rowsBefore fs slot + i, layout.startOf key + c) := by
  induction each generalizing row with
  | nil => cases member
  | @cons f system fs systems first rest ih =>
      rcases List.mem_append.mp member with here | later
      · obtain ⟨i, key, c, inside, present, within, place⟩ := mem_slotEntries here
        exact ⟨0, f, i, key, c, rfl, first.height ▸ inside, present, within, place⟩
      · obtain ⟨slot, g, i, key, c, found, inside, present, within, place⟩ := ih later
        refine ⟨slot + 1, g, i, key, c, found, inside, present, within, ?_⟩
        rw [place, rowsBefore, rowsBefore, List.take_succ_cons, List.map_cons, List.sum_cons, Nat.add_assoc row]

omit [Scalar K] in
theorem rowsBefore_inside {fs : List (GraphFactor K)} {slot : Nat} {f : GraphFactor K} (found : fs[slot]? = some f) :
    rowsBefore fs slot + f.noise.dim ≤ (fs.map (·.noise.dim)).sum := by
  induction fs generalizing slot with
  | nil => cases found
  | cons first rest ih =>
      cases slot with
      | zero =>
          obtain rfl := Option.some.inj found
          simp [rowsBefore]
      | succ slot =>
          have later := @ih slot found
          rw [rowsBefore] at later ⊢
          rw [List.take_succ_cons, List.map_cons, List.map_cons, List.sum_cons, List.sum_cons]
          omega

/-- The entries of slots begin in their first row. -/
theorem valuesAt_above {row : Nat} {fs : List (GraphFactor K)} {systems : List (Vec K × Mat K)}
    (each : List.Forall₂ (GraphFactor.HasSystem values) fs systems) {p : Nat} (above : p < row) (q : Nat) :
    valuesAt (graphEntries values layout row fs systems) p q = [] := by
  apply valuesAt_eq_nil
  intro e member same
  obtain ⟨slot, f, i, key, c, -, -, -, -, place⟩ := mem_graphEntries each member
  have := congrArg Prod.fst (place.symm.trans same)
  dsimp only at this
  omega

/-- The entries of a slot end in its last row. -/
theorem valuesAt_below {row column : Nat} {A : Mat K} {keys : List String} {p : Nat} (below : row + A.height ≤ p)
    (q : Nat) : valuesAt (slotEntries values layout row A column keys) p q = [] := by
  apply valuesAt_eq_nil
  intro e member same
  obtain ⟨i, key, c, inside, -, -, place⟩ := mem_slotEntries member
  have := congrArg Prod.fst (place.symm.trans same)
  dsimp only at this
  omega

/-- In the rows of a slot there are the entries of the slot only. -/
theorem valuesAt_graphEntries (layout : Layout) (row : Nat) {fs : List (GraphFactor K)} {systems : List (Vec K × Mat K)}
    (each : List.Forall₂ (GraphFactor.HasSystem values) fs systems) {slot : Nat} {f : GraphFactor K}
    {system : Vec K × Mat K} (found : fs[slot]? = some f) (paired : systems[slot]? = some system) {i : Nat}
    (inside : i < f.noise.dim) (q : Nat) :
    valuesAt (graphEntries values layout row fs systems) (row + rowsBefore fs slot + i) q =
      valuesAt (slotEntries values layout (row + rowsBefore fs slot) system.2 0 f.keys)
        (row + rowsBefore fs slot + i) q := by
  induction each generalizing row slot with
  | nil => cases found
  | @cons g first fs systems head rest ih =>
      rw [graphEntries, valuesAt_append]
      cases slot with
      | zero =>
          obtain rfl := Option.some.inj found
          obtain rfl := Option.some.inj paired
          have start : row + rowsBefore (g :: fs) 0 = row := rfl
          rw [start, valuesAt_above rest (by omega), List.append_nil]
      | succ slot =>
          have start : row + rowsBefore (g :: fs) (slot + 1) = row + g.noise.dim + rowsBefore fs slot := by
            rw [rowsBefore, rowsBefore, List.take_succ_cons, List.map_cons, List.sum_cons, Nat.add_assoc]
          rw [start, valuesAt_below (by rw [head.height]; omega), List.nil_append]
          exact ih _ found paired

/-- In the columns of a variable a slot has an entry for each time that it refers to the variable. -/
theorem valuesAt_slotEntries {row column : Nat} {A : Mat K} {keys : List String} {i : Nat} (inside : i < A.height)
    {key : String} {c : Nat} (within : c < values.sizeOf key)
    (alone : ∀ other ∈ keys, layout.startOf other ≤ layout.startOf key + c →
      layout.startOf key + c < layout.startOf other + values.sizeOf other → other = key) :
    valuesAt (slotEntries values layout row A column keys) (row + i) (layout.startOf key + c) =
      (occurrences keys key).map fun p => A.get i (column + offset values keys p + c) := by
  induction keys generalizing column with
  | nil => rfl
  | cons first keys ih =>
      have row_place : row + i - row = i := Nat.add_sub_cancel_left row i
      have column_place : layout.startOf key + c - layout.startOf key = c := Nat.add_sub_cancel_left _ c
      rw [slotEntries, valuesAt_append, valuesAt_denseBlock, ih fun other member => alone other (.tail _ member),
        occurrences_cons, List.map_append, List.map_map, row_place]
      refine congrArg₂ (· ++ ·) ?_ (List.map_congr_left fun p _ => ?_)
      · by_cases same : first = key
        · rw [if_pos (by rw [same]; omega), if_pos same, same, column_place]
          rfl
        · rw [if_neg, if_neg same]
          · rfl
          · intro bounds
            exact same (alone first (.head _) bounds.2.1 bounds.2.2)
      · rw [Function.comp_apply, offset_succ, Nat.add_assoc column]

end Places

/-- A Jacobian of dense blocks. The entry in a row of a slot and a column of a variable adds up the entries of the slot
over the places at which it refers to the variable. -/
structure Assembles (graph : Graph K) (values : Values K) (layout : Layout) (systems : List (Vec K × Mat K))
    (r : Vec K) (J : SparseMat K) : Prop where
  residual : r = (systems.map Prod.fst).flatten
  rows : r.length = J.height
  height : J.height = (graph.factors.map (·.noise.dim)).sum
  width : J.width = layout.totalDof
  entry : ∀ slot f system i key c column, graph.factors[slot]? = some f → systems[slot]? = some system →
    i < f.noise.dim → Layout.Holds layout.blocks key c column →
    J.get (rowsBefore graph.factors slot + i) column =
      addUp ((occurrences f.keys key).map fun p => system.2.get i (offset values f.keys p + c))
  zero : ∀ row column, (∀ slot f i key c, graph.factors[slot]? = some f → i < f.noise.dim → key ∈ f.keys →
      Layout.Holds layout.blocks key c column → row ≠ rowsBefore graph.factors slot + i) → J.get row column = 0

theorem length_residual {fs : List (GraphFactor K)} {systems : List (Vec K × Mat K)}
    (each : List.Forall₂ (GraphFactor.HasSystem values) fs systems) :
    (systems.map Prod.fst).flatten.length = (fs.map (·.noise.dim)).sum := by
  induction each with
  | nil => rfl
  | cons first rest ih =>
      rw [List.map_cons, List.flatten_cons, List.length_append, first.rows, ih, List.map_cons, List.sum_cons]

theorem Columns.entry_inside {graph : Graph K} (columns : graph.Columns values layout)
    {systems : List (Vec K × Mat K)} (each : List.Forall₂ (GraphFactor.HasSystem values) graph.factors systems)
    {e : (Nat × Nat) × K} (member : e ∈ graphEntries values layout 0 graph.factors systems) :
    e.1.1 < (systems.map Prod.fst).flatten.length ∧ e.1.2 < layout.totalDof := by
  obtain ⟨slot, f, i, key, c, found, inside, referred, within, place⟩ := mem_graphEntries each member
  have below := rowsBefore_inside found
  have holds := columns.holds (columns.listed (List.mem_of_getElem? found) referred) within
  rw [length_residual each, place]
  exact ⟨by dsimp only; omega, columns.inside _ _ _ holds⟩

theorem Columns.assembles {graph : Graph K} (columns : graph.Columns values layout)
    {systems : List (Vec K × Mat K)} (each : List.Forall₂ (GraphFactor.HasSystem values) graph.factors systems) :
    graph.Assembles values layout systems (systems.map Prod.fst).flatten
      (ofEntries (graph.factors.map (·.noise.dim)).sum layout.totalDof
        (graphEntries values layout 0 graph.factors systems)) := by
  refine ⟨rfl, ?_, rfl, by simp [SparseMat.width, ofEntries], ?_, ?_⟩
  · exact length_residual each
  · intro slot f system i key c column found paired inside holds
    have bound := columns.inside _ _ _ holds
    obtain ⟨member, within, rfl⟩ := columns.of_holds holds
    have alone : ∀ other ∈ f.keys, layout.startOf other ≤ layout.startOf key + c →
        layout.startOf key + c < layout.startOf other + values.sizeOf other → other = key := by
      intro other present low high
      have holds' := columns.holds (columns.listed (List.mem_of_getElem? found) present)
        (c := layout.startOf key + c - layout.startOf other) (by omega)
      rw [Nat.add_sub_cancel' low] at holds'
      have same : (other, layout.startOf key + c - layout.startOf other) = (key, c) :=
        (columns.covered _ bound).unique holds' holds
      exact congrArg Prod.fst same
    have height : i < system.2.height := (forall₂_getElem each found paired).height.symm ▸ inside
    have here := valuesAt_graphEntries layout 0 each found paired inside (layout.startOf key + c)
    rw [Nat.zero_add] at here
    rw [get_ofEntries, if_pos bound, here, valuesAt_slotEntries height within alone]
    simp only [Nat.zero_add]
  · intro row column apart
    rw [get_ofEntries]
    split
    · rw [valuesAt_eq_nil]
      · rfl
      · intro e member same
        obtain ⟨slot, f, i, key, c, found, inside, present, within, place⟩ := mem_graphEntries each member
        obtain ⟨rfl, rfl⟩ := Prod.mk.inj (same.symm.trans place)
        exact apart slot f i key c found inside present
          (columns.holds (columns.listed (List.mem_of_getElem? found) present) within) (by rw [Nat.zero_add])
    · rfl

omit [Scalar K] in
/-- Rows as many as a machine word can count are counted right. -/
theorem residualDimension_eq {graph : Graph K} (addressable : (graph.factors.map (·.noise.dim)).sum < 2 ^ 64) :
    graph.residualDimension = (graph.factors.map (·.noise.dim)).sum := by
  rw [List.sum_eq_foldr, List.foldr_map] at addressable ⊢
  exact Nat.mod_eq_of_lt addressable

/-- Where the blocks have matching shapes the linear system of a graph is laid out and filled without failure. -/
theorem linearize_exists {graph : Graph K} (square : ∀ f ∈ graph.factors, f.noise.Square)
    (known : ∀ f ∈ graph.factors, ∀ key ∈ f.keys, values.contains key = true)
    (shaped : ∀ f ∈ graph.factors, f.Shaped values)
    (addressable : (graph.factors.map (·.noise.dim)).sum < 2 ^ 64) :
    ∃ layout pattern r J, graph.layout values = .ok layout ∧ graph.pattern values layout = .ok pattern ∧
      graph.linearize values pattern = .ok (r, J) := by
  obtain ⟨layout, laid⟩ := layout_exists known
  have columns := layout_columns laid
  obtain ⟨systems, each⟩ := forall₂_exists fun f present =>
    (shaped f present).hasSystem (square f present) (known f present)
  have placed : ∀ f ∈ graph.factors, ∀ key ∈ f.keys, ∃ start, layout.start? key = some start := by
    intro f present key member
    exact ⟨_, columns.start_exists (columns.listed present member)⟩
  obtain ⟨positions, blocks, positioned, linear, emitted⟩ := emitted_exists 0 each placed known
  have inside : ∀ p ∈ positions, p.1 < graph.residualDimension ∧ p.2 < layout.totalDof := by
    intro p member
    have named : positions = (graphEntries values layout 0 graph.factors systems).map Prod.fst := by
      rw [← emitted.entries, List.map_fst_zip emitted.count.ge]
    rw [named] at member
    obtain ⟨e, present, rfl⟩ := List.mem_map.mp member
    rw [residualDimension_eq addressable, ← length_residual each]
    exact columns.entry_inside each present
  exact ⟨layout, _, _, _, laid, pattern_ok_iff.mpr ⟨positions, positioned, inside, rfl⟩,
    linearize_ok_iff.mpr ⟨blocks, linear, rfl, Pattern.fill_some_iff.mpr ⟨emitted.count, rfl⟩⟩⟩

/-- A slot whose block is emitted has a system. -/
theorem hasSystem_of_block {f : GraphFactor K} {block : Vec K × List K}
    (evaluated : linearizeBlock values f = .ok block) : ∃ system, f.HasSystem values system := by
  simp only [linearizeBlock, Result.bind_ok_iff, Prod.exists] at evaluated
  obtain ⟨residual, jacobian, linear, -⟩ := evaluated
  obtain ⟨A, -, hasSystem⟩ := GraphFactor.hasSystem_of_linearize linear
  exact ⟨_, hasSystem⟩

/-- What the linear system of a graph is made of, wherever there is one. -/
theorem linearize_entries {graph : Graph K} {pattern : Pattern} {r : Vec K} {J : SparseMat K}
    (columns : graph.Columns values layout) (found : graph.pattern values layout = .ok pattern)
    (linear : graph.linearize values pattern = .ok (r, J)) :
    ∃ systems blocks, List.Forall₂ (GraphFactor.HasSystem values) graph.factors systems ∧
      graph.factors.mapM (linearizeBlock values) = .ok blocks ∧
      Emitted values layout 0 graph.factors systems pattern.positions blocks ∧
      r = (systems.map Prod.fst).flatten ∧ J = ofEntries pattern.height pattern.width
        (graphEntries values layout 0 graph.factors systems) := by
  obtain ⟨positions, positioned, -, rfl⟩ := pattern_ok_iff.mp found
  obtain ⟨blocks, blockwise, rfl, filled⟩ := linearize_ok_iff.mp linear
  obtain ⟨systems, each⟩ : ∃ systems, List.Forall₂ (GraphFactor.HasSystem values) graph.factors systems := by
    apply forall₂_exists
    intro f present
    obtain ⟨block, evaluated⟩ := Result.mapM_ok_of_mem blockwise present
    exact hasSystem_of_block evaluated
  obtain ⟨positions', blocks', positioned', blockwise', emitted⟩ := emitted_exists 0 each
    (fun f present key member => ⟨_, columns.start_exists (columns.listed present member)⟩)
    (fun f present key member => columns.contains (columns.listed present member))
  obtain rfl := Except.ok.inj (positioned.symm.trans positioned')
  obtain rfl := Except.ok.inj (blockwise.symm.trans blockwise')
  obtain ⟨-, rfl⟩ := Pattern.fill_some_iff.mp filled
  exact ⟨systems, blocks, each, blockwise, emitted, by rw [emitted.residual], by rw [emitted.entries]⟩

/-- The linear system of a graph is laid out, emitted and assembled without failure. As many entries are emitted as
there are positions, all positions are inside of the matrix, and the matrix is the dense one. -/
theorem linearize_assembles {graph : Graph K} (square : ∀ f ∈ graph.factors, f.noise.Square)
    (known : ∀ f ∈ graph.factors, ∀ key ∈ f.keys, values.contains key = true)
    (shaped : ∀ f ∈ graph.factors, f.Shaped values)
    (addressable : (graph.factors.map (·.noise.dim)).sum < 2 ^ 64) :
    ∃ layout pattern blocks systems r J,
      graph.layout values = .ok layout ∧ graph.Columns values layout ∧
      graph.pattern values layout = .ok pattern ∧
      graph.factors.mapM (linearizeBlock values) = .ok blocks ∧
      (blocks.map Prod.snd).flatten.length = pattern.positions.length ∧
      (∀ p ∈ pattern.positions, p.1 < pattern.height ∧ p.2 < pattern.width) ∧
      graph.linearize values pattern = .ok (r, J) ∧ J.height = pattern.height ∧ J.width = pattern.width ∧
      List.Forall₂ (GraphFactor.HasSystem values) graph.factors systems ∧
      graph.Assembles values layout systems r J := by
  obtain ⟨layout, pattern, r, J, laid, found, linear⟩ := linearize_exists square known shaped addressable
  have columns := layout_columns laid
  obtain ⟨systems, blocks, each, blockwise, emitted, rfl, rfl⟩ := linearize_entries columns found linear
  obtain ⟨positions, -, inside, rfl⟩ := pattern_ok_iff.mp found
  have assembles := columns.assembles each
  rw [← residualDimension_eq addressable] at assembles
  exact ⟨layout, _, blocks, systems, _, _, laid, columns, found, blockwise, emitted.count, inside, linear, rfl,
    assembles.width, each, assembles⟩

/-- A slot of one variable, and one that refers to the same variable between two references to another. -/
noncomputable def paired : Graph ℝ where
  factors := [
    ⟨["y"], ⟨0, .ofParts 1 1 (fun _ => some [1]) fun _ => some (Mat.ofFn 1 2 fun _ j => j)⟩, .unit 1⟩,
    ⟨["x", "y", "x"], ⟨1, .ofParts 2 3 (fun _ => some [1, -1]) fun _ => some (Mat.ofFn 2 4 fun i j => i + j)⟩, .unit 2⟩]

end Graph

def Values.paired : Values ℝ := ⟨[("x", [0]), ("y", [0, 0])], by rw [List.pairwise_pair]; decide +kernel⟩

namespace Graph

/-- The second slot refers to the first variable twice, and its Jacobian counts twice in the column. -/
theorem paired_assembles : ∃ layout pattern r J column, paired.layout .paired = .ok layout ∧
    paired.pattern .paired layout = .ok pattern ∧ paired.linearize .paired pattern = .ok (r, J) ∧
    Layout.Holds layout.blocks "x" 0 column ∧ J.get 2 column = 1 + 4 := by
  have size_x : Values.paired.sizeOf "x" = 1 := by simp [Values.sizeOf, Values.dim?, Values.get?, Values.paired]
  have size_y : Values.paired.sizeOf "y" = 2 := by
    simp [Values.sizeOf, Values.dim?, Values.get?, Values.paired, List.lookup]
  have square : ∀ f ∈ paired.factors, f.noise.Square := by simp [paired, Noise.Square]
  have known : ∀ f ∈ paired.factors, ∀ key ∈ f.keys, Values.paired.contains key = true := by
    simp [paired, Values.contains, Values.get?, Values.paired, List.lookup]
  have shaped : ∀ f ∈ paired.factors, f.Shaped .paired := by
    intro f member params found
    have sizes := Values.sizes_find found
    rcases List.mem_pair.mp member with rfl | rfl
    · refine ⟨_, _, rfl, rfl, rfl, ?_⟩
      rw [List.length_flatten, sizes]
      simp [size_y, Mat.ofFn]
    · refine ⟨_, _, rfl, rfl, rfl, ?_⟩
      rw [List.length_flatten, sizes]
      simp [size_x, size_y, Mat.ofFn]
  have addressable : (paired.factors.map (·.noise.dim)).sum < 2 ^ 64 := by simp [paired, Noise.dim]
  obtain ⟨layout, pattern, _, systems, r, J, laid, columns, found, -, -, -, linear, -, -, each, assembles⟩ :=
    linearize_assembles square known shaped addressable
  have listed : "x" ∈ layout.order := columns.listed (.tail _ (.head _)) (.head _)
  have holds := columns.holds listed (c := 0) (by rw [size_x]; exact Nat.one_pos)
  refine ⟨layout, pattern, r, J, _, laid, found, linear, holds, ?_⟩
  obtain ⟨first, second, rfl⟩ : ∃ first second, systems = [first, second] := by
    rw [← List.length_eq_two, ← each.length_eq]
    rfl
  have slot := forall₂_getElem each (i := 1) rfl rfl
  obtain ⟨_, _, _, -, evaluated, -, -, -, whitened⟩ := GraphFactor.linearize_ok_iff.mp slot.linear
  obtain ⟨-, same⟩ := Prod.mk.inj (Option.some.inj (evaluated.symm.trans rfl))
  obtain rfl := Option.some.inj same
  obtain ⟨-, jacobian⟩ := Prod.mk.inj (Option.some.inj whitened)
  have entry := assembles.entry 1 _ second 1 "x" 0 _ rfl rfl Nat.one_lt_two holds
  rw [← Option.some.inj jacobian] at entry
  have twice : occurrences ["x", "y", "x"] "x" = [0, 2] := by decide
  calc
    J.get 2 (layout.startOf "x" + 0) = addUp ((occurrences ["x", "y", "x"] "x").map fun p =>
        (Mat.ofFn 2 4 fun i j => (i + j : ℝ)).get 1 (offset Values.paired ["x", "y", "x"] p + 0)) := entry
    _ = 1 + 4 := by
      rw [twice]
      simp [offset, size_x, size_y, Mat.get, Mat.ofFn]
      norm_num

/-- A factor under a model whose square root of an information has more columns than rows. -/
noncomputable def oblong : Graph ℝ where
  factors := [⟨["x"], ⟨0, .prior [1]⟩, .gaussian (Mat.ofFn 1 2 fun _ _ => 1)⟩]

/-- A factor under a loss. -/
noncomputable def softened (loss : Loss ℝ) : Graph ℝ where
  factors := [⟨["x"], ⟨0, .prior [1]⟩, .robust ⟨1, loss⟩ (.unit 1)⟩]

theorem prior_evaluated (wanted : Bool) : (Factor.prior [(1 : ℝ)]).linearize? [[0]] wanted =
    some ([-1], if wanted then some (Mat.identity 1) else none) := by
  cases wanted <;> simp [Factor.prior, Factor.ofParts, Vec.sub?, Vec.zip?]

theorem prior_params (factor : Shared (Factor ℝ)) (noise : Noise ℝ) :
    GraphFactor.params ⟨["x"], factor, noise⟩ .paired = .ok [[0]] := by
  simp [GraphFactor.params, Values.find, Values.get?, Values.paired]

theorem prior_shaped {noise : Noise ℝ} (one : noise.dim = 1) :
    GraphFactor.Shaped .paired ⟨["x"], ⟨0, .prior [1]⟩, noise⟩ := by
  intro params found
  obtain rfl := Except.ok.inj ((prior_params _ _).symm.trans found)
  exact ⟨_, _, prior_evaluated true, one.symm, one.symm, rfl⟩

theorem prior_linearize {noise : Noise ℝ} {system : Vec ℝ × Mat ℝ}
    (hasSystem : GraphFactor.HasSystem .paired ⟨["x"], ⟨0, .prior [1]⟩, noise⟩ system) :
    noise.whitenSystem? [-1] (some (Mat.identity 1)) = some (system.1, some system.2) := by
  obtain ⟨params, residual, A, found, evaluated, -, -, -, whitened⟩ :=
    GraphFactor.linearize_ok_iff.mp hasSystem.linear
  obtain rfl := Except.ok.inj ((prior_params _ _).symm.trans found)
  obtain ⟨rfl, same⟩ := Prod.mk.inj (Option.some.inj ((prior_evaluated true).symm.trans evaluated))
  rwa [← same] at whitened

/-- Under the loss of scale one the residual minus one is halved. -/
theorem softened_residual {loss : Loss ℝ} (made : Loss.gemanMcClure 1 = .ok loss) :
    (Correction.ofLoss loss (Vec.normSq [-1])).residual [-1] = [-1 / 2] := by
  have norm : Vec.normSq [(-1 : ℝ)] = 1 := by simp [Vec.normSq, Vec.sum, Scalar.square]
  have jet : loss.jet 1 = ⟨1 / 2, (1 / 2) * (1 / 2), -1 / 4⟩ := by
    rw [Loss.gemanMcClure, Loss.checkScale, if_pos (by simp)] at made
    obtain rfl := Except.ok.inj made
    norm_num [Loss.gemanMcClureJet]
  have concave : (-1 / 4 : ℝ) ≤ 0 := by norm_num
  have root : √((1 / 2) * (1 / 2) : ℝ) = 1 / 2 := Real.sqrt_mul_self (by norm_num)
  have correction : Correction.ofLoss loss 1 = ⟨1 / 2, 1 / 2, 0⟩ := by
    simp only [Correction.ofLoss, jet, Scalar.le_real, concave, decide_true, Bool.or_true, if_true, Scalar.sqrt_real, root]
  rw [norm, correction]
  norm_num [Correction.residual, Vec.scale]

/-- A model that is not square has no linear system, and for a slot under a loss the residual that is stacked is not the one
that is whitened. -/
theorem oblong_not_linearized :
    (empty.add ["x"] ⟨0, .prior [1]⟩ (.gaussian (Mat.ofFn 1 2 fun _ _ => 1)) = .ok oblong ∧
      (∀ f ∈ oblong.factors, ∀ key ∈ f.keys, Values.paired.contains key = true) ∧
      (∀ f ∈ oblong.factors, f.Shaped .paired) ∧
      ∀ pattern system, oblong.linearize .paired pattern ≠ .ok system) ∧
    ∃ loss layout pattern J, Loss.gemanMcClure 1 = .ok loss ∧
      empty.add ["x"] ⟨0, .prior [1]⟩ (.robust ⟨1, loss⟩ (.unit 1)) = .ok (softened loss) ∧
      (softened loss).layout .paired = .ok layout ∧ (softened loss).pattern .paired layout = .ok pattern ∧
      (softened loss).linearize .paired pattern = .ok ([-1 / 2], J) ∧
      ∃ f, (softened loss).get? 0 = some f ∧ f.residual .paired = .ok [-1] ∧ f.noise.whiten? [-1] = some [-1] := by
  have known : ∀ key ∈ ["x"], Values.paired.contains key = true := by
    simp [Values.contains, Values.get?, Values.paired]
  refine ⟨⟨rfl, List.forall_mem_singleton.mpr known, List.forall_mem_singleton.mpr (prior_shaped rfl), ?_⟩, ?_⟩
  · rintro pattern ⟨r, J⟩ linear
    obtain ⟨blocks, blockwise, -⟩ := linearize_ok_iff.mp linear
    obtain ⟨block, evaluated⟩ := Result.mapM_ok_of_mem blockwise (.head _)
    obtain ⟨system, hasSystem⟩ := hasSystem_of_block evaluated
    cases prior_linearize hasSystem
  · obtain ⟨loss, made⟩ : ∃ loss, Loss.gemanMcClure (1 : ℝ) = .ok loss :=
      ⟨_, by simp [Loss.gemanMcClure, Loss.checkScale]; rfl⟩
    have square : ∀ f ∈ (softened loss).factors, f.noise.Square := List.forall_mem_singleton.mpr trivial
    obtain ⟨layout, pattern, r, J, laid, found, linear⟩ := linearize_exists square
      (List.forall_mem_singleton.mpr known) (List.forall_mem_singleton.mpr (prior_shaped rfl))
      (by simp [softened, Noise.dim])
    obtain ⟨systems, -, each, -, -, rfl, -⟩ := linearize_entries (layout_columns laid) found linear
    obtain ⟨system, rfl⟩ : ∃ system, systems = [system] := List.length_eq_one_iff.mp each.length_eq.symm
    have whitened := prior_linearize (List.forall₂_cons.mp each).1
    obtain ⟨w, B, C, first, -, -, same⟩ := Noise.whitenSystem_robust_iff.mp whitened
    obtain rfl : [-1] = w := Option.some.inj first
    obtain ⟨corrected, -⟩ := Prod.mk.inj same
    rw [softened_residual made] at corrected
    have stacked : (List.map Prod.fst [system]).flatten = [-1 / 2] := by simp [corrected]
    rw [stacked] at linear
    refine ⟨loss, layout, pattern, J, made, rfl, laid, found, linear, _, rfl, ?_, rfl⟩
    rw [GraphFactor.residual, prior_params, Result.ok_bind, prior_evaluated]
    rfl

end Graph

end GraduatedFit
