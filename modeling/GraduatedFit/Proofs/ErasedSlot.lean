import GraduatedFit.Proofs.SameNumbers
import GraduatedFit.Proofs.SlotOrder

/-! A slot that evaluates to zero is missed by nobody: without it the errors add up to the same and the linear system has
the same numbers. -/

namespace GraduatedFit

open SparseMat

namespace StackedRow

/-- A row of zeros. -/
def Zero (row : StackedRow) : Prop := row.residual = 0 ∧ ∀ a, row.entry a = 0

variable {rows zeros later : List StackedRow}

theorem overlap_getD (rows : List StackedRow) (a b : Nat) :
    (overlap rows a b).getD 0 = (rows.map fun row => row.entry a * row.entry b).sum := by
  rw [overlap]
  split
  · rfl
  · rename_i apart
    refine (List.sum_eq_zero fun product member => ?_).symm
    obtain ⟨row, present, rfl⟩ := List.mem_map.mp member
    have missing : row.shared a b = false := by
      rw [← Bool.not_eq_true]
      exact fun both => apart (List.any_eq_true.mpr ⟨row, present, both⟩)
    rcases Bool.and_eq_false_iff.mp missing with first | second
    · have none : row.listed a = [] := by simpa using first
      rw [entry, none, List.sum_nil, zero_mul]
    · have none : row.listed b = [] := by simpa using second
      rw [entry, entry, none, List.sum_nil, mul_zero]

theorem sum_omit (zero : ∀ row ∈ zeros, row.Zero) {term : StackedRow → ℝ} (vanishes : ∀ row, row.Zero → term row = 0) :
    ((rows ++ later).map term).sum = ((rows ++ (zeros ++ later)).map term).sum := by
  have none : (zeros.map term).sum = 0 := by
    refine List.sum_eq_zero fun product member => ?_
    obtain ⟨row, present, rfl⟩ := List.mem_map.mp member
    exact vanishes row (zero row present)
  simp only [List.map_append, List.sum_append, none, zero_add]

end StackedRow

/-- Systems of the same rows up to rows of zeros. -/
theorem SameNumbers.of_rows {r r' : Vec ℝ} {height height' width : Nat} {entries entries' : List ((Nat × Nat) × ℝ)}
    (below : ∀ e ∈ entries, e.1.1 < height) (below' : ∀ e ∈ entries', e.1.1 < height') (short : r.length = height)
    (short' : r'.length = height') {rows zeros later : List StackedRow}
    (stacked : stackedRows height entries r = rows ++ (zeros ++ later))
    (stacked' : stackedRows height' entries' r' = rows ++ later) (zero : ∀ row ∈ zeros, row.Zero) :
    SameNumbers r r' (.ofEntries height width entries) (.ofEntries height' width entries') where
  fits := short
  fits' := short'
  formed := ofEntries_wellFormed below
  formed' := ofEntries_wellFormed below'
  width := by simp [ofEntries]
  overlap_eq a b left right := by
    rw [ofEntries, List.length_map, List.length_range] at left right
    rw [overlap_ofEntries below r left right, overlap_ofEntries below' r' left right, stacked, stacked',
      StackedRow.overlap_getD, StackedRow.overlap_getD]
    exact StackedRow.sum_omit zero fun row vanishes => by rw [vanishes.2, zero_mul]
  gradient_eq a inside := by
    rw [ofEntries, List.length_map, List.length_range] at inside
    rw [addDot_ofEntries below short inside, addDot_ofEntries below' short' inside, stacked, stacked']
    exact StackedRow.sum_omit zero fun row vanishes => by rw [vanishes.2, zero_mul]

namespace GraphFactor

/-- Wherever a slot evaluates it evaluates to zero. -/
structure Mute (f : GraphFactor ℝ) : Prop where
  error_eq : ∀ values e, f.error values = .ok e → e = 0
  residual_eq : ∀ values r A, f.linearize values true = .ok (r, some A) → ∀ x ∈ r, x = 0
  jacobian_eq : ∀ values r A, f.linearize values true = .ok (r, some A) → ∀ row ∈ A.rows, ∀ x ∈ row, x = 0

variable {f f' : GraphFactor ℝ}

theorem Weighted.mute (weighted : Weighted 0 f f') : f'.Mute where
  error_eq values e known := by
    rw [weighted.error_eq le_rfl] at known
    obtain ⟨e', -, rfl⟩ := Result.map_ok_iff.mp known
    exact zero_mul e'
  residual_eq values r A linear := by
    rw [weighted.linearize_eq] at linear
    obtain ⟨system, -, scaled⟩ := Result.map_ok_iff.mp linear
    obtain ⟨rfl, -⟩ := Prod.mk.inj scaled
    intro x member
    obtain ⟨y, -, rfl⟩ := List.mem_map.mp member
    rw [Real.sqrt_zero, zero_mul]
  jacobian_eq values r A linear := by
    rw [weighted.linearize_eq] at linear
    obtain ⟨system, -, scaled⟩ := Result.map_ok_iff.mp linear
    obtain ⟨-, jacobian⟩ := Prod.mk.inj scaled
    obtain ⟨B, -, rfl⟩ := Option.map_eq_some_iff.mp jacobian
    intro row member x inner
    obtain ⟨source, -, rfl⟩ := List.mem_map.mp member
    obtain ⟨y, -, rfl⟩ := List.mem_map.mp inner
    rw [Real.sqrt_zero, zero_mul]

/-- A slot without a loss that is linearized has an error. -/
theorem error_exists (plain : f.noise.isRobust = false) {values : Values ℝ} {system : Vec ℝ × Option (Mat ℝ)}
    (linear : f.linearize values false = .ok system) : ∃ e, f.error values = .ok e := by
  obtain ⟨params, r, jacobian, known, evaluated, length, whitened⟩ := linearize_residual_ok_iff.mp linear
  simp only [Noise.whitenSystem_plain plain, bind, Option.bind_eq_some_iff] at whitened
  obtain ⟨w, found, -⟩ := whitened
  exact ⟨_, error_ok_iff.mpr ⟨params, r, jacobian, known, evaluated, length, by
    rw [Noise.error_plain plain, found]; rfl⟩⟩

end GraphFactor

namespace Graph

variable {K : Type}

/-- The graph without a slot. -/
def erase (graph : Graph K) (slot : Nat) : Graph K := ⟨graph.factors.eraseIdx slot⟩

theorem mem_erase {graph : Graph K} {slot other : Nat} {g : GraphFactor K} (differ : other ≠ slot)
    (present : graph.get? other = some g) : g ∈ (graph.erase slot).factors :=
  List.mem_eraseIdx_iff_getElem?.mpr ⟨other, differ, present⟩

/-- A slot stands between those that are left without it. -/
theorem erase_split {graph : Graph K} {slot : Nat} {f : GraphFactor K} (present : graph.get? slot = some f) :
    ∃ before after, graph.factors = before ++ f :: after ∧ (graph.erase slot).factors = before ++ after := by
  obtain ⟨inside, here⟩ := List.getElem?_eq_some_iff.mp present
  refine ⟨graph.factors.take slot, graph.factors.drop (slot + 1), ?_, List.eraseIdx_eq_take_drop_succ _ _⟩
  rw [← here, List.getElem_cons_drop, List.take_append_drop]

section Systems

variable [Scalar K] {graph : Graph K} {values : Values K} {layout : Layout} {pattern : Pattern}

omit [Scalar K] in
/-- The positions of slots are in their rows and in the columns of the layout. -/
theorem Columns.positions_exists (columns : graph.Columns values layout) (row : Nat) {fs : List (GraphFactor K)}
    (part : ∀ f ∈ fs, f ∈ graph.factors) : ∃ positions, positionsFrom values layout row fs = .ok positions ∧
      ∀ p ∈ positions, p.1 < row + (fs.map (·.noise.dim)).sum ∧ p.2 < layout.totalDof := by
  induction fs generalizing row with
  | nil => exact ⟨[], rfl, List.forall_mem_nil _⟩
  | cons f fs ih =>
      obtain ⟨positions, placed, inside⟩ := ih (row + f.noise.dim) fun g member => part g (.tail _ member)
      have listed (key : String) (member : key ∈ f.keys) : key ∈ layout.order :=
        columns.listed (part f (.head _)) member
      have here := slotPositions_eq row f.noise.dim (fun key member => ⟨_, columns.start_exists (listed key member)⟩)
        fun key member => columns.contains (listed key member)
      refine ⟨(f.keys.map fun key => blockPositions row f.noise.dim (layout.startOf key) (values.sizeOf key)).flatten ++
        positions, ?_, fun p member => ?_⟩
      · change (slotPositions values layout row f.noise.dim f.keys >>= _) = _
        rw [here, Result.ok_bind, placed]
        rfl
      · rw [List.map_cons, List.sum_cons]
        rcases List.mem_append.mp member with first | later
        · obtain ⟨block, among, inner⟩ := List.mem_flatten.mp first
          obtain ⟨key, referred, rfl⟩ := List.mem_map.mp among
          simp only [blockPositions, List.mem_flatMap, List.mem_map, List.mem_range] at inner
          obtain ⟨i, low, c, within, rfl⟩ := inner
          have bound := columns.block_inside (listed key referred)
          dsimp only
          omega
        · obtain ⟨below, left⟩ := inside p later
          exact ⟨by omega, left⟩

omit [Scalar K] in
/-- A graph whose rows a machine word can count has a pattern. -/
theorem Columns.pattern_exists (columns : graph.Columns values layout)
    (addressable : (graph.factors.map (·.noise.dim)).sum < 2 ^ 64) :
    ∃ positions, graph.pattern values layout =
      .ok ⟨(graph.factors.map (·.noise.dim)).sum, layout.totalDof, positions⟩ := by
  obtain ⟨positions, placed, inside⟩ := columns.positions_exists 0 fun f => id
  rw [Nat.zero_add] at inside
  refine ⟨positions, pattern_ok_iff.mpr ⟨positions, placed, ?_, ?_⟩⟩
  · rwa [residualDimension_eq addressable]
  · rw [residualDimension_eq addressable]

/-- A graph is linearized where all of its slots are. -/
theorem Columns.linearize_systems (columns : graph.Columns values layout)
    (found : graph.pattern values layout = .ok pattern) {systems : List (Vec K × Mat K)}
    (each : List.Forall₂ (GraphFactor.HasSystem values) graph.factors systems) :
    graph.linearize values pattern = .ok ((systems.map Prod.fst).flatten,
      .ofEntries pattern.height pattern.width (graphEntries values layout 0 graph.factors systems)) := by
  obtain ⟨positions, positioned, -, rfl⟩ := pattern_ok_iff.mp found
  obtain ⟨positions', blocks, positioned', blockwise, emitted⟩ := emitted_exists 0 each
    (fun f present key member => ⟨_, columns.start_exists (columns.listed present member)⟩)
    (fun f present key member => columns.contains (columns.listed present member))
  obtain rfl := Except.ok.inj (positioned.symm.trans positioned')
  refine linearize_ok_iff.mpr ⟨blocks, blockwise, by rw [emitted.residual], ?_⟩
  rw [← emitted.entries]
  exact Pattern.fill_some_iff.mpr ⟨emitted.count, rfl⟩

theorem linearize_failed {failure : Failure K} (failed : graph.factors.mapM (linearizeBlock values) = .error failure)
    (pattern : Pattern) : graph.linearize values pattern = .error failure := by
  rw [linearize, failed]
  rfl

end Systems

section Omitted

variable {before after : List (GraphFactor ℝ)} {f : GraphFactor ℝ} {values : Values ℝ} {layout : Layout}

/-- The rows of a mute slot are zero. -/
theorem slotRows_zero (mute : f.Mute) {system : Vec ℝ × Mat ℝ} (hasSystem : f.HasSystem values system) :
    ∀ row ∈ slotRows values layout (f, system), row.Zero := by
  have zero (i j : Nat) : system.2.get i j = 0 := by
    rw [Mat.get]
    by_cases row : i < system.2.rows.length
    · rw [List.getD_eq_getElem _ _ row]
      by_cases column : j < (system.2.rows[i]).length
      · rw [List.getD_eq_getElem _ _ column]
        exact mute.jacobian_eq _ _ _ hasSystem.linear _ (List.getElem_mem row) _ (List.getElem_mem column)
      · exact List.getD_eq_default _ _ (not_lt.mp column)
    · rw [List.getD_eq_default _ _ (not_lt.mp row)]
      rfl
  have entries (column : Nat) (keys : List String) :
      ∀ e ∈ slotEntries values layout 0 system.2 column keys, e.2 = 0 := by
    induction keys generalizing column with
    | nil => exact List.forall_mem_nil _
    | cons key keys ih =>
        intro e member
        rcases List.mem_append.mp member with here | later
        · obtain ⟨i, -, inner⟩ := List.mem_flatMap.mp here
          obtain ⟨c, -, rfl⟩ := List.mem_map.mp inner
          exact zero _ _
        · exact ih _ e later
  intro row member
  obtain ⟨i, -, rfl⟩ := List.mem_map.mp member
  constructor
  · by_cases inside : i < system.1.length
    · rw [List.getD_eq_getElem _ _ inside]
      exact mute.residual_eq _ _ _ hasSystem.linear _ (List.getElem_mem inside)
    · exact List.getD_eq_default _ _ (not_lt.mp inside)
  · intro a
    refine List.sum_eq_zero fun x present => ?_
    obtain ⟨e, listed, rfl⟩ := List.mem_map.mp present
    exact entries 0 f.keys e (List.mem_of_mem_filter listed)

/-- The names stay where every variable of the slot is referred to elsewhere. -/
theorem layout_omit (shared : ∀ key ∈ f.keys, ∃ g ∈ before ++ after, key ∈ g.keys) (values : Values ℝ) :
    Graph.layout ⟨before ++ after⟩ values = Graph.layout ⟨before ++ f :: after⟩ values := by
  have names : variableNames ⟨before ++ after⟩ = variableNames ⟨before ++ f :: after⟩ := by
    refine sortedNames_congr fun key => ?_
    simp only [List.mem_flatMap]
    constructor
    · rintro ⟨g, present, referred⟩
      exact ⟨g, List.mem_append.mpr ((List.mem_append.mp present).imp id (.tail _)), referred⟩
    · rintro ⟨g, present, referred⟩
      rcases List.mem_append.mp present with first | rest
      · exact ⟨g, List.mem_append_left _ first, referred⟩
      · rcases List.mem_cons.mp rest with rfl | later
        · exact shared key referred
        · exact ⟨g, List.mem_append_right _ later, referred⟩
  rw [Graph.layout, Graph.layout, names]

theorem rows_omit (before after : List (GraphFactor ℝ)) (f : GraphFactor ℝ) :
    ((before ++ after).map (·.noise.dim)).sum ≤ ((before ++ f :: after).map (·.noise.dim)).sum := by
  simp only [List.map_append, List.sum_append, List.map_cons, List.sum_cons]
  omega

/-- A traversal with an element that succeeds against the one without it. -/
theorem mapM_omit {β : Type} {evaluate : GraphFactor ℝ → Result ℝ β} {b : β} (here : evaluate f = .ok b) :
    (∃ failure, (before ++ f :: after).mapM evaluate = .error failure ∧
      (before ++ after).mapM evaluate = .error failure) ∨
    ∃ bs cs, (before ++ f :: after).mapM evaluate = .ok (bs ++ b :: cs) ∧
      (before ++ after).mapM evaluate = .ok (bs ++ cs) := by
  rw [List.mapM_append, List.mapM_append, List.mapM_cons, here]
  rcases before.mapM evaluate with failure | bs
  · exact .inl ⟨failure, rfl, rfl⟩
  · rcases after.mapM evaluate with failure | cs
    · exact .inl ⟨failure, rfl, rfl⟩
    · exact .inr ⟨bs, cs, rfl, rfl⟩

theorem error_omit (mute : f.Mute) {e : ℝ} (known : f.error values = .ok e) :
    error ⟨before ++ after⟩ values = error ⟨before ++ f :: after⟩ values := by
  obtain rfl := mute.error_eq values e known
  rw [error_sum, error_sum, factorErrors, factorErrors]
  rcases @mapM_omit before after f _ (·.error values) _ known with ⟨failure, whole, part⟩ | ⟨bs, cs, whole, part⟩
  · rw [whole, part]
  · rw [whole, part]
    simp [Functor.map, Except.map]

/-- Both systems fail alike, or they have the same numbers. -/
theorem linearize_omit (mute : f.Mute) {pattern pattern' : Pattern}
    (columns : Columns ⟨before ++ f :: after⟩ values layout) (columns' : Columns ⟨before ++ after⟩ values layout)
    (addressable : ((before ++ f :: after).map (·.noise.dim)).sum < 2 ^ 64)
    (found : Graph.pattern ⟨before ++ f :: after⟩ values layout = .ok pattern)
    (found' : Graph.pattern ⟨before ++ after⟩ values layout = .ok pattern') {system : Vec ℝ × Option (Mat ℝ)}
    (linear : f.linearize values true = .ok system) :
    Result.Alongside (fun s s' => SameNumbers s.1 s'.1 s.2 s'.2) (Graph.linearize ⟨before ++ f :: after⟩ values pattern)
      (Graph.linearize ⟨before ++ after⟩ values pattern') := by
  obtain ⟨A, -, hasSystem⟩ := GraphFactor.hasSystem_of_linearize linear
  rcases @mapM_omit before after f _ _ _ (linearizeBlock_eq_entries hasSystem) with ⟨failure, whole, part⟩ |
    ⟨bs, cs, -, part⟩
  · rw [linearize_failed whole, linearize_failed part]
    exact .failed failure
  · have each (fs : List (GraphFactor ℝ)) (among : ∀ g ∈ fs, g ∈ before ++ after) :
        ∃ systems, List.Forall₂ (GraphFactor.HasSystem values) fs systems := forall₂_exists fun g member => by
      obtain ⟨block, evaluated⟩ := Result.mapM_ok_of_mem part (among g member)
      exact hasSystem_of_block evaluated
    obtain ⟨first, each₁⟩ := each before fun g => List.mem_append_left _
    obtain ⟨later, each₂⟩ := each after fun g => List.mem_append_right _
    have whole : List.Forall₂ (GraphFactor.HasSystem values) (before ++ f :: after) (first ++ (system.1, A) :: later) :=
      List.rel_append each₁ (.cons hasSystem each₂)
    have rest : List.Forall₂ (GraphFactor.HasSystem values) (before ++ after) (first ++ later) :=
      List.rel_append each₁ each₂
    have smaller := (rows_omit before after f).trans_lt addressable
    have count : before.length = first.length := each₁.length_eq
    have stacked := stackedRows_slots layout whole
    have stacked' := stackedRows_slots layout rest
    rw [List.zip_append count, List.flatMap_append] at stacked stacked'
    rw [columns.linearize_systems found whole, columns'.linearize_systems found' rest]
    obtain ⟨_, -, -, rfl⟩ := pattern_ok_iff.mp found
    obtain ⟨_, -, -, rfl⟩ := pattern_ok_iff.mp found'
    rw [residualDimension_eq addressable, residualDimension_eq smaller]
    refine .returned (SameNumbers.of_rows ?_ ?_ (length_residual whole) (length_residual rest) stacked stacked'
      (slotRows_zero mute hasSystem))
    · exact fun e member => length_residual whole ▸ (columns.entry_inside whole member).1
    · exact fun e member => length_residual rest ▸ (columns'.entry_inside rest member).1

end Omitted

end Graph

end GraduatedFit
