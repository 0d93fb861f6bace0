import GraduatedFit.Proofs.RowScaling
import GraduatedFit.Proofs.SlotEvaluation
import GraduatedFit.Proofs.SolverLoop
import GraduatedFit.Proofs.WeightedGraph

/-! Weights in the linear system of a graph: each slot counts as often as its weight says. -/

namespace GraduatedFit

namespace Graph

section Blocks

variable {K : Type}

theorem blockEntries_map (g : K → K) (rows : List (Vec K)) (sizes : List Nat) :
    blockEntries (rows.map (List.map g)) sizes = (blockEntries rows sizes).map g := by
  induction sizes generalizing rows with
  | nil => rfl
  | cons size sizes ih =>
      have rest : (rows.map (List.map g)).map (·.drop size) = (rows.map (·.drop size)).map (List.map g) := by
        simp [Function.comp_def]
      rw [blockEntries, blockEntries, rest, ih, List.map_append]
      simp [List.flatMap_map, List.map_flatMap]

theorem length_blockEntries {rows : List (Vec K)} {sizes : List Nat} (wide : ∀ row ∈ rows, row.length = sizes.sum) :
    (blockEntries rows sizes).length = rows.length * sizes.sum := by
  induction sizes generalizing rows with
  | nil => simp [blockEntries]
  | cons size sizes ih =>
      have enough : ∀ row ∈ rows, (row.take size).length = size := by
        intro row member
        rw [List.length_take, wide row member, List.sum_cons]
        omega
      have later : ∀ row ∈ rows.map (·.drop size), row.length = sizes.sum := by
        intro row member
        obtain ⟨whole, present, rfl⟩ := List.mem_map.mp member
        rw [List.length_drop, wide whole present, List.sum_cons]
        omega
      rw [blockEntries, List.length_append, ih later, List.length_flatMap, List.map_congr_left enough,
        List.length_map, List.sum_cons]
      simp
      ring

/-- The sizes of the variables of a slot. -/
theorem mapM_sizes {values : Values K} {keys : List String} {params : List (Vec K)}
    (known : keys.mapM values.find = .ok params) :
    (keys.mapM fun key => do return (← values.find key).length) = .ok (params.map List.length) := by
  rw [Result.mapM_ok_iff] at known ⊢
  rw [List.forall₂_map_right_iff]
  apply known.imp
  intro key param found
  rw [found]
  rfl

theorem length_blockPositions (rowStart rows colStart cols : Nat) :
    (blockPositions rowStart rows colStart cols).length = rows * cols := by
  simp [blockPositions, List.length_flatMap]

theorem row_of_blockPositions {rowStart rows colStart cols : Nat} {p : Nat × Nat}
    (member : p ∈ blockPositions rowStart rows colStart cols) : rowStart ≤ p.1 ∧ p.1 < rowStart + rows := by
  simp only [blockPositions, List.mem_flatMap, List.mem_map, List.mem_range] at member
  obtain ⟨i, inside, j, -, rfl⟩ := member
  exact ⟨Nat.le_add_right _ _, by simpa using inside⟩

/-- The positions of one slot. -/
def slotPositions (values : Values K) (layout : Layout) (row rows : Nat) (keys : List String) :
    Result K (List (List (Nat × Nat))) :=
  keys.mapM fun key => do
    let start ← match layout.start? key with
      | some start => pure start
      | none => .failModel (.lookup (.outsideLayout key))
    return blockPositions row rows start (← values.find key).length

theorem slotPositions_shape {values : Values K} {layout : Layout} {row rows : Nat} {keys : List String}
    {params : List (Vec K)} {blocks : List (List (Nat × Nat))} (known : keys.mapM values.find = .ok params)
    (placed : slotPositions values layout row rows keys = .ok blocks) :
    blocks.flatten.length = rows * (params.map List.length).sum ∧
      ∀ p ∈ blocks.flatten, row ≤ p.1 ∧ p.1 < row + rows := by
  rw [Result.mapM_ok_iff] at known
  rw [slotPositions, Result.mapM_ok_iff] at placed
  induction known generalizing blocks with
  | nil =>
      cases placed
      simp
  | @cons key param keys params found rest ih =>
      cases placed with
      | @cons _ block _ blocks head tail =>
          obtain ⟨count, rowsOf⟩ := ih tail
          obtain ⟨start, rfl⟩ : ∃ start, blockPositions row rows start param.length = block := by
            rw [found] at head
            split at head
            · exact ⟨_, Except.ok.inj head⟩
            · cases head
          constructor
          · rw [List.flatten_cons, List.length_append, count, length_blockPositions, List.map_cons, List.sum_cons,
              mul_add]
          · intro p member
            rcases List.mem_append.mp member with first | later
            · exact row_of_blockPositions first
            · exact rowsOf p later

theorem linearizeBlock_shape [Scalar K] {f : GraphFactor K} {values : Values K} {residual : Vec K} {entries : List K}
    (linear : linearizeBlock values f = .ok (residual, entries)) :
    residual.length = f.noise.dim ∧ ∃ params, f.keys.mapM values.find = .ok params ∧
      entries.length = f.noise.dim * (params.map List.length).sum := by
  simp only [linearizeBlock, Result.bind_ok_iff, Prod.exists] at linear
  obtain ⟨r, jacobian, whitened, sizes, measured, done⟩ := linear
  obtain ⟨rfl, rfl⟩ := Prod.mk.inj (Except.ok.inj done)
  obtain ⟨length, params, J, known, rfl, height, width⟩ := GraphFactor.linearize_shape whitened
  obtain rfl := Except.ok.inj ((mapM_sizes known).symm.trans measured)
  refine ⟨length, params, known, ?_⟩
  have wide : ∀ row ∈ J.rows, row.length = (params.map List.length).sum := by
    intro row member
    rw [J.regular row member, width, List.length_flatten]
  rw [Option.map_some, Option.getD_some, length_blockEntries wide, ← height]
  rfl

end Blocks

/-- The whitened block of a slot under a weight. -/
theorem linearizeBlock_eq {weight : ℝ} {f f' : GraphFactor ℝ} (weighted : GraphFactor.Weighted weight f f')
    (values : Values ℝ) :
    linearizeBlock values f' =
      (fun block => (block.1.map (√weight * ·), block.2.map (√weight * ·))) <$> linearizeBlock values f := by
  rw [linearizeBlock, linearizeBlock, weighted.linearize_eq, weighted.keys_eq]
  cases f.linearize values true with
  | error failure => rfl
  | ok system =>
      obtain ⟨residual, jacobian⟩ := system
      have rows : ((jacobian.map (Mat.map (√weight * ·))).map Mat.rows).getD [] =
          ((jacobian.map Mat.rows).getD []).map (List.map (√weight * ·)) := by
        cases jacobian <;> rfl
      have scaled : (GraphFactor.Weighted.scaleSystem weight <$> Except.ok (residual, jacobian) : Result ℝ _) =
        .ok (residual.map (√weight * ·), jacobian.map (Mat.map (√weight * ·))) := rfl
      simp only [scaled, Result.ok_bind, rows]
      cases f.keys.mapM fun key => (do return (← values.find key).length : Result ℝ Nat) with
      | error failure => rfl
      | ok sizes =>
          simp only [Result.ok_bind, blockEntries_map]
          rfl

/-- The weight of each row. -/
def rowWeights (weights : Vec ℝ) (fs : List (GraphFactor ℝ)) : List ℝ :=
  (List.zipWith (fun weight f => List.replicate f.noise.dim weight) weights fs).flatten

theorem rowWeights_cons (weight : ℝ) (weights : Vec ℝ) (f : GraphFactor ℝ) (fs : List (GraphFactor ℝ)) :
    rowWeights (weight :: weights) (f :: fs) = List.replicate f.noise.dim weight ++ rowWeights weights fs := rfl

theorem rowWeights_first (weight : ℝ) (weights : Vec ℝ) (f : GraphFactor ℝ) (fs : List (GraphFactor ℝ)) {p : Nat}
    (inside : p < f.noise.dim) : (rowWeights (weight :: weights) (f :: fs)).getD p 0 = weight := by
  rw [rowWeights_cons, List.getD_append _ _ _ _ (by simpa using inside),
    List.getD_eq_getElem _ _ (by simpa using inside), List.getElem_replicate]

theorem rowWeights_later (weight : ℝ) (weights : Vec ℝ) (f : GraphFactor ℝ) (fs : List (GraphFactor ℝ)) (p : Nat) :
    (rowWeights (weight :: weights) (f :: fs)).getD (f.noise.dim + p) 0 = (rowWeights weights fs).getD p 0 := by
  rw [rowWeights_cons, List.getD_append_right _ _ _ _ (by simp), List.length_replicate, Nat.add_sub_cancel_left]

/-- The first row of a slot. -/
def rowStart (graph : Graph ℝ) (slot : Nat) : Nat := ((graph.factors.take slot).map (·.noise.dim)).sum

/-- The number of rows of a slot. -/
def rowCount (graph : Graph ℝ) (slot : Nat) : Nat := (graph.factors.map (·.noise.dim)).getD slot 0

/-- Rows summed by their weight, slot by slot. -/
theorem sum_rowWeights (weights : Vec ℝ) (graph : Graph ℝ) (count : weights.length = graph.size) (term : Nat → ℝ) :
    ∑ p ∈ Finset.range (rowWeights weights graph.factors).length, (rowWeights weights graph.factors).getD p 0 * term p =
      ∑ slot ∈ Finset.range graph.size, weights.getD slot 0 *
        ∑ k ∈ Finset.range (graph.rowCount slot), term (graph.rowStart slot + k) := by
  obtain ⟨fs⟩ := graph
  unfold rowStart rowCount size at *
  dsimp only at count ⊢
  induction fs generalizing weights term with
  | nil =>
      obtain rfl : weights = [] := List.length_eq_zero_iff.mp count
      simp [rowWeights]
  | cons f fs ih =>
      obtain ⟨weight, weights, rfl⟩ := List.exists_cons_of_length_eq_add_one count
      have rest := ih weights (fun p => term (f.noise.dim + p)) (by simpa using count)
      rw [rowWeights_cons, List.length_append, List.length_replicate, ← rowWeights_cons, Finset.sum_range_add,
        List.length_cons, Finset.sum_range_succ', add_comm]
      simp only [rowWeights_later, rest]
      refine congrArg₂ (· + ·) (Finset.sum_congr rfl fun slot _ => ?_) ?_
      · simp [add_assoc]
      · rw [Finset.sum_congr rfl fun p inside => by
          rw [rowWeights_first weight weights f fs (Finset.mem_range.mp inside)], ← Finset.mul_sum]
        simp

/-- The blocks of the slots from a row on, before and after a reweighting. -/
structure Stacked (weights : Vec ℝ) (fs : List (GraphFactor ℝ)) (row : Nat) (positions : List (Nat × Nat))
    (blocks blocks' : List (Vec ℝ × List ℝ)) : Prop where
  rows : (blocks.map Prod.fst).flatten.length = (rowWeights weights fs).length
  residual : (blocks'.map Prod.fst).flatten =
    List.zipWith (fun weight x => √weight * x) (rowWeights weights fs) (blocks.map Prod.fst).flatten
  filled : (blocks'.map Prod.snd).flatten.length = (blocks.map Prod.snd).flatten.length
  above : ∀ p ∈ positions, row ≤ p.1
  entries : List.zip positions (blocks'.map Prod.snd).flatten =
    (List.zip positions (blocks.map Prod.snd).flatten).map fun e =>
      (e.1, √((rowWeights weights fs).getD (e.1.1 - row) 0) * e.2)

theorem Reweights.stacked {weights : Vec ℝ} {fs fs' : List (GraphFactor ℝ)} (reweights : Reweights weights fs fs')
    {values : Values ℝ} {layout : Layout} {row : Nat} {positions : List (Nat × Nat)}
    {blocks : List (Vec ℝ × List ℝ)} (placed : positionsFrom values layout row fs = .ok positions)
    (linear : fs.mapM (linearizeBlock values) = .ok blocks) :
    ∃ blocks', fs'.mapM (linearizeBlock values) = .ok blocks' ∧ Stacked weights fs row positions blocks blocks' := by
  induction reweights generalizing row positions blocks with
  | nil =>
      obtain rfl : [] = blocks := by simpa using linear
      obtain rfl : [] = positions := Except.ok.inj placed
      exact ⟨[], rfl, rfl, rfl, rfl, by simp, rfl⟩
  | @cons weight weights f f' fs fs' admitted first rest ih =>
      simp only [positionsFrom, Result.bind_ok_iff, Result.pure_ok, Except.ok.injEq] at placed
      obtain ⟨here, slot, below, others, rfl⟩ := placed
      simp only [List.mapM_cons, Result.bind_ok_iff, Result.pure_ok, Except.ok.injEq] at linear
      obtain ⟨⟨residual, entries⟩, block, tail, later, rfl⟩ := linear
      obtain ⟨blocks', linear', stacked⟩ := ih others later
      obtain ⟨length, params, known, size⟩ := linearizeBlock_shape block
      obtain ⟨count, rowsOf⟩ := slotPositions_shape known slot
      have block' : linearizeBlock values f' =
          .ok (residual.map (√weight * ·), entries.map (√weight * ·)) := by
        rw [linearizeBlock_eq first, block]
        rfl
      refine ⟨(residual.map (√weight * ·), entries.map (√weight * ·)) :: blocks', ?_, ?_, ?_, ?_, ?_, ?_⟩
      · rw [List.mapM_cons, block', linear']
        rfl
      · rw [rowWeights_cons, List.length_append, List.length_replicate, ← stacked.rows, List.map_cons,
          List.flatten_cons, List.length_append, length]
      · rw [rowWeights_cons, List.map_cons, List.flatten_cons, List.map_cons, List.flatten_cons, stacked.residual,
          List.zipWith_append (by simp [length]), ← length]
        refine congrArg (· ++ _) (List.ext_getElem (by simp) fun i _ _ => ?_)
        simp
      · rw [List.map_cons, List.flatten_cons, List.map_cons, List.flatten_cons, List.length_append,
          List.length_append, stacked.filled, List.length_map]
      · intro p member
        rcases List.mem_append.mp member with inside | after
        · exact (rowsOf p inside).1
        · exact (Nat.le_add_right _ _).trans (stacked.above p after)
      · have fits : here.flatten.length = entries.length := count.trans size.symm
        rw [List.map_cons, List.flatten_cons, List.map_cons, List.flatten_cons,
          List.zip_append (fits.trans (List.length_map _).symm), List.zip_append fits, List.map_append,
          stacked.entries, List.zip_map_right]
        -- the rows of the first slot come first, and those of the rest follow at an offset of its dimension
        refine congrArg₂ (· ++ ·) (List.map_congr_left fun e member => ?_) (List.map_congr_left fun e member => ?_)
        · obtain ⟨low, high⟩ := rowsOf _ (List.of_mem_zip member).1
          rw [rowWeights_first weight weights f fs (by omega)]
          rfl
        · have low := stacked.above _ (List.of_mem_zip member).1
          have place : e.1.1 - row = f.noise.dim + (e.1.1 - (row + f.noise.dim)) := by omega
          rw [place, rowWeights_later]

theorem length_rowWeights {weights : Vec ℝ} {fs : List (GraphFactor ℝ)} (count : weights.length = fs.length) :
    (rowWeights weights fs).length = fs.foldr (fun f total => f.noise.dim + total) 0 := by
  induction fs generalizing weights with
  | nil =>
      obtain rfl : weights = [] := List.length_eq_zero_iff.mp count
      rfl
  | cons f fs ih =>
      obtain ⟨weight, weights, rfl⟩ := List.exists_cons_of_length_eq_add_one count
      rw [rowWeights_cons, List.length_append, List.length_replicate, ih (by simpa using count), List.foldr_cons]

theorem rowWeights_nonneg {weights : Vec ℝ} (nonneg : ∀ weight ∈ weights, 0 ≤ weight) (fs : List (GraphFactor ℝ))
    (p : Nat) : 0 ≤ (rowWeights weights fs).getD p 0 := by
  by_cases inside : p < (rowWeights weights fs).length
  · rw [List.getD_eq_getElem _ _ inside]
    obtain ⟨rows, present, member⟩ := List.mem_flatten.mp (List.getElem_mem inside)
    obtain ⟨weight, f, pair, rfl⟩ : ∃ weight f, (weight, f) ∈ List.zip weights fs ∧
        List.replicate (GraphFactor.noise f).dim weight = rows := by
      rw [← List.map_uncurry_zip_eq_zipWith] at present
      obtain ⟨⟨weight, f⟩, pair, same⟩ := List.mem_map.mp present
      exact ⟨weight, f, pair, same⟩
    rw [List.eq_of_mem_replicate member]
    exact nonneg weight (List.of_mem_zip pair).1
  · rw [List.getD_eq_default _ _ (not_lt.mp inside)]

/-- The rows of the whitened system of a reweighted graph are those of the graph times the roots of the weights. -/
theorem Reweights.linearize_eq {weights : Vec ℝ} {graph g : Graph ℝ}
    (reweights : Reweights weights graph.factors g.factors) {values : Values ℝ} {layout : Layout} {pattern : Pattern}
    {r : Vec ℝ} {J : SparseMat ℝ} (found : graph.pattern values layout = .ok pattern)
    (linear : graph.linearize values pattern = .ok (r, J)) :
    let rows := rowWeights weights graph.factors
    g.linearize values pattern =
        .ok (List.zipWith (fun weight x => √weight * x) rows r, J.scaleRows fun p => √(rows.getD p 0)) ∧
      r.length = rows.length ∧ J.height ≤ rows.length ∧ J.WellFormed := by
  have inside := pattern_inside found
  obtain ⟨positions, placed, -, rfl⟩ := pattern_ok_iff.mp found
  obtain ⟨blocks, blockwise, rfl, filled⟩ := linearize_ok_iff.mp linear
  obtain ⟨blocks', blockwise', stacked⟩ := reweights.stacked placed blockwise
  have formed := Pattern.fill_wellFormed inside filled
  obtain ⟨count, rfl⟩ := Pattern.fill_some_iff.mp filled
  have short : graph.residualDimension ≤ (rowWeights weights graph.factors).length := by
    rw [length_rowWeights reweights.length_eq]
    exact Nat.mod_le _ _
  have filled' : Pattern.fill? ⟨graph.residualDimension, layout.totalDof, positions⟩ (blocks'.map Prod.snd).flatten =
      some ((SparseMat.ofEntries graph.residualDimension layout.totalDof
        (List.zip positions (blocks.map Prod.snd).flatten)).scaleRows
          fun p => √((rowWeights weights graph.factors).getD p 0)) := by
    rw [Pattern.fill?, if_pos (stacked.filled.trans count), stacked.entries, ← SparseMat.ofEntries_scaleRows]
    simp only [Nat.sub_zero]
  exact ⟨linearize_ok_iff.mpr ⟨blocks', blockwise', stacked.residual.symm, filled'⟩, stacked.rows, short, formed⟩

theorem Reweights.blocks_failed {weights : Vec ℝ} {fs fs' : List (GraphFactor ℝ)} (reweights : Reweights weights fs fs')
    {values : Values ℝ} {failure : Failure ℝ} (failed : fs.mapM (linearizeBlock values) = .error failure) :
    fs'.mapM (linearizeBlock values) = .error failure := by
  induction reweights with
  | nil => cases failed
  | @cons weight weights f f' fs fs' admitted first rest ih =>
      rw [List.mapM_cons] at failed ⊢
      rw [linearizeBlock_eq first]
      cases here : linearizeBlock values f with
      | error first =>
          rw [here] at failed
          exact failed
      | ok block =>
          rw [here, Result.ok_bind] at failed
          cases later : fs.mapM (linearizeBlock values) with
          | error second =>
              rw [later] at failed
              obtain rfl : second = failure := Except.error.inj failed
              rw [ih later]
              rfl
          | ok blocks =>
              rw [later] at failed
              cases failed

/-- A graph that cannot be linearized cannot be linearized under weights either. -/
theorem Reweights.linearize_failed {weights : Vec ℝ} {graph g : Graph ℝ}
    (reweights : Reweights weights graph.factors g.factors) {values : Values ℝ} {layout : Layout} {pattern : Pattern}
    {failure : Failure ℝ} (found : graph.pattern values layout = .ok pattern)
    (failed : graph.linearize values pattern = .error failure) : g.linearize values pattern = .error failure := by
  obtain ⟨positions, placed, -, rfl⟩ := pattern_ok_iff.mp found
  unfold linearize at failed ⊢
  cases blockwise : graph.factors.mapM (linearizeBlock values) with
  | error first =>
      rw [blockwise] at failed
      obtain rfl : first = failure := Except.error.inj failed
      rw [reweights.blocks_failed blockwise]
      rfl
  | ok blocks =>
      obtain ⟨blocks', blockwise', stacked⟩ := reweights.stacked placed blockwise
      rw [blockwise, Result.ok_bind] at failed
      rw [blockwise', Result.ok_bind]
      unfold Pattern.fill? at failed ⊢
      rw [stacked.filled]
      split at failed
      · cases failed
      · rename_i differ
        rw [if_neg differ]
        exact failed

section Products

variable {weights : Vec ℝ} {graph : Graph ℝ} {J : SparseMat ℝ}

/-- The Gram matrix of the weighted rows is the weighted sum of the Gram matrices of the slots. -/
theorem gram_rowWeights (count : weights.length = graph.size) (nonneg : ∀ weight ∈ weights, 0 ≤ weight)
    (formed : J.WellFormed) (short : J.height ≤ (rowWeights weights graph.factors).length) {a b : Nat}
    (row : a < J.width) (column : b < J.width) :
    (J.scaleRows fun p => √((rowWeights weights graph.factors).getD p 0)).gram.get a b =
      ∑ slot ∈ Finset.range graph.size, weights.getD slot 0 * ∑ k ∈ Finset.range (graph.rowCount slot),
        J.get (graph.rowStart slot + k) a * J.get (graph.rowStart slot + k) b := by
  rw [SparseMat.get_gram_scaleRows formed (rowWeights_nonneg nonneg graph.factors) row column,
    ← sum_rowWeights weights graph count fun p => J.get p a * J.get p b]
  apply Finset.sum_subset (Finset.range_subset_range.mpr short)
  intro p _ outside
  rw [SparseMat.get_below formed (not_lt.mp (by simpa using outside)), zero_mul, mul_zero]

/-- And likewise the gradient. -/
theorem transposeMul_rowWeights (count : weights.length = graph.size) (nonneg : ∀ weight ∈ weights, 0 ≤ weight)
    (formed : J.WellFormed) {r : Vec ℝ} (length : r.length = (rowWeights weights graph.factors).length) {a : Nat}
    (column : a < J.width) :
    ((J.scaleRows fun p => √((rowWeights weights graph.factors).getD p 0)).transposeMul
        (List.zipWith (fun weight x => √weight * x) (rowWeights weights graph.factors) r)).getD a 0 =
      ∑ slot ∈ Finset.range graph.size, weights.getD slot 0 * ∑ k ∈ Finset.range (graph.rowCount slot),
        J.get (graph.rowStart slot + k) a * r.getD (graph.rowStart slot + k) 0 := by
  have width : (J.scaleRows fun p => √((rowWeights weights graph.factors).getD p 0)).width = J.width :=
    List.length_map _
  rw [SparseMat.transposeMul_getD (SparseMat.scaleRows_wellFormed formed) _ (column.trans_eq width.symm),
    ← sum_rowWeights weights graph count fun p => J.get p a * r.getD p 0, List.length_zipWith, length, min_self]
  apply Finset.sum_congr rfl
  intro p inside
  have bound := Finset.mem_range.mp inside
  have entry : (List.zipWith (fun weight x => √weight * x) (rowWeights weights graph.factors) r).getD p 0 =
      √((rowWeights weights graph.factors).getD p 0) * r.getD p 0 := by
    simp [List.getD_eq_getElem?_getD, bound, length]
  have square := Real.mul_self_sqrt (rowWeights_nonneg nonneg graph.factors p)
  rw [SparseMat.get_scaleRows, entry]
  calc
    √((rowWeights weights graph.factors).getD p 0) * J.get p a *
        (√((rowWeights weights graph.factors).getD p 0) * r.getD p 0) =
      √((rowWeights weights graph.factors).getD p 0) * √((rowWeights weights graph.factors).getD p 0) *
        (J.get p a * r.getD p 0) := by ring
    _ = (rowWeights weights graph.factors).getD p 0 * (J.get p a * r.getD p 0) := by rw [square]

end Products

end Graph

end GraduatedFit
