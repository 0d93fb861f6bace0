import GraduatedFit.Proofs.ColumnLayout

/-! An estimate after a stacked step: each variable is moved by the block of the step that its columns select. -/

namespace GraduatedFit

namespace Values

variable {K : Type}

theorem get?_mapValues (values : Values K) (f : String → Vec K → Vec K) (key : String) :
    (values.mapValues f).get? key = (values.get? key).map (f key) := by
  obtain ⟨entries, increasing⟩ := values
  unfold mapValues get?
  dsimp only
  clear increasing
  induction entries with
  | nil => rfl
  | cons entry entries ih =>
      rw [List.map_cons, List.lookup_cons, List.lookup_cons]
      by_cases here : key = entry.1
      · simp [here]
      · have apart : (key == entry.1) = false := beq_false_of_ne here
        rw [apart, ih]

variable [Scalar K]

/-- A step that is long enough moves every variable of the layout by its own block and no other variable. -/
theorem retract_blocks {values : Values K} {blocks : List (String × Nat)} {step : Vec K}
    (different : (blocks.map Prod.fst).Nodup) (sizes : ∀ block ∈ blocks, values.dim? block.1 = some block.2)
    (enough : (blocks.map Prod.snd).sum ≤ step.length) :
    ∃ moved, values.retract? (blocks.map Prod.fst) step = some moved ∧ ∀ key,
      moved.get? key = (values.get? key).map fun value =>
        (Layout.startIn key blocks).elim value fun start => List.zipWith (· + ·) value (step.drop start) := by
  induction blocks generalizing values step with
  | nil => exact ⟨values, rfl, fun key => by cases values.get? key <;> rfl⟩
  | cons block blocks ih =>
      obtain ⟨absent, later⟩ := List.nodup_cons.mp different
      obtain ⟨value, found, size⟩ := Option.map_eq_some_iff.mp (sizes block (.head _))
      rw [List.map_cons, List.sum_cons] at enough
      let first := values.mapValues fun k v => if k = block.1 then List.zipWith (· + ·) v step else v
      have first_get (key : String) : first.get? key =
          (values.get? key).map fun v => if key = block.1 then List.zipWith (· + ·) v step else v :=
        get?_mapValues _ _ _
      have others : ∀ other ∈ blocks, first.dim? other.1 = some other.2 := by
        intro other member
        have apart : other.1 ≠ block.1 := fun same => absent (List.mem_map.mpr ⟨other, member, same⟩)
        rw [dim?, first_get]
        simp only [if_neg apart, Option.map_id']
        exact sizes other (.tail _ member)
      have rest : (blocks.map Prod.snd).sum ≤ (step.drop value.length).length := by
        rw [List.length_drop]
        omega
      obtain ⟨moved, retracted, places⟩ := ih later others rest
      refine ⟨moved, ?_, ?_⟩
      · rw [List.map_cons, retract?, found]
        dsimp only
        rw [if_pos (by omega)]
        exact retracted
      · intro key
        rw [places, first_get, Option.map_map]
        congr 1
        funext v
        by_cases here : key = block.1
        · have gone : Layout.startIn key blocks = none := Layout.startIn_absent (here ▸ absent)
          have begins : Layout.startIn key (block :: blocks) = some 0 := if_pos here.symm
          rw [Function.comp_apply, gone, begins, if_pos here]
          rfl
        · have begins : Layout.startIn key (block :: blocks) = (Layout.startIn key blocks).map (block.2 + ·) :=
            if_neg (Ne.symm here)
          rw [Function.comp_apply, begins, if_neg here, size]
          cases Layout.startIn key blocks with
          | none => rfl
          | some start => simp [List.drop_drop]

end Values

namespace Graph

variable {K : Type} [Scalar K] {graph : Graph K} {values : Values K} {layout : Layout}

/-- The blocks of a stacked direction that belong to the variables of a slot. -/
def directions (values : Values K) (layout : Layout) (h : Vec K) (keys : List String) : List (Vec K) :=
  keys.map fun key => (h.drop (layout.startOf key)).take (values.sizeOf key)

theorem Columns.retract_exists (columns : graph.Columns values layout) (step : Vec K)
    (enough : layout.totalDof ≤ step.length) :
    ∃ moved, values.retract? layout.order step = some moved ∧ ∀ key ∈ layout.order, ∀ value,
      values.find key = .ok value →
        moved.find key = .ok (List.zipWith (· + ·) value (step.drop (layout.startOf key))) := by
  have different : (layout.blocks.map Prod.fst).Nodup := columns.increasing.imp String.ne_of_lt
  obtain ⟨moved, retracted, places⟩ := Values.retract_blocks different columns.sizes (columns.width ▸ enough)
  refine ⟨moved, retracted, ?_⟩
  intro key member value found
  have begins : Layout.startIn key layout.blocks = some (layout.startOf key) := columns.start_exists member
  rw [Values.find_ok_iff, places, Values.find_ok_iff.mp found, begins]
  rfl

end Graph

end GraduatedFit
