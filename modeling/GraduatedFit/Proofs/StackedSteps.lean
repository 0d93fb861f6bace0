import GraduatedFit.Proofs.AffineFactors
import GraduatedFit.Proofs.KeptVariables

/-! Stacked steps of exact numbers, component by component: each column of a step moves one component of one variable,
and steps made one after the other add up. -/

namespace GraduatedFit

namespace Values

section Entries

variable {K : Type}

theorem entries_ext {xs ys : List (String × Vec K)} (different : (xs.map Prod.fst).Nodup)
    (keys : ys.map Prod.fst = xs.map Prod.fst) (same : ∀ key ∈ xs.map Prod.fst, ys.lookup key = xs.lookup key) :
    ys = xs := by
  induction xs generalizing ys with
  | nil => exact List.map_eq_nil_iff.mp keys
  | cons x xs ih =>
      obtain ⟨y, ys, rfl⟩ := List.exists_cons_of_length_eq_add_one (by simpa using congrArg List.length keys)
      obtain ⟨name, names⟩ := List.cons.inj keys
      obtain ⟨absent, later⟩ := List.nodup_cons.mp different
      have value : y.2 = x.2 := by
        have here := same x.1 (.head _)
        rw [List.lookup_cons, List.lookup_cons, name, beq_self_eq_true] at here
        exact Option.some.inj here
      rw [Prod.ext name value, ih later names fun key member => ?_]
      have apart : (key == x.1) = false := beq_false_of_ne fun same => absent (same ▸ member)
      have there := same key (.tail _ member)
      rwa [List.lookup_cons, List.lookup_cons, name, apart] at there

theorem ext_get? {a b : Values K} (keys : b.keys = a.keys) (same : ∀ key, b.get? key = a.get? key) : b = a := by
  obtain ⟨xs, increasing⟩ := a
  obtain ⟨ys, _⟩ := b
  have different : (xs.map Prod.fst).Nodup :=
    List.pairwise_map.mpr (increasing.imp fun below => String.ne_of_lt below)
  obtain rfl := entries_ext different keys fun key _ => same key
  rfl

end Entries

/-- A component of a variable, zero where there is none. -/
noncomputable def component (values : Values ℝ) (key : String) (i : Nat) : ℝ := ((values.get? key).getD []).getD i 0

variable {values moved moved' : Values ℝ}

theorem get?_of_components (shape : values.SameShape moved) {key : String}
    (same : ∀ i < values.sizeOf key, moved.component key i = values.component key i) :
    moved.get? key = values.get? key := by
  have dims := shape key
  unfold sizeOf component at same
  unfold dim? at dims same
  cases here : values.get? key with
  | none => simpa [here] using dims
  | some value =>
      obtain ⟨value', there, length⟩ := Option.map_eq_some_iff.mp (dims.trans (congrArg _ here))
      rw [here, there] at same
      rw [there, Vec.ext_getD length fun i inside => same i (inside.trans_eq length)]

/-- One estimate is another one moved by a stacked step: each component by the entry of its column. -/
structure Stepped (layout : Layout) (h : Vec ℝ) (values moved : Values ℝ) : Prop where
  keys : moved.keys = values.keys
  shape : values.SameShape moved
  component : ∀ key, ∀ i < values.sizeOf key, moved.component key i =
    values.component key i + (layout.start? key).elim 0 fun start => h.getD (start + i) 0

variable {layout : Layout} {h h' : Vec ℝ}

theorem SameShape.sizeOf_eq (shape : values.SameShape moved) (key : String) : moved.sizeOf key = values.sizeOf key :=
  congrArg (Option.getD · 0) (shape key)

theorem Stepped.unique (first : Stepped layout h values moved) (second : Stepped layout h values moved') :
    moved' = moved := by
  refine ext_get? (second.keys.trans first.keys.symm) fun key => get?_of_components ?_ fun i inside => ?_
  · exact fun key => (second.shape key).trans (first.shape key).symm
  · rw [first.shape.sizeOf_eq] at inside
    rw [first.component key i inside, second.component key i inside]

/-- Steps one after the other add up. -/
theorem Stepped.trans (same : h.length = h'.length) (first : Stepped layout h values moved)
    (second : Stepped layout h' moved moved') : Stepped layout (List.zipWith (· + ·) h h') values moved' where
  keys := second.keys.trans first.keys
  shape key := (second.shape key).trans (first.shape key)
  component key i inside := by
    rw [second.component key i (inside.trans_eq (first.shape.sizeOf_eq key).symm), first.component key i inside, add_assoc]
    cases layout.start? key with
    | none => simp
    | some start => simp only [Option.elim_some, Vec.getD_zipWith_add same]

theorem Stepped.still (layout : Layout) (n : Nat) (values : Values ℝ) :
    Stepped layout (List.replicate n 0) values values where
  keys := rfl
  shape _ := rfl
  component key i _ := by
    cases layout.start? key <;> simp

end Values

namespace Graph

variable {graph : Graph ℝ} {values : Values ℝ} {layout : Layout} {h h' : Vec ℝ}

open Values (Stepped)

/-- A step with an entry for each column moves each component by the entry of its column, and nothing else. -/
theorem Columns.retract_stepped (columns : graph.Columns values layout) (length : h.length = layout.totalDof) :
    ∃ moved, values.retract? layout.order h = some moved ∧ Stepped layout h values moved := by
  obtain ⟨moved, retracted, places⟩ := columns.retract_exists h length.ge
  have moves := Values.retract_movesOnly retracted
  refine ⟨moved, retracted, moves.keys_eq, moves.shape, fun key i inside => ?_⟩
  unfold Values.component
  by_cases listed : key ∈ layout.order
  · obtain ⟨value, found⟩ := Values.find_exists (columns.contains listed)
    have there := Values.find_ok_iff.mp (places key listed value found)
    have size : i < value.length := inside.trans_eq (Values.sizeOf_find found)
    have bound : layout.startOf key + i < h.length := by
      have := columns.block_inside listed
      omega
    rw [there, Values.find_ok_iff.mp found, columns.start_exists listed]
    simp [List.getD_eq_getElem?_getD, List.getElem?_zipWith, size, bound]
  · have none : layout.start? key = none := Layout.startIn_absent listed
    rw [moves.others key listed, none, Option.elim_none, add_zero]

/-- A step and then another one are the sum of both. -/
theorem Columns.retract_add (columns : graph.Columns values layout) (length : h.length = layout.totalDof)
    (length' : h'.length = layout.totalDof) {moved : Values ℝ} (retracted : values.retract? layout.order h = some moved) :
    moved.retract? layout.order h' = values.retract? layout.order (List.zipWith (· + ·) h h') := by
  have total : (List.zipWith (· + ·) h h').length = layout.totalDof := by
    rw [List.length_zipWith, length, length', min_self]
  obtain ⟨_, once, first⟩ := columns.retract_stepped length
  obtain rfl := Option.some.inj (once.symm.trans retracted)
  obtain ⟨there, twice, second⟩ := (columns.of_shape first.shape).retract_stepped length'
  obtain ⟨there', both, direct⟩ := columns.retract_stepped total
  rw [twice, both, (first.trans (length.trans length'.symm) second).unique direct]

/-- The negated step undoes a step. -/
theorem Columns.retract_neg (columns : graph.Columns values layout) (length : h.length = layout.totalDof)
    {moved : Values ℝ} (retracted : values.retract? layout.order h = some moved) :
    moved.retract? layout.order (h.map (- ·)) = some values := by
  have cancel : List.zipWith (· + ·) h (h.map (- ·)) = List.replicate layout.totalDof 0 :=
    List.ext_getElem (by simp [length]) fun i _ _ => by simp
  obtain ⟨there, retracted', stepped⟩ := columns.retract_stepped (List.length_replicate (n := layout.totalDof) (a := 0))
  rw [columns.retract_add length ((List.length_map _).trans length) retracted, cancel, retracted',
    (Stepped.still layout _ values).unique stepped]

/-- Between estimates of the same variables there is a step, as far as the columns reach. -/
theorem Columns.step_between (columns : graph.Columns values layout) {other : Values ℝ}
    (shape : values.SameShape other) : ∃ h : Vec ℝ, h.length = layout.totalDof ∧
      ∀ moved, Stepped layout h values moved → ∀ key ∈ layout.order, moved.get? key = other.get? key := by
  choose! place held using fun column inside => (columns.covered column inside).exists
  -- The column of a component has the difference of the two estimates there.
  refine ⟨(List.range layout.totalDof).map fun column => other.component (place column).1 (place column).2 -
    values.component (place column).1 (place column).2, by simp, fun moved stepped key listed => ?_⟩
  refine Values.get?_of_components (fun key => (stepped.shape key).trans (shape key).symm) fun i inside => ?_
  rw [shape.sizeOf_eq] at inside
  have holds := columns.holds listed inside
  have bound := columns.inside _ _ _ holds
  have same : place (layout.startOf key + i) = (key, i) := (columns.covered _ bound).unique (held _ bound) holds
  rw [stepped.component key i inside, columns.start_exists listed]
  simp [List.getD_eq_getElem?_getD, bound, same]

end Graph

end GraduatedFit
