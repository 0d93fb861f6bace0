import GraduatedFit.Proofs.WeightedGraph
import GraduatedFit.Proofs.ColumnLayout

/-! The slots of a graph in another order: the errors follow the slots, and their sum and the columns stay. -/

namespace GraduatedFit

section Lists

variable {α β : Type}

/-- The elements at the places that are listed, in the order of the list. -/
def rearrange (order : List Nat) (xs : List α) : List α := order.filterMap (xs[·]?)

theorem rearrange_cons (k : Nat) (order : List Nat) (xs : List α) :
    rearrange (k :: order) xs = xs[k]?.toList ++ rearrange order xs := by
  rw [rearrange, rearrange, List.filterMap_cons]
  cases xs[k]? <;> rfl

theorem rearrange_map (order : List Nat) (f : α → β) (xs : List α) :
    rearrange order (xs.map f) = (rearrange order xs).map f := by
  induction order with
  | nil => rfl
  | cons k order ih =>
      rw [rearrange_cons, rearrange_cons, List.map_append, ih, List.getElem?_map]
      cases xs[k]? <;> rfl

theorem rearrange_zip (order : List Nat) {xs : List α} {ys : List β} (same : xs.length = ys.length) :
    rearrange order (List.zip xs ys) = List.zip (rearrange order xs) (rearrange order ys) := by
  induction order with
  | nil => rfl
  | cons k order ih =>
      rw [rearrange_cons, rearrange_cons, rearrange_cons, ih]
      by_cases inside : k < xs.length
      · have inside' : k < ys.length := same ▸ inside
        simp [inside, inside']
      · have outside : xs.length ≤ k := not_lt.mp inside
        have outside' : ys.length ≤ k := same ▸ outside
        have beyond : (List.zip xs ys).length ≤ k := by
          rw [List.length_zip, same, min_self]
          exact outside'
        rw [List.getElem?_eq_none outside, List.getElem?_eq_none outside', List.getElem?_eq_none beyond]
        rfl

theorem rearrange_forall₂ {R : α → β → Prop} (order : List Nat) {xs : List α} {ys : List β}
    (related : List.Forall₂ R xs ys) : List.Forall₂ R (rearrange order xs) (rearrange order ys) := by
  induction order with
  | nil => exact .nil
  | cons k order ih =>
      rw [rearrange_cons, rearrange_cons]
      refine List.rel_append ?_ ih
      rcases left : xs[k]? with _ | x
      · have outside := List.getElem?_eq_none_iff.mp left
        rw [List.getElem?_eq_none (related.length_eq ▸ outside)]
        exact .nil
      · obtain ⟨inside, -⟩ := List.getElem?_eq_some_iff.mp left
        have right := List.getElem?_eq_getElem (related.length_eq ▸ inside : k < ys.length)
        rw [right]
        exact .cons (forall₂_getElem related left right) .nil

theorem rearrange_range (xs : List α) : rearrange (List.range xs.length) xs = xs := by
  induction xs with
  | nil => rfl
  | cons x xs ih =>
      rw [List.length_cons, List.range_succ_eq_map, rearrange_cons, rearrange, List.filterMap_map]
      exact congrArg (x :: ·) ih

section Permutes

variable {order : List Nat} {xs : List α} (permutes : order.Perm (List.range xs.length))
include permutes

/-- Nothing is lost and nothing is repeated. -/
theorem rearrange_perm : (rearrange order xs).Perm xs := by
  have moved : (rearrange order xs).Perm (rearrange (List.range xs.length) xs) := permutes.filterMap _
  rwa [rearrange_range] at moved

end Permutes

end Lists

theorem Result.mapM_rearrange {K α β : Type} {f : α → Result K β} (order : List Nat) {xs : List α} {ys : List β}
    (done : xs.mapM f = .ok ys) : (rearrange order xs).mapM f = .ok (rearrange order ys) :=
  Result.mapM_ok_iff.mpr (rearrange_forall₂ order (Result.mapM_ok_iff.mp done))

namespace Graph

section Slots

variable {K : Type}

/-- The same factors in other slots. -/
def rearrange (order : List Nat) (graph : Graph K) : Graph K := ⟨GraduatedFit.rearrange order graph.factors⟩

variable {order : List Nat} {graph : Graph K}

theorem rearrange_stripRobustLosses :
    (graph.rearrange order).stripRobustLosses = graph.stripRobustLosses.rearrange order := by
  simp only [stripRobustLosses, rearrange, rearrange_map]

theorem factorErrors_rearrange [Scalar K] {values : Values K} {errors : List K}
    (known : graph.factorErrors values = .ok errors) :
    (graph.rearrange order).factorErrors values = .ok (GraduatedFit.rearrange order errors) :=
  Result.mapM_rearrange order known

variable (permutes : order.Perm (List.range graph.size))
include permutes

theorem rearrange_factors_perm : (graph.rearrange order).factors.Perm graph.factors := rearrange_perm permutes

theorem size_rearrange : (graph.rearrange order).size = graph.size := (rearrange_factors_perm permutes).length_eq

theorem residualDimension_rearrange : (graph.rearrange order).residualDimension = graph.residualDimension := by
  have sum : ((graph.rearrange order).factors.map (·.noise.dim)).sum = (graph.factors.map (·.noise.dim)).sum :=
    ((rearrange_factors_perm permutes).map _).sum_eq
  rw [List.sum_eq_foldr, List.sum_eq_foldr, List.foldr_map, List.foldr_map] at sum
  exact congrArg (· % Nat.pow 2 64) sum

/-- The names are sorted, so that their order is not that of the slots. -/
theorem variableNames_rearrange : (graph.rearrange order).variableNames = graph.variableNames :=
  sortedNames_congr fun _ => ((rearrange_factors_perm permutes).flatMap_right _).mem_iff

theorem layout_rearrange (values : Values K) : (graph.rearrange order).layout values = graph.layout values := by
  rw [layout, layout, variableNames_rearrange permutes]

end Slots

/-- The sum of the errors does not depend on the order of the slots. -/
theorem error_rearrange {order : List Nat} {graph : Graph ℝ} (permutes : order.Perm (List.range graph.size))
    {values : Values ℝ} {cost : ℝ} (known : graph.error values = .ok cost) :
    (graph.rearrange order).error values = .ok cost := by
  rw [error_sum] at known ⊢
  obtain ⟨errors, found, rfl⟩ := Result.map_ok_iff.mp known
  have count : errors.length = graph.size := (Result.mapM_ok_iff.mp found).length_eq.symm
  rw [factorErrors_rearrange found]
  exact congrArg Except.ok (rearrange_perm (count ▸ permutes)).sum_eq

end Graph

end GraduatedFit
