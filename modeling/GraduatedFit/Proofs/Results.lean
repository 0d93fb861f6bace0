import Mathlib
import GraduatedFit.Error

/-! When a sequence of fallible operations has a result. -/

namespace GraduatedFit

variable {K α β : Type}

theorem forall₂_exists {R : α → β → Prop} {xs : List α} (each : ∀ x ∈ xs, ∃ y, R x y) :
    ∃ ys, List.Forall₂ R xs ys := by
  induction xs with
  | nil => exact ⟨[], .nil⟩
  | cons x xs ih =>
      obtain ⟨y, head⟩ := each x (.head _)
      obtain ⟨ys, tail⟩ := ih fun z member => each z (.tail _ member)
      exact ⟨y :: ys, .cons head tail⟩

theorem forall₂_getElem {R : α → β → Prop} {xs : List α} {ys : List β} (related : List.Forall₂ R xs ys) {i : Nat}
    {x : α} {y : β} (left : xs[i]? = some x) (right : ys[i]? = some y) : R x y := by
  obtain ⟨inside, rfl⟩ := List.getElem?_eq_some_iff.mp left
  obtain ⟨inside', rfl⟩ := List.getElem?_eq_some_iff.mp right
  exact related.get inside inside'

namespace Result

@[simp]
theorem pure_ok (a : α) : (pure a : Result K α) = .ok a := rfl

@[simp]
theorem bind_ok_iff {x : Result K α} {f : α → Result K β} {b : β} :
    x >>= f = .ok b ↔ ∃ a, x = .ok a ∧ f a = .ok b := by
  cases x with
  | error failure => simp [bind, Except.bind]
  | ok a => simp [bind, Except.bind]

@[simp]
theorem ok_bind (a : α) (f : α → Result K β) : (Except.ok a : Result K α) >>= f = f a := rfl

@[simp]
theorem error_bind (failure : Failure K) (f : α → Result K β) :
    (Except.error failure : Result K α) >>= f = .error failure := rfl

@[simp]
theorem map_ok_iff {x : Result K α} {f : α → β} {b : β} :
    f <$> x = .ok b ↔ ∃ a, x = .ok a ∧ f a = b := by
  cases x with
  | error failure => simp [Functor.map, Except.map]
  | ok a => simp [Functor.map, Except.map]

@[simp]
theorem except_map_ok_iff {x : Result K α} {f : α → β} {b : β} :
    x.map f = .ok b ↔ ∃ a, x = .ok a ∧ f a = b := map_ok_iff

@[simp]
theorem ofShape_ok_iff {x : Option α} {a : α} : (ofShape x : Result K α) = .ok a ↔ x = some a := by
  cases x <;> simp [ofShape]

theorem ofShape_map (x : Option α) (f : α → β) : (ofShape (x.map f) : Result K β) = f <$> ofShape x := by
  cases x <;> rfl

theorem mapM_ok_iff {f : α → Result K β} {xs : List α} {ys : List β} :
    xs.mapM f = .ok ys ↔ List.Forall₂ (fun x y => f x = .ok y) xs ys := by
  induction xs generalizing ys with
  | nil => simp [eq_comm]
  | cons x xs ih =>
      simp only [List.mapM_cons, bind_ok_iff, pure_ok, Except.ok.injEq]
      constructor
      · rintro ⟨y, head, rest, tail, rfl⟩
        exact .cons head (ih.mp tail)
      · intro related
        cases related with
        | cons head tail => exact ⟨_, head, _, ih.mpr tail, rfl⟩

theorem mapM_mem {f : α → Result K β} {xs : List α} {ys : List β} (done : xs.mapM f = .ok ys) {y : β}
    (member : y ∈ ys) : ∃ x ∈ xs, f x = .ok y := by
  have related := mapM_ok_iff.mp done
  induction related with
  | nil => cases member
  | cons head tail ih =>
      rcases List.mem_cons.mp member with rfl | later
      · exact ⟨_, .head _, head⟩
      · obtain ⟨x, present, found⟩ := ih (mapM_ok_iff.mpr tail) later
        exact ⟨x, .tail _ present, found⟩

theorem mapM_ok_of_mem {f : α → Result K β} {xs : List α} {ys : List β} (done : xs.mapM f = .ok ys) {x : α}
    (member : x ∈ xs) : ∃ y, f x = .ok y := by
  have related := mapM_ok_iff.mp done
  clear done
  induction related with
  | nil => cases member
  | cons head tail ih =>
      rcases List.mem_cons.mp member with rfl | later
      · exact ⟨_, head⟩
      · exact ih later

/-- A traversal succeeds where every operation does. -/
theorem mapM_exists {f : α → Result K β} {xs : List α} (each : ∀ x ∈ xs, ∃ y, f x = .ok y) :
    ∃ ys, xs.mapM f = .ok ys := by
  obtain ⟨ys, related⟩ := forall₂_exists each
  exact ⟨ys, mapM_ok_iff.mpr related⟩

/-- A traversal fails with the first failure that it meets. -/
theorem mapM_error_iff {f : α → Result K β} {xs : List α} {failure : Failure K} :
    xs.mapM f = .error failure ↔ ∃ (i : Nat) (x : α), xs[i]? = some x ∧ f x = .error failure ∧
      ∀ (j : Nat) (y : α), j < i → xs[j]? = some y → ∃ b, f y = .ok b := by
  induction xs with
  | nil => simp
  | cons x xs ih =>
      rw [List.mapM_cons]
      constructor
      · intro failed
        rcases head : f x with first | b
        · rw [head] at failed
          obtain rfl := Except.error.inj failed
          exact ⟨0, x, rfl, head, fun j y before => absurd before j.not_lt_zero⟩
        · rcases rest : xs.mapM f with later | bs
          · rw [head, rest] at failed
            obtain rfl := Except.error.inj failed
            obtain ⟨i, y, present, failing, earlier⟩ := ih.mp rest
            refine ⟨i + 1, y, present, failing, fun j z before found => ?_⟩
            cases j with
            | zero =>
                obtain rfl := Option.some.inj found
                exact ⟨b, head⟩
            | succ j => exact earlier j z (by omega) found
          · rw [head, rest] at failed
            cases failed
      · rintro ⟨i, y, present, failing, earlier⟩
        cases i with
        | zero =>
            obtain rfl := Option.some.inj present
            rw [failing]
            rfl
        | succ i =>
            obtain ⟨b, head⟩ := earlier 0 x i.succ_pos rfl
            have rest := ih.mpr ⟨i, y, present, failing, fun j z before found =>
              earlier (j + 1) z (by omega) found⟩
            rw [head, rest]
            rfl

/-- Two traversals of related lists that agree on related elements. -/
theorem mapM_congr {R : α → α → Prop} {f : α → Result K β} {xs ys : List α} (related : List.Forall₂ R xs ys)
    (same : ∀ x y, R x y → f y = f x) : ys.mapM f = xs.mapM f := by
  induction related with
  | nil => rfl
  | cons first rest ih => rw [List.mapM_cons, List.mapM_cons, ih, same _ _ first]

/-- A traversal of images whose results are images of results. -/
theorem mapM_map {γ δ : Type} {f : α → Result K β} {f' : γ → Result K δ} {g : α → γ} {h : β → δ} {xs : List α}
    (image : ∀ x ∈ xs, f' (g x) = h <$> f x) : (xs.map g).mapM f' = List.map h <$> xs.mapM f := by
  induction xs with
  | nil => rfl
  | cons x xs ih =>
      rw [List.map_cons, List.mapM_cons, List.mapM_cons, image x (.head _), ih fun y member => image y (.tail _ member)]
      cases f x with
      | error failure => rfl
      | ok y => cases xs.mapM f <;> rfl

theorem mapM_some_iff {f : α → Option β} {xs : List α} {ys : List β} :
    xs.mapM f = some ys ↔ List.Forall₂ (fun x y => f x = some y) xs ys := by
  induction xs generalizing ys with
  | nil => simp [eq_comm]
  | cons x xs ih =>
      simp only [List.mapM_cons, bind, Option.bind_eq_some_iff, pure, Option.some.injEq]
      constructor
      · rintro ⟨y, head, rest, tail, rfl⟩
        exact .cons head (ih.mp tail)
      · intro related
        cases related with
        | cons head tail => exact ⟨_, head, _, ih.mpr tail, rfl⟩

end Result

end GraduatedFit
