import GraduatedFit.Proofs.ExactArithmetic

/-! Real numbers with the infinities and with the value that is not a number. Nothing is rounded and no number is too
large, so that a value is not finite only where an operation has no number for a result or is given none. -/

namespace GraduatedFit

inductive Extended
  | number (x : ℝ)
  | infinite (negative : Bool)
  | notANumber

namespace Extended

protected def neg : Extended → Extended
  | number x => number (-x)
  | infinite negative => infinite !negative
  | notANumber => notANumber

/-- Opposite infinities have no sum. -/
protected noncomputable def add : Extended → Extended → Extended
  | number x, number y => number (x + y)
  | number _, infinite negative => infinite negative
  | infinite negative, number _ => infinite negative
  | infinite negative, infinite negative' => if negative = negative' then infinite negative else notANumber
  | notANumber, _ => notANumber
  | _, notANumber => notANumber

/-- An infinity times zero is not a number. -/
protected noncomputable def mul : Extended → Extended → Extended
  | number x, number y => number (x * y)
  | number x, infinite negative => if x = 0 then notANumber else infinite (negative ^^ decide (x < 0))
  | infinite negative, number x => if x = 0 then notANumber else infinite (negative ^^ decide (x < 0))
  | infinite negative, infinite negative' => infinite (negative ^^ negative')
  | notANumber, _ => notANumber
  | _, notANumber => notANumber

/-- A quotient by zero is infinite, with the sign of what is divided; there is one zero, and it counts as positive. -/
protected noncomputable def div : Extended → Extended → Extended
  | number x, number y =>
    if y ≠ 0 then number (x / y) else if x = 0 then notANumber else infinite (decide (x < 0))
  | number _, infinite _ => number 0
  | infinite negative, number y => infinite (negative ^^ decide (y < 0))
  | infinite _, infinite _ => notANumber
  | notANumber, _ => notANumber
  | _, notANumber => notANumber

protected noncomputable def sqrt : Extended → Extended
  | number x => if x < 0 then notANumber else number √x
  | infinite false => infinite false
  | _ => notANumber

protected noncomputable def log : Extended → Extended
  | number x => if x < 0 then notANumber else if x = 0 then infinite true else number (Real.log x)
  | infinite false => infinite false
  | _ => notANumber

/-- The place in the order. What is not a number has none. -/
noncomputable def place? : Extended → Option EReal
  | number x => some x
  | infinite false => some ⊤
  | infinite true => some ⊥
  | notANumber => none

open Classical in
/-- A comparison, which only holds between values that have a place. -/
noncomputable def compare (related : EReal → EReal → Prop) (a b : Extended) : Bool :=
  match place? a, place? b with
  | some x, some y => decide (related x y)
  | _, _ => false

def isNumber : Extended → Bool
  | number _ => true
  | _ => false

noncomputable instance : Scalar Extended where
  zero := number 0
  one := number 1
  add := Extended.add
  sub a b := Extended.add a b.neg
  mul := Extended.mul
  div := Extended.div
  neg := Extended.neg
  ofScientific mantissa negative exponent := number (OfScientific.ofScientific mantissa negative exponent)
  sqrt := Extended.sqrt
  log := Extended.log
  lt := compare (· < ·)
  le := compare (· ≤ ·)
  eq := compare (· = ·)
  finite := isNumber
  epsilon := number Scalar.epsilon
  tiny := number Scalar.tiny

theorem number_zero : (0 : Extended) = number 0 := rfl

theorem number_one : (1 : Extended) = number 1 := rfl

theorem number_ofScientific (mantissa : Nat) (negative : Bool) (exponent : Nat) :
    (OfScientific.ofScientific mantissa negative exponent : Extended) =
      number (OfScientific.ofScientific mantissa negative exponent) := rfl

@[simp]
theorem number_neg (x : ℝ) : -number x = number (-x) := rfl

@[simp]
theorem number_add (x y : ℝ) : number x + number y = number (x + y) := rfl

@[simp]
theorem number_sub (x y : ℝ) : number x - number y = number (x - y) := by
  rw [sub_eq_add_neg x y]
  rfl

@[simp]
theorem number_mul (x y : ℝ) : number x * number y = number (x * y) := rfl

theorem number_div (x : ℝ) {y : ℝ} (nonzero : y ≠ 0) : number x / number y = number (x / y) := if_pos nonzero

theorem number_sqrt {x : ℝ} (nonneg : 0 ≤ x) : Scalar.sqrt (number x) = number √x := if_neg nonneg.not_gt

@[simp]
theorem number_lt (x y : ℝ) : Scalar.lt (number x) (number y) = decide (x < y) := by
  show compare (· < ·) (number x) (number y) = _
  simp [compare, place?]

@[simp]
theorem number_le (x y : ℝ) : Scalar.le (number x) (number y) = decide (x ≤ y) := by
  show compare (· ≤ ·) (number x) (number y) = _
  simp [compare, place?]

@[simp]
theorem number_eq (x y : ℝ) : Scalar.eq (number x) (number y) = decide (x = y) := by
  show compare (· = ·) (number x) (number y) = _
  simp [compare, place?]

@[simp]
theorem number_finite (x : ℝ) : Scalar.finite (number x) = true := rfl

theorem finite_iff {a : Extended} : Scalar.finite a = true ↔ ∃ x, a = number x := by
  cases a with
  | number x => simp
  | infinite negative => exact iff_of_false (by intro finite; cases finite) (by rintro ⟨x, same⟩; cases same)
  | notANumber => exact iff_of_false (by intro finite; cases finite) (by rintro ⟨x, same⟩; cases same)

@[simp]
theorem number_isNaN (x : ℝ) : Scalar.isNaN (number x) = false := by simp [Scalar.isNaN]

@[simp]
theorem number_max (x y : ℝ) : Scalar.max (number x) (number y) = number (x ⊔ y) := by
  unfold Scalar.max
  rcases lt_or_ge x y with below | above
  · simp [below, below.le]
  · simp [above, above.not_gt]

/-- A sum of values that are not all numbers is none. -/
theorem add_finite {a b : Extended} (finite : Scalar.finite (a + b) = true) :
    Scalar.finite a = true ∧ Scalar.finite b = true := by
  cases a with
  | number x =>
      cases b with
      | number y => exact ⟨rfl, rfl⟩
      | infinite negative => cases finite
      | notANumber => cases finite
  | infinite negative =>
      cases b with
      | number y => cases finite
      | infinite negative' => cases negative <;> cases negative' <;> cases finite
      | notANumber => cases finite
  | notANumber => cases finite

theorem mul_infinite (a : Extended) (negative : Bool) : Scalar.finite (a * infinite negative) = false := by
  cases a with
  | number x =>
      show isNumber (if x = 0 then notANumber else infinite _) = false
      split <;> rfl
  | infinite negative' => rfl
  | notANumber => rfl

theorem mul_notANumber (a : Extended) : Scalar.finite (a * notANumber) = false := by
  cases a <;> rfl

theorem mul_finite {a b : Extended} (finite : Scalar.finite (a * b) = true) : Scalar.finite b = true := by
  cases b with
  | number y => rfl
  | infinite negative => exact absurd finite (by simp [mul_infinite])
  | notANumber => exact absurd finite (by simp [mul_notANumber])

theorem foldl_finite {start : Extended} {xs : List Extended}
    (finite : Scalar.finite (xs.foldl (· + ·) start) = true) :
    Scalar.finite start = true ∧ ∀ x ∈ xs, Scalar.finite x = true := by
  induction xs generalizing start with
  | nil => exact ⟨finite, by simp⟩
  | cons x xs ih =>
      obtain ⟨sum, rest⟩ := ih finite
      obtain ⟨first, second⟩ := add_finite sum
      exact ⟨first, List.forall_mem_cons.mpr ⟨second, rest⟩⟩

theorem foldl_number (start : ℝ) (xs : List ℝ) :
    (xs.map number).foldl (· + ·) (number start) = number (xs.foldl (· + ·) start) := by
  induction xs generalizing start with
  | nil => rfl
  | cons x xs ih => exact ih (start + x)

theorem all_numbers {xs : List Extended} (finite : ∀ x ∈ xs, Scalar.finite x = true) :
    ∃ ys : List ℝ, xs = ys.map number := by
  induction xs with
  | nil => exact ⟨[], rfl⟩
  | cons x xs ih =>
      obtain ⟨first, rest⟩ := List.forall_mem_cons.mp finite
      obtain ⟨y, rfl⟩ := finite_iff.mp first
      obtain ⟨ys, rfl⟩ := ih rest
      exact ⟨y :: ys, rfl⟩

theorem normSq_numbers (xs : List ℝ) : Vec.normSq (xs.map number) = number (Vec.normSq xs) := by
  have squares : (xs.map number).map Scalar.square = (xs.map Scalar.square).map number := by
    rw [List.map_map, List.map_map]
    rfl
  rw [Vec.normSq, Vec.sum, squares]
  exact foldl_number 0 _

/-- A squared norm that is finite is that of a vector of numbers. -/
theorem normSq_finite {r : Vec Extended} (finite : Scalar.finite (Vec.normSq r) = true) :
    ∃ x, 0 ≤ x ∧ Vec.normSq r = number x := by
  obtain ⟨-, squares⟩ := foldl_finite finite
  obtain ⟨xs, rfl⟩ : ∃ xs : List ℝ, r = xs.map number := by
    apply all_numbers
    intro x member
    exact mul_finite (squares _ (List.mem_map_of_mem member))
  exact ⟨_, Vec.normSq_nonneg xs, normSq_numbers xs⟩

/-- The norm of a vector of numbers is a number. -/
theorem safeNorm_finite (xs : List ℝ) : Scalar.finite (Vec.safeNorm (xs.map number)) = true := by
  have small : Scalar.sqrt (Scalar.tiny : Extended) = number √Scalar.tiny :=
    number_sqrt (by norm_num [Scalar.tiny])
  have positive : (√Scalar.tiny : ℝ) ≠ 0 := Real.sqrt_ne_zero'.mpr (by norm_num [Scalar.tiny])
  have large : (1 : Extended) / number √Scalar.tiny = number (1 / √Scalar.tiny) := number_div 1 positive
  have scaled (c : ℝ) : Vec.normSq ((xs.map number).map (· * number c)) = number (Vec.normSq (xs.map (· * c))) := by
    rw [← normSq_numbers, List.map_map, List.map_map]
    rfl
  have root (ys : List ℝ) : Scalar.sqrt (number (Vec.normSq ys)) = number √(Vec.normSq ys) :=
    number_sqrt (Vec.normSq_nonneg ys)
  unfold Vec.safeNorm Vec.norm
  simp only [small, large, scaled, normSq_numbers, root, number_mul]
  split
  · rfl
  · split <;> rfl

end Extended

end GraduatedFit
