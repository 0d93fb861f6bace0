import GraduatedFit.Proofs.SlotOrderContinuation
import GraduatedFit.Proofs.StoppingTests
import GraduatedFit.Proofs.TrustedSlots

/-! The first control parameter: when there is none, its sign, and what is known of the errors where a run ends at once
because of it. -/

namespace GraduatedFit

namespace Extended

/-- What a sum of squares can be: it is not negative, infinite or not a number. -/
inductive Reading : Extended → Prop
  | number {x : ℝ} (nonneg : 0 ≤ x) : Reading (number x)
  | infinite : Reading (infinite false)
  | undefined : Reading notANumber

theorem Reading.add {a b : Extended} (left : Reading a) (right : Reading b) : Reading (a + b) := by
  cases left with
  | number nonneg =>
      cases right with
      | number nonneg' => exact .number (add_nonneg nonneg nonneg')
      | infinite => exact .infinite
      | undefined => exact .undefined
  | infinite =>
      cases right with
      | number => exact .infinite
      | infinite => exact .infinite
      | undefined => exact .undefined
  | undefined => exact .undefined

theorem reading_square (a : Extended) : Reading (Scalar.square a) := by
  cases a with
  | number x => exact .number (mul_self_nonneg x)
  | infinite negative => cases negative <;> exact .infinite
  | notANumber => exact .undefined

theorem Reading.scale {a : Extended} {c : ℝ} (positive : 0 < c) (reading : Reading a) :
    Reading (Extended.number c * a) := by
  cases reading with
  | number nonneg => exact .number (mul_nonneg positive.le nonneg)
  | infinite =>
      have same : Extended.number c * Extended.infinite false = Extended.infinite false := by
        show Extended.mul _ _ = _
        simp [Extended.mul, positive.ne', positive.le]
      rw [same]
      exact .infinite
  | undefined => exact .undefined

theorem reading_foldl {start : Extended} {xs : List Extended} (first : Reading start) (each : ∀ x ∈ xs, Reading x) :
    Reading (xs.foldl (· + ·) start) := by
  induction xs generalizing start with
  | nil => exact first
  | cons x xs ih =>
      obtain ⟨head, tail⟩ := List.forall_mem_cons.mp each
      exact ih (first.add head) tail

theorem reading_normSq (r : Vec Extended) : Reading (Vec.normSq r) := by
  refine reading_foldl (.number le_rfl) fun square member => ?_
  obtain ⟨x, -, rfl⟩ := List.mem_map.mp member
  exact reading_square x

@[simp]
theorem isNaN_infinite (negative : Bool) : Scalar.isNaN (infinite negative) = false := by
  show (!compare (· = ·) (infinite negative) (infinite negative)) = false
  cases negative <;> simp [compare, place?]

@[simp]
theorem isNaN_notANumber : Scalar.isNaN notANumber = true := rfl

@[simp]
theorem lt_infinite (x : ℝ) : Scalar.lt (number x) (infinite false) = true := by
  show compare (· < ·) (number x) (infinite false) = true
  simp [compare, place?]

@[simp]
theorem infinite_lt {a : Extended} : Scalar.lt (infinite false) a = false := by
  show compare (· < ·) (infinite false) a = false
  cases a with
  | number x => simp [compare, place?]
  | infinite negative => cases negative <;> simp [compare, place?]
  | notANumber => rfl

@[simp]
theorem notANumber_lt (a : Extended) : Scalar.lt notANumber a = false := rfl

end Extended

open Extended

theorem GraphFactor.error_reading {f : GraphFactor Extended} (plain : f.noise.isRobust = false)
    {values : Values Extended} {e : Extended} (known : f.error values = .ok e) : Reading e := by
  obtain ⟨residual, -, whitened⟩ := Result.bind_ok_iff.mp known
  rw [Result.ofShape_ok_iff, Noise.error_plain plain, Option.map_eq_some_iff] at whitened
  obtain ⟨r, -, rfl⟩ := whitened
  have half : (0 : ℝ) < 0.5 := by norm_num
  exact (reading_normSq r).scale half

/-- Without robust losses every factor error is half a sum of squares. -/
theorem Graph.errors_readings {graph : Graph Extended} (plain : graph.hasRobustFactors = false)
    {values : Values Extended} {errors : List Extended} (known : graph.factorErrors values = .ok errors) :
    ∀ e ∈ errors, Reading e := by
  intro e member
  obtain ⟨f, present, found⟩ := Result.mapM_mem known member
  exact GraphFactor.error_reading (Graph.hasRobustFactors_false_iff.mp plain f present) found

namespace Continuation

section Largest

variable {errors errors' : List Extended}

/-- The larger of a largest error and the next one, which counts as larger if it is not a number. -/
noncomputable def raised (largest e : Extended) : Extended :=
  if Scalar.isNaN e || Scalar.lt largest e then e else largest

theorem largestError_eq_foldl (errors : List Extended) : largestError errors = errors.foldl raised (number 0) := rfl

@[simp]
theorem raised_undefined (largest : Extended) : raised largest notANumber = notANumber := rfl

@[simp]
theorem undefined_raised (e : Extended) : raised notANumber e = notANumber := by
  cases e with
  | number x => simp [raised]
  | infinite negative => simp [raised]
  | notANumber => rfl

@[simp]
theorem infinite_raised {e : Extended} (defined : e ≠ notANumber) : raised (infinite false) e = infinite false := by
  cases e with
  | number x => simp [raised]
  | infinite negative => simp [raised]
  | notANumber => exact absurd rfl defined

@[simp]
theorem number_raised (x y : ℝ) : raised (number x) (number y) = number (x ⊔ y) := by
  rcases lt_or_ge x y with below | above
  · simp [raised, below, below.le]
  · simp [raised, above, above.not_gt]

theorem raised_infinite (x : ℝ) : raised (number x) (infinite false) = infinite false := by
  simp [raised]

/-- An error that is not a number is never replaced by one that is. -/
theorem foldl_undefined {start : Extended} (undefined : start = notANumber ∨ notANumber ∈ errors) :
    errors.foldl raised start = notANumber := by
  induction errors generalizing start with
  | nil => simpa using undefined
  | cons e errors ih =>
      refine ih ?_
      rcases undefined with rfl | member
      · exact .inl (undefined_raised e)
      · rcases List.mem_cons.mp member with rfl | later
        · exact .inl (raised_undefined start)
        · exact .inr later

/-- Without such an error an infinite one stays the largest. -/
theorem foldl_infinite {start : Extended} (defined : notANumber ∉ errors) (readings : ∀ e ∈ errors, Reading e)
    (first : start = infinite false ∨ (∃ x, start = number x) ∧ infinite false ∈ errors) :
    errors.foldl raised start = infinite false := by
  induction errors generalizing start with
  | nil => simpa using first
  | cons e errors ih =>
      obtain ⟨head, tail⟩ := not_or.mp (mt List.mem_cons.mpr defined)
      obtain ⟨reading, readings⟩ := List.forall_mem_cons.mp readings
      refine ih tail readings ?_
      rcases first with rfl | ⟨⟨x, rfl⟩, member⟩
      · exact .inl (infinite_raised (Ne.symm head))
      · cases reading with
        | undefined => exact absurd rfl head
        | infinite => exact .inl (raised_infinite x)
        | number =>
            rcases List.mem_cons.mp member with same | later
            · cases same
            · exact .inr ⟨⟨_, number_raised x _⟩, later⟩

theorem largestError_numbers (xs : List ℝ) : largestError (xs.map number) = number (largestError xs) := by
  suffices ∀ start : ℝ, (xs.map number).foldl raised (number start) = number (xs.foldl
      (fun largest e => if Scalar.isNaN e || Scalar.lt largest e then e else largest) start) from this 0
  induction xs with
  | nil => exact fun start => rfl
  | cons x xs ih =>
      intro start
      have larger : raised (number start) (number x) =
          number (if Scalar.isNaN x || Scalar.lt start x then x else start) := by
        rcases lt_or_ge start x with below | above
        · simp [below, below.le]
        · simp [above, above.not_gt]
      rw [List.map_cons, List.foldl_cons, List.foldl_cons, larger]
      exact ih _

/-- What the largest of readings is: undefined if one of them is, else infinite if one of them is. -/
theorem largestError_cases (readings : ∀ e ∈ errors, Reading e) :
    notANumber ∈ errors ∧ largestError errors = notANumber ∨
      notANumber ∉ errors ∧ infinite false ∈ errors ∧ largestError errors = infinite false ∨
      ∃ xs : List ℝ, errors = xs.map number ∧ largestError errors = number (largestError xs) := by
  by_cases undefined : notANumber ∈ errors
  · exact .inl ⟨undefined, foldl_undefined (.inr undefined)⟩
  by_cases infinite : infinite false ∈ errors
  · exact .inr (.inl ⟨undefined, infinite, foldl_infinite undefined readings (.inr ⟨⟨0, rfl⟩, infinite⟩)⟩)
  · have finite : ∀ e ∈ errors, Scalar.finite e = true := by
      intro e member
      cases readings e member with
      | number => rfl
      | infinite => exact absurd member infinite
      | undefined => exact absurd member undefined
    obtain ⟨xs, rfl⟩ := all_numbers finite
    exact .inr (.inr ⟨xs, rfl, largestError_numbers xs⟩)

/-- The largest error is finite exactly where every error is. -/
theorem largestError_finite_iff (readings : ∀ e ∈ errors, Reading e) :
    Scalar.finite (largestError errors) = true ↔ ∀ e ∈ errors, Scalar.finite e = true := by
  refine ⟨fun finite => ?_, fun finite => ?_⟩
  · rcases largestError_cases readings with ⟨-, same⟩ | ⟨-, -, same⟩ | ⟨xs, rfl, -⟩
    · rw [same] at finite
      cases finite
    · rw [same] at finite
      cases finite
    · intro e member
      obtain ⟨x, -, rfl⟩ := List.mem_map.mp member
      rfl
  · obtain ⟨x, same⟩ := largestError_finite finite
    rw [same]
    rfl

theorem largestError_moved (readings : ∀ e ∈ errors, Reading e) (moved : errors'.Perm errors) :
    largestError errors' = largestError errors := by
  have readings' : ∀ e ∈ errors', Reading e := fun e member => readings e (moved.mem_iff.mp member)
  rcases largestError_cases readings with ⟨undefined, same⟩ | ⟨defined, infinite, same⟩ | ⟨xs, rfl, same⟩
  · exact (foldl_undefined (.inr (moved.mem_iff.mpr undefined))).trans same.symm
  · rw [same, largestError_eq_foldl]
    exact foldl_infinite (mt moved.mem_iff.mp defined) readings' (.inr ⟨⟨0, rfl⟩, moved.mem_iff.mpr infinite⟩)
  · have finite : ∀ e ∈ errors', Scalar.finite e = true := by
      intro e member
      obtain ⟨x, -, rfl⟩ := List.mem_map.mp (moved.mem_iff.mp member)
      rfl
    obtain ⟨ys, rfl⟩ := all_numbers finite
    have injective : Function.Injective number := fun _ _ same => by cases same; rfl
    rw [largestError_numbers, largestError_numbers,
      largestError_perm ((List.map_perm_map_iff injective).mp moved)]

/-- The largest of real errors is the greatest of them and zero. -/
theorem largestError_isGreatest (xs : List ℝ) : IsGreatest (insert 0 {x | x ∈ xs}) (largestError xs) := by
  obtain ⟨worst, greatest⟩ : ∃ worst, IsGreatest (insert 0 {x | x ∈ xs} : Set ℝ) worst := by
    have here := (insert 0 xs.toFinset).isGreatest_max' (Finset.insert_nonempty 0 _)
    rw [Finset.coe_insert, List.coe_toFinset] at here
    exact ⟨_, here⟩
  have below : largestError xs ≤ worst :=
    largestError_le_iff.mpr ⟨greatest.2 (Set.mem_insert 0 _), fun x member => greatest.2 (Set.mem_insert_of_mem 0 member)⟩
  have above : worst ≤ largestError xs := by
    obtain ⟨nonneg, bound⟩ := largestError_le_iff.mp (le_refl (largestError xs))
    rcases greatest.1 with rfl | member
    · exact nonneg
    · exact bound worst member
  exact le_antisymm below above ▸ greatest

end Largest

section Sign

variable {x threshold : ℝ}

theorem Family.initialMu_truncated_pos_iff (positive : 0 < threshold) :
    0 < truncatedLeastSquares.initialMu x threshold ↔ threshold / 2 < x := by
  have twice : (2.0 : ℝ) * x - threshold = 2.0 * (x - threshold / 2) := by
    norm_num
    ring
  have two : (0 : ℝ) < 2.0 := by norm_num
  rw [initialMu, twice, div_pos_iff_of_pos_left positive, mul_pos_iff_of_pos_left two, sub_pos]

theorem Family.initialMu_gemanMcClure_pos_iff (positive : 0 < threshold) :
    0 < gemanMcClure.initialMu x threshold ↔ 0 < x := by
  have two : (0 : ℝ) < 2.0 := by norm_num
  rw [initialMu, div_pos_iff_of_pos_right positive, mul_pos_iff_of_pos_left two]

/-- Away from its pole the first control parameter is that of the real numbers. -/
theorem Family.initialMu_numbers {family : Family} (regular : ¬family.AtPole (number x) (number threshold))
    (positive : 0 < threshold) :
    family.initialMu (number x) (number threshold) = number (family.initialMu x threshold) := by
  cases family with
  | gemanMcClure => rw [initialMu, initialMu, number_ofScientific, number_mul, number_div _ positive.ne']
  | truncatedLeastSquares =>
      rw [AtPole, number_ofScientific, number_mul] at regular
      have apart : 2.0 * x - threshold ≠ 0 := fun zero =>
        regular ⟨rfl, congrArg number (sub_eq_zero.mp zero)⟩
      rw [initialMu, initialMu, number_ofScientific, number_mul, number_sub, number_div _ apart]

end Sign

section Exits

variable {K : Type}

/-- The control parameter that an event ends a run because of, before its first iteration. -/
def Event.inside? : Event K → Option K
  | .allInside mu => some mu
  | _ => none

/-- The control parameters that a run ended at once because of. -/
def Run.exits (run : Run K) : List K := run.events.filterMap Event.inside?

theorem Run.mem_exits_iff {run : Run K} {mu : K} : mu ∈ run.exits ↔ .allInside mu ∈ run.events := by
  rw [exits, List.mem_filterMap]
  constructor
  · rintro ⟨event, member, noted⟩
    cases event with
    | allInside mu' =>
        obtain rfl := Option.some.inj noted
        exact member
    | _ => cases noted
  · exact fun member => ⟨_, member, rfl⟩

@[simp]
theorem Run.exits_after (events : List (Event K)) (run : Run K) :
    (run.after events).exits = events.filterMap Event.inside? ++ run.exits := by
  simp [after, exits]

namespace Optimizer


@[simp]
theorem finish_exits (o : Optimizer K) (outcome : Outcome) (count : Nat) (mu : K) :
    (o.finish outcome count mu).exits = [] := rfl

@[simp]
theorem failed_exits (o : Optimizer K) (failure : Failure K) : (Run.failed o failure).exits = [] := rfl

variable [Scalar K]

@[simp]
theorem solve_exit_free (o : Optimizer K) (clock : Clock) (graph : Graph K) :
    (o.solve clock graph).1.filterMap Event.inside? = [] := by
  unfold solve
  dsimp only
  split <;> rfl

@[simp]
theorem step_exit_free (o : Optimizer K) (clock : Clock) (number : Nat) (mu : K) :
    (o.step clock number mu).1.filterMap Event.inside? = [] := by
  unfold step
  split
  · rfl
  · exact o.solve_exit_free clock _

@[simp]
theorem solvePlain_exits (o : Optimizer K) (clock : Clock) (mu : K) : (o.solvePlain clock mu).exits = [] := by
  rcases o.solvePlain_cases clock mu with ⟨failure, -, same⟩ | ⟨base, -, same⟩
  · simp [same]
  · simp [same]

@[simp]
theorem continueFrom_exits (clock : Nat → Clock) (left number : Nat) (mu : K) (o : Optimizer K) :
    (continueFrom clock left number mu o).exits = [] := by
  induction left generalizing number mu o with
  | zero => rfl
  | succ left ih =>
      have continues := continueFrom_continues clock left number mu o
      generalize continueFrom clock (left + 1) number mu o = run at continues ⊢
      cases continues with
      | failed => simp
      | saturated => simp [Event.inside?]
      | muConverged => simp [Event.inside?]
      | later => simp [ih, Event.inside?]

/-- A run ends at once only where its first control parameter is not positive. -/
theorem optimize_exits {o : Optimizer K} {clock : Nat → Clock} {mu : K} (ended : .allInside mu ∈ (o.optimize clock).events) :
    o.initialMu = .ok mu ∧ o.known.all id = false ∧ Scalar.le mu 0 = true := by
  rw [← Run.mem_exits_iff] at ended
  rcases initially : o.initialMu with failure | first
  · rw [optimize_unknown clock initially] at ended
    simp [Event.inside?] at ended
  rcases start : o.graph.error o.estimate with failure | cost
  · rw [optimize_costless clock initially start] at ended
    simp [Event.inside?] at ended
  rw [optimize_started clock initially start] at ended
  split at ended
  · simp [Event.inside?] at ended
  · rename_i free
    split at ended
    · rename_i inside
      obtain rfl : first = mu := by simpa [Event.inside?] using ended
      exact ⟨rfl, by simpa using free, inside⟩
    · simp [Event.inside?] at ended

end Optimizer

end Exits

/-- There is no first control parameter: some error is not finite, or the largest one is at the pole of the schedule. -/
def Family.Degenerate (family : Family) (errors : List Extended) (threshold : Extended) : Prop :=
  (∃ e ∈ errors, Scalar.finite e = false) ∨ family.AtPole (largestError errors) threshold

namespace Optimizer

variable {o : Optimizer Extended} {errors : List Extended} {threshold : ℝ}

section Outcomes

variable (above : 0 < threshold) (given : o.config.threshold = number threshold)
  (evaluated : o.graph.factorErrors o.estimate = .ok errors) (readings : ∀ e ∈ errors, Reading e)

include above given evaluated readings in
theorem initialMu_degenerate (degenerate : o.config.family.Degenerate errors o.config.threshold) :
    o.initialMu = .failContinuation (.degenerateMu (o.config.family.initialMu (largestError errors) o.config.threshold)
      (largestError errors) o.config.threshold) := by
  rw [initialMu, evaluated, Result.ok_bind]
  dsimp only
  by_cases finite : ∀ e ∈ errors, Scalar.finite e = true
  · rcases degenerate with ⟨e, member, broken⟩ | pole
    · rw [finite e member] at broken
      cases broken
    · obtain ⟨x, largest⟩ := largestError_finite finite
      rw [given, largest] at pole ⊢
      rw [Family.initialMu_pole pole above]
      rfl
  · have broken : Scalar.finite (largestError errors) = false :=
      Bool.eq_false_iff.mpr (mt (largestError_finite_iff readings).mp finite)
    rw [broken]
    rfl

include above given evaluated in
/-- Otherwise it is that of real errors. -/
theorem initialMu_regular (regular : ¬o.config.family.Degenerate errors o.config.threshold) :
    ∃ xs : List ℝ, errors = xs.map number ∧
      o.initialMu = .ok (number (o.config.family.initialMu (largestError xs) threshold)) := by
  obtain ⟨finite, away⟩ := not_or.mp regular
  have finite : ∀ e ∈ errors, Scalar.finite e = true := by
    intro e member
    by_contra broken
    exact finite ⟨e, member, Bool.eq_false_iff.mpr broken⟩
  obtain ⟨xs, rfl⟩ := all_numbers finite
  rw [largestError_numbers, given] at away
  refine ⟨xs, rfl, ?_⟩
  rw [initialMu, evaluated, Result.ok_bind, given, largestError_numbers]
  dsimp only
  rw [Family.initialMu_numbers away above]
  rfl

include above given evaluated readings in
/-- A run that ends at once has every error inside the inlier region. -/
theorem exits_inside {clock : Nat → Clock} {mu : Extended} (ended : .allInside mu ∈ (o.optimize clock).events)
    {e : Extended} (member : e ∈ errors) :
    match o.config.family with
    | .truncatedLeastSquares => ∃ x, e = number x ∧ x < threshold
    | .gemanMcClure => e = number 0 := by
  obtain ⟨initially, -, inside⟩ := optimize_exits ended
  have regular : ¬o.config.family.Degenerate errors o.config.threshold := by
    intro degenerate
    rw [initialMu_degenerate above given evaluated readings degenerate] at initially
    cases initially
  obtain ⟨xs, rfl, found⟩ := initialMu_regular above given evaluated regular
  obtain rfl := Except.ok.inj (initially.symm.trans found)
  rw [number_zero, number_le, decide_eq_true_eq, ← not_lt] at inside
  obtain ⟨x, present, rfl⟩ := List.mem_map.mp member
  have bounded : x ≤ largestError xs := (largestError_isGreatest xs).2 (Set.mem_insert_of_mem 0 present)
  cases family : o.config.family with
  | truncatedLeastSquares =>
      rw [family, Family.initialMu_truncated_pos_iff above, not_lt] at inside
      exact ⟨x, rfl, by linarith⟩
  | gemanMcClure =>
      rw [family, Family.initialMu_gemanMcClure_pos_iff above, not_lt] at inside
      have nonneg : 0 ≤ x := by
        cases readings (number x) member
        assumption
      exact congrArg number (le_antisymm (bounded.trans inside) nonneg)

end Outcomes

/-- The order of the slots plays no part in the first control parameter. -/
theorem initialMu_moved (evaluated : o.graph.factorErrors o.estimate = .ok errors) (readings : ∀ e ∈ errors, Reading e)
    {order : List Nat} (permutes : order.Perm (List.range o.graph.size)) :
    (o.rearrange order).initialMu = o.initialMu := by
  have count : errors.length = o.graph.size := (Result.mapM_ok_iff.mp evaluated).length_eq.symm
  have evaluated' : (o.rearrange order).graph.factorErrors (o.rearrange order).estimate =
      .ok (GraduatedFit.rearrange order errors) := Graph.factorErrors_rearrange evaluated
  rw [initialMu, initialMu, evaluated', evaluated, Result.ok_bind, Result.ok_bind,
    largestError_moved readings (rearrange_perm (count ▸ permutes))]
  rfl

/-- There is no first control parameter exactly where an error is not finite or the largest one is at the pole of the
schedule. Where there is one, it is that of the largest error and positive if that error is outside the inlier region; the
order of the slots plays no part in it; and a run that ends at once because of it has every error inside. -/
theorem initialMu_classified {graph : Graph Extended} {initial : Values Extended} {config : Config Extended}
    (reachable : Reachable graph initial config o)
    (evaluated : graph.stripRobustLosses.factorErrors o.estimate = .ok errors) :
    (graph.stripRobustLosses.hasRobustFactors = false → ∀ e ∈ errors, Reading e) ∧
    ∃ threshold : ℝ, 0 < threshold ∧ config.threshold = number threshold ∧ ((∀ e ∈ errors, Reading e) →
      ((∃ mu largest bound, o.initialMu = .failContinuation (.degenerateMu mu largest bound)) ↔
        config.family.Degenerate errors config.threshold) ∧
      (config.family.Degenerate errors config.threshold → o.initialMu = .failContinuation
        (.degenerateMu (config.family.initialMu (largestError errors) config.threshold) (largestError errors)
          config.threshold)) ∧
      (¬config.family.Degenerate errors config.threshold → ∃ largest mu : ℝ,
        IsGreatest (insert 0 {x | number x ∈ errors}) largest ∧ o.initialMu = .ok (number mu) ∧
        match config.family with
        | .truncatedLeastSquares => mu = threshold / (2 * largest - threshold) ∧ (0 < mu ↔ threshold / 2 < largest)
        | .gemanMcClure => mu = 2 * largest / threshold ∧ (0 < mu ↔ 0 < largest)) ∧
      (∀ order : List Nat, order.Perm (List.range graph.size) → (o.rearrange order).initialMu = o.initialMu) ∧
      ∀ (clock : Nat → Clock) (mu : Extended), .allInside mu ∈ (o.optimize clock).events →
        ∀ e ∈ errors, match config.family with
          | .truncatedLeastSquares => ∃ x, e = number x ∧ x < threshold
          | .gemanMcClure => e = number 0) := by
  have built := reachable.builtFrom
  obtain ⟨⟨threshold, above, given⟩, -⟩ := Config.validate_extended built.valid
  refine ⟨fun plain => Graph.errors_readings plain evaluated, threshold, above, given, fun readings => ?_⟩
  have size := built.size_eq
  rw [← built.graph_eq] at evaluated
  rw [← built.config_eq] at given ⊢
  have refused := initialMu_degenerate above given evaluated readings
  have begun := initialMu_regular above given evaluated
  refine ⟨⟨?_, fun degenerate => ⟨_, _, _, refused degenerate⟩⟩, refused, fun regular => ?_, fun order permutes => ?_,
    fun clock mu ended e member => exits_inside above given evaluated readings ended member⟩
  · rintro ⟨mu, largest, bound, failed⟩
    by_contra regular
    obtain ⟨xs, -, found⟩ := begun regular
    rw [failed] at found
    cases found
  · obtain ⟨xs, rfl, found⟩ := begun regular
    have present : {x | number x ∈ xs.map number} = {x | x ∈ xs} := by
      ext x
      simp
    refine ⟨largestError xs, _, present ▸ largestError_isGreatest xs, found, ?_⟩
    have two : (2.0 : ℝ) = 2 := by norm_num
    cases o.config.family with
    | truncatedLeastSquares =>
        exact ⟨by rw [Family.initialMu, two], Family.initialMu_truncated_pos_iff above⟩
    | gemanMcClure => exact ⟨by rw [Family.initialMu, two], Family.initialMu_gemanMcClure_pos_iff above⟩
  · exact initialMu_moved evaluated readings (size.symm ▸ permutes)

section Measurements

/-- The error of a measured value at the origin. -/
noncomputable def misfit (measured : Extended) : Extended := number 0.5 * Vec.normSq [number 0 - measured]

@[simp]
theorem misfit_number (x : ℝ) : misfit (number x) = number (x ^ 2 / 2) := by
  have same : Vec.normSq [number 0 - number x] = number (Vec.normSq [0 - x]) := by
    rw [number_sub, ← normSq_numbers [0 - x]]
    rfl
  rw [misfit, same, number_mul]
  congr 1
  simp [Vec.normSq, Vec.sum, Scalar.square]
  ring

@[simp]
theorem misfit_infinite (negative : Bool) : misfit (infinite negative) = infinite false := by
  have half : number 0.5 * infinite false = infinite false := by
    show Extended.mul _ _ = _
    norm_num [Extended.mul]
  cases negative <;> exact half

@[simp]
theorem misfit_undefined : misfit notANumber = notANumber := rfl

variable (family : Family) (a b c : Extended)

/-- Three measured values of one variable. -/
noncomputable def measuredGraph : Graph Extended where
  factors := [⟨["x"], ⟨0, .prior [a]⟩, .unit 1⟩, ⟨["x"], ⟨1, .prior [b]⟩, .unit 1⟩, ⟨["x"], ⟨2, .prior [c]⟩, .unit 1⟩]

theorem measuredGraph_errors :
    (measuredGraph a b c).factorErrors (guardedValues 0) = .ok [misfit a, misfit b, misfit c] := by
  simp [Graph.factorErrors, measuredGraph, guardedValues, GraphFactor.error, GraphFactor.residual, GraphFactor.params,
    Values.find, Values.get?, Factor.prior, Factor.ofParts, Vec.sub?, Vec.zip?, GraphFactor.checkResidual, Noise.dim,
    Result.ofShape, Noise.error?, Noise.whiten?, number_ofScientific, misfit]

noncomputable def measured : Optimizer Extended where
  graph := measuredGraph a b c
  estimate := guardedValues 0
  config := { Config.ofBase (.levenbergMarquardt guardedBase) with family := family }
  weights := [1, 1, 1]
  known := [false, false, false]

theorem measured_created :
    create (measuredGraph a b c) (guardedValues 0) (measured family a b c).config = .ok (measured family a b c) := by
  have valid : (measured family a b c).config.validate = .ok () := by
    simp [Config.validate, measured, Config.ofBase, Scalar.positive, Scalar.nonNegative, number_zero, number_one,
      number_ofScientific]
    norm_num
  have inside : (checkKnown (measuredGraph a b c).size (measured family a b c).config.knownInliers :
      Result Extended Unit) = .ok () := rfl
  rw [create, valid, Result.ok_bind, inside]
  rfl

theorem greatest_misfit : IsGreatest (insert 0 {x | number x ∈ [number (1 / 2), number 8, number 2]}) (8 : ℝ) := by
  refine ⟨.inr (by simp), ?_⟩
  rintro x (rfl | member)
  · norm_num
  · have cases : x = 1 / 2 ∨ x = 8 ∨ x = 2 := by simpa using member
    rcases cases with rfl | rfl | rfl <;> norm_num

/-- All errors are below half the threshold. -/
noncomputable def calm : Optimizer Extended :=
  measured .truncatedLeastSquares (number 0.5) (number 0.25) (number 0)

theorem calm_errors : calm.graph.factorErrors calm.estimate = .ok ([1 / 8, 1 / 32, 0].map number) := by
  refine (measuredGraph_errors (number 0.5) (number 0.25) (number 0)).trans ?_
  norm_num

theorem calm_cost : calm.graph.error calm.estimate = .ok (number (5 / 32)) := by
  rw [Graph.error, calm_errors]
  simp [number_zero]
  norm_num

theorem calm_initialMu : calm.initialMu = .ok (number (-4 / 3)) := by
  have largest : largestError ([1 / 8, 1 / 32, 0] : List ℝ) = 1 / 8 := by
    norm_num [largestError]
  have regular : ¬Family.truncatedLeastSquares.Degenerate ([1 / 8, 1 / 32, 0].map number) (number 1) := by
    rw [Family.Degenerate, largestError_numbers, largest]
    norm_num [Family.AtPole, number_ofScientific]
  have first : Family.truncatedLeastSquares.initialMu (1 / 8 : ℝ) 1 = -4 / 3 := by
    norm_num [Family.initialMu]
  obtain ⟨xs, same, found⟩ := initialMu_regular one_pos rfl calm_errors regular
  obtain rfl := (List.map_injective_iff.mpr fun _ _ => Extended.number.inj) same
  rw [found, largest]
  exact congrArg (Except.ok <| number ·) first

theorem calm_ends (clock : Nat → Clock) : .allInside (number (-4 / 3)) ∈ (calm.optimize clock).events := by
  have inside : Scalar.le (number (-4 / 3)) 0 = true := by
    rw [number_zero, number_le, decide_eq_true_eq]
    norm_num
  rw [optimize_started _ calm_initialMu calm_cost, if_neg (by decide), if_pos inside]
  exact List.mem_append_left _ (by simp)

/-- Errors of a half, eight and two have sixteen for their first control parameter in any order, if the losses are those
of Geman and McClure; there is none if an error is infinite and another one is not a number; and a run under truncated
losses whose errors are all below half the threshold ends at once. -/
theorem measured_classified :
    ((measured .gemanMcClure (number 1) (number 4) (number 2)).rearrange [2, 0, 1]).initialMu = .ok (number 16) ∧
      (∃ mu largest bound, ((measured .gemanMcClure (number 1) (infinite false) notANumber).rearrange [2, 0, 1]).initialMu =
        .failContinuation (.degenerateMu mu largest bound)) ∧
      .allInside (number (-4 / 3)) ∈ (calm.optimize fun _ _ => 0).events ∧
      ∀ e ∈ [1 / 8, 1 / 32, 0].map number, ∃ x, e = number x ∧ x < 1 := by
  have permutes : [2, 0, 1].Perm (List.range 3) := by decide
  refine ⟨?regular, ?degenerate, ?inside⟩
  case regular =>
    have errors : [misfit (number 1), misfit (number 4), misfit (number 2)] = [number (1 / 2), number 8, number 2] := by
      norm_num
    obtain ⟨plain, threshold, -, given, classified⟩ := initialMu_classified
      (.created (measured_created .gemanMcClure (number 1) (number 4) (number 2))) (measuredGraph_errors _ _ _)
    obtain ⟨-, -, begun, moved, -⟩ := classified (plain rfl)
    have regular : ¬Family.gemanMcClure.Degenerate [number (1 / 2), number 8, number 2] (number 1) := by
      simp [Family.Degenerate, Family.AtPole]
    rw [errors] at begun
    obtain ⟨largest, mu, greatest, found, formula, -⟩ := begun regular
    obtain rfl := greatest.unique greatest_misfit
    obtain rfl : 1 = threshold := Extended.number.inj given
    rw [moved [2, 0, 1] permutes, found, formula]
    norm_num
  case degenerate =>
    obtain ⟨plain, threshold, -, given, classified⟩ := initialMu_classified
      (.created (measured_created .gemanMcClure (number 1) (infinite false) notANumber)) (measuredGraph_errors _ _ _)
    obtain ⟨degenerate, -, -, moved, -⟩ := classified (plain rfl)
    rw [moved [2, 0, 1] permutes, degenerate]
    exact .inl ⟨_, List.mem_cons_of_mem _ (List.mem_cons_of_mem _ List.mem_cons_self), rfl⟩
  case inside =>
    obtain ⟨plain, threshold, -, given, classified⟩ := initialMu_classified
      (.created (measured_created .truncatedLeastSquares (number 0.5) (number 0.25) (number 0))) calm_errors
    obtain ⟨-, -, -, -, inside⟩ := classified (plain rfl)
    obtain rfl : 1 = threshold := Extended.number.inj given
    exact ⟨calm_ends _, inside (fun _ _ => 0) _ (calm_ends _)⟩

end Measurements

end Optimizer

end Continuation

end GraduatedFit
