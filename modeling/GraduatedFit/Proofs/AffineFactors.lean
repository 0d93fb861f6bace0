import GraduatedFit.Proofs.DenseAssembly
import GraduatedFit.Proofs.WhitenedDerivative
import GraduatedFit.Factor.Benchmark

/-! Factors with affine residuals: where the variables of a slot are moved its whitened residual moves by the image of the
displacement under its whitened Jacobian, and the Jacobian stays what it is. -/

namespace GraduatedFit

namespace Vec

theorem ext_getD {a b : Vec ℝ} (length : a.length = b.length) (same : ∀ i < a.length, a.getD i 0 = b.getD i 0) :
    a = b := by
  refine List.ext_getElem length fun i left right => ?_
  have entry := same i left
  rwa [List.getD_eq_getElem _ _ left, List.getD_eq_getElem _ _ right] at entry

theorem getD_zipWith_add {a b : Vec ℝ} (same : a.length = b.length) (i : Nat) :
    (List.zipWith (· + ·) a b).getD i 0 = a.getD i 0 + b.getD i 0 := by
  simp only [List.getD_eq_getElem?_getD, List.getElem?_zipWith]
  by_cases inside : i < a.length
  · simp [inside, same ▸ inside]
  · simp [List.getElem?_eq_none (not_lt.mp inside), List.getElem?_eq_none (same ▸ not_lt.mp inside)]

/-- Vectors moved by vectors of their sizes keep their sizes. -/
theorem sizes_zipWith_add {xs ys : List (Vec ℝ)} (sizes : ys.map List.length = xs.map List.length) :
    (List.zipWith (List.zipWith (· + ·)) xs ys).map List.length = xs.map List.length := by
  induction xs generalizing ys with
  | nil => rfl
  | cons x xs ih =>
      cases ys with
      | nil => cases sizes
      | cons y ys =>
          obtain ⟨size, rest⟩ := List.cons.inj sizes
          rw [List.zipWith_cons_cons, List.map_cons, List.map_cons, ih rest, List.length_zipWith, size, min_self]

theorem zipWith_add_right_comm (a b c : Vec ℝ) : List.zipWith (· + ·) (List.zipWith (· + ·) a b) c =
    List.zipWith (· + ·) (List.zipWith (· + ·) a c) b := by
  refine List.ext_getElem (by simp only [List.length_zipWith]; omega) fun i _ _ => ?_
  simp only [List.getElem_zipWith, add_right_comm]

/-- Blocks added one by one are the stacked vectors added. -/
theorem flatten_zipWith_add {xs ys : List (Vec ℝ)} (sizes : ys.map List.length = xs.map List.length) :
    (List.zipWith (List.zipWith (· + ·)) xs ys).flatten = List.zipWith (· + ·) xs.flatten ys.flatten := by
  induction xs generalizing ys with
  | nil => rfl
  | cons x xs ih =>
      cases ys with
      | nil => cases sizes
      | cons y ys =>
          obtain ⟨size, rest⟩ := List.cons.inj sizes
          rw [List.zipWith_cons_cons, List.flatten_cons, List.flatten_cons, List.flatten_cons, ih rest,
            List.zipWith_append size.symm]

end Vec

namespace Mat

/-- An image is additive. -/
theorem apply_add (A : Mat ℝ) {x d : Vec ℝ} (left : x.length = A.width) (right : d.length = A.width) :
    A.apply (List.zipWith (· + ·) x d) = List.zipWith (· + ·) (A.apply x) (A.apply d) := by
  have same : x.length = d.length := left.trans right.symm
  have sum : (List.zipWith (· + ·) x d).length = A.width := by rw [List.length_zipWith, left, right, min_self]
  have images : (A.apply x).length = (A.apply d).length := (length_apply A x).trans (length_apply A d).symm
  refine Vec.ext_getD (by simp [apply]) fun i inside => ?_
  have row := length_row (inside.trans_eq (length_apply A _))
  rw [Vec.getD_zipWith_add images, apply_getD, apply_getD, apply_getD, Vec.dot_eq_range _ _ A.width row sum,
    Vec.dot_eq_range _ _ A.width row left, Vec.dot_eq_range _ _ A.width row right, ← Finset.sum_add_distrib]
  exact Finset.sum_congr rfl fun j _ => by rw [Vec.getD_zipWith_add same, mul_add]

/-- An entry of an image, where the entries of the matrix are given by their places. -/
theorem ofFn_apply_getD {height width : Nat} (entry : Nat → Nat → ℝ) {x : Vec ℝ} (length : x.length = width) {i : Nat}
    (inside : i < height) :
    ((ofFn height width entry).apply x).getD i 0 = ∑ j ∈ Finset.range width, entry i j * x.getD j 0 := by
  have row : ((ofFn height width entry).rows.getD i []) = (List.range width).map (entry i) := by
    simp [ofFn, inside]
  rw [apply_getD, row, Vec.dot_eq_range _ _ width (by simp) length]
  exact Finset.sum_congr rfl fun j member => by simp [Finset.mem_range.mp member]

theorem identity_apply {n : Nat} {x : Vec ℝ} (length : x.length = n) : (identity n).apply x = x := by
  refine Vec.ext_getD (by simp [apply, identity, ofFn, length]) fun i inside => ?_
  have bound : i < n := inside.trans_eq (by simp [apply, identity, ofFn])
  rw [identity, ofFn_apply_getD _ length bound]
  simp [bound]

end Mat

namespace Factor

/-- On variables of these sizes the residual is `A x + b` and the Jacobian is `A`. -/
structure AffineOn (factor : Factor ℝ) (sizes : List Nat) (A : Mat ℝ) (b : Vec ℝ) : Prop where
  width : A.width = sizes.sum
  height : b.length = A.height
  linearize : ∀ params, params.map List.length = sizes →
    factor.linearize? params true = some (List.zipWith (· + ·) (A.apply params.flatten) b, some A)

/-- A factor that is affine on the sizes of all variables for which it has a Jacobian of matching shape. -/
structure Affine (factor : Factor ℝ) : Prop where
  coherent : factor.Coherent
  affineOn : ∀ params r A, factor.linearize? params true = some (r, some A) → A.height = r.length →
    A.width = params.flatten.length → ∃ b, factor.AffineOn (params.map List.length) A b

/-- Variables without components stay so where their sizes do. -/
theorem flatten_eq_nil {rest rest' : List (Vec ℝ)} (sizes : rest'.map List.length = rest.map List.length)
    (none : rest.flatten.length = 0) : rest'.flatten = [] := by
  rw [← List.length_eq_zero_iff, List.length_flatten, sizes, ← List.length_flatten, none]

/-- A difference is the sum with the negated second vector. -/
theorem zipWith_sub_eq_add (a b : Vec ℝ) : List.zipWith (· - ·) a b = List.zipWith (· + ·) a (b.map (- ·)) := by
  simp only [List.zipWith_map_right, sub_eq_add_neg]

theorem prior_affine (data : Vec ℝ) : (prior data).Affine where
  coherent := ofParts_coherent _ _ _ _
  affineOn params r A evaluated height width := by
    simp only [prior, ofParts, bind, Option.bind_eq_some_iff, if_true, pure, Option.some.injEq, Prod.mk.injEq] at evaluated
    obtain ⟨_, ⟨p, first, measured⟩, _, rfl, rfl, rfl⟩ := evaluated
    obtain ⟨rest, rfl⟩ : ∃ rest, params = p :: rest := by
      cases params with
      | nil => cases first
      | cons _ rest => exact ⟨rest, by rw [Option.some.inj first]⟩
    have size : p.length = data.length := by
      by_contra differ
      simp [Vec.sub?, Vec.zip?, differ] at measured
    have none : rest.flatten.length = 0 := by
      have whole : data.length = (p :: rest).flatten.length := width
      rw [List.flatten_cons, List.length_append] at whole
      omega
    refine ⟨data.map (- ·), width.trans List.length_flatten, by simp [Mat.identity, Mat.ofFn, Mat.height], ?_⟩
    intro params' sizes
    obtain ⟨p', rest', rfl⟩ := List.exists_cons_of_length_eq_add_one (by simpa using congrArg List.length sizes)
    obtain ⟨size', sizes'⟩ := List.cons.inj sizes
    have length : p'.length = data.length := size'.trans size
    rw [List.flatten_cons, flatten_eq_nil sizes' none, List.append_nil, Mat.identity_apply length, ← zipWith_sub_eq_add]
    simp [prior, ofParts, Vec.sub?, Vec.zip?, length]

theorem betweenJacobian_apply {n : Nat} {x y : Vec ℝ} (left : x.length = n) (right : y.length = n) :
    (betweenJacobian n).apply (x ++ y) = List.zipWith (· - ·) y x := by
  have wide : (x ++ y).length = 2 * n := by rw [List.length_append]; omega
  refine Vec.ext_getD (by simp [Mat.apply, betweenJacobian, Mat.ofFn, left, right]) fun i inside => ?_
  have bound : i < n := inside.trans_eq (by simp [Mat.apply, betweenJacobian, Mat.ofFn])
  -- the row has two entries, one in each half
  have first : ∀ j ∈ Finset.range n, (if j = i then (-1 : ℝ) else if j = i + n then 1 else 0) * (x ++ y).getD j 0 =
      if j = i then -x.getD j 0 else 0 := by
    intro j member
    have small : j < n := Finset.mem_range.mp member
    rw [List.getD_append _ _ _ _ (small.trans_eq left.symm), if_neg (show ¬j = i + n by omega), ite_mul, zero_mul,
      neg_one_mul]
  have second : ∀ j ∈ Finset.range n,
      (if n + j = i then (-1 : ℝ) else if n + j = i + n then 1 else 0) * (x ++ y).getD (n + j) 0 =
        if j = i then y.getD j 0 else 0 := by
    intro j _
    rw [List.getD_append_right _ _ _ _ (by omega), left, Nat.add_sub_cancel_left, if_neg (show ¬n + j = i by omega),
      ite_mul, zero_mul, one_mul]
    exact if_congr (by omega) rfl rfl
  rw [betweenJacobian, Mat.ofFn_apply_getD _ wide bound, two_mul, Finset.sum_range_add, Finset.sum_congr rfl first,
    Finset.sum_congr rfl second, Finset.sum_ite_eq', Finset.sum_ite_eq', if_pos (Finset.mem_range.mpr bound),
    if_pos (Finset.mem_range.mpr bound)]
  simp [List.getD_eq_getElem?_getD, left, right, bound]
  ring

theorem between_affine {measurement : Vec ℝ} {factor : Factor ℝ} (made : between measurement = .ok factor) :
    factor.Affine := by
  unfold between at made
  split at made
  · cases made
  obtain rfl := Except.ok.inj made
  refine ⟨ofParts_coherent _ _ _ _, fun params r A evaluated height width => ?_⟩
  simp only [ofParts, bind, Option.bind_eq_some_iff, if_true, pure, Option.some.injEq, Prod.mk.injEq] at evaluated
  obtain ⟨_, ⟨q, second, p, first, _, difference, measured⟩, _, rfl, rfl, rfl⟩ := evaluated
  obtain ⟨rest, rfl⟩ : ∃ rest, params = p :: q :: rest := by
    cases params with
    | nil => cases first
    | cons _ tail =>
        cases tail with
        | nil => cases second
        | cons _ rest => exact ⟨rest, by rw [Option.some.inj first, Option.some.inj second]⟩
  have same : q.length = p.length := by
    by_contra differ
    simp [Vec.sub?, Vec.zip?, differ] at difference
  have size : p.length = measurement.length := by
    by_contra differ
    simp only [Vec.sub?, Vec.zip?, if_pos same, Option.some.injEq] at difference
    obtain rfl := difference
    simp [Vec.sub?, Vec.zip?, same, differ] at measured
  have none : rest.flatten.length = 0 := by
    have whole : 2 * measurement.length = (p :: q :: rest).flatten.length := width
    simp only [List.flatten_cons, List.length_append] at whole
    omega
  refine ⟨measurement.map (- ·), width.trans List.length_flatten, by simp [betweenJacobian, Mat.ofFn, Mat.height], ?_⟩
  intro params' sizes
  obtain ⟨p', _, rfl⟩ := List.exists_cons_of_length_eq_add_one (by simpa using congrArg List.length sizes)
  obtain ⟨size', sizes⟩ := List.cons.inj sizes
  obtain ⟨q', rest', rfl⟩ := List.exists_cons_of_length_eq_add_one (by simpa using congrArg List.length sizes)
  obtain ⟨size'', sizes'⟩ := List.cons.inj sizes
  have left : p'.length = measurement.length := size'.trans size
  have right : q'.length = measurement.length := size''.trans (same.trans size)
  rw [List.flatten_cons, List.flatten_cons, flatten_eq_nil sizes' none, List.append_nil, betweenJacobian_apply left right,
    ← zipWith_sub_eq_add]
  simp [ofParts, Vec.sub?, Vec.zip?, left, right]

theorem affine_affine (A : Mat ℝ) (b : Vec ℝ) (arity : Nat) : (affine A b arity).Affine where
  coherent := ofParts_coherent _ _ _ _
  affineOn params r A' evaluated height width := by
    simp only [affine, ofParts, bind, Option.bind_eq_some_iff, if_true, pure, Option.some.injEq, Prod.mk.injEq] at evaluated
    obtain ⟨_, ⟨image, found, measured⟩, _, rfl, rfl, rfl⟩ := evaluated
    have applied (x : Vec ℝ) (length : x.length = A.width) : A.mulVec? (x.take A.width) = some (A.apply x) := by
      rw [List.take_of_length_le length.le]
      exact if_pos length.symm
    have rows : A.height = b.length := by
      obtain rfl := Option.some.inj ((applied _ width.symm).symm.trans found)
      rw [← Mat.length_apply A params.flatten]
      by_contra differ
      simp [Vec.sub?, Vec.zip?, differ] at measured
    refine ⟨b.map (- ·), width.trans List.length_flatten, by simp [rows], ?_⟩
    intro params' sizes
    have length : params'.flatten.length = A.width := by rw [List.length_flatten, sizes, ← List.length_flatten, width]
    have fits : (A.apply params'.flatten).length = b.length := (Mat.length_apply _ _).trans rows
    rw [← zipWith_sub_eq_add]
    simp [affine, ofParts, applied _ length, Vec.sub?, Vec.zip?, fits]

end Factor

/-- Whitening is additive. -/
theorem Noise.whiten_add {model : Noise ℝ} {r s w v : Vec ℝ} (left : r.length = model.dim) (right : s.length = model.dim)
    (first : model.whiten? r = some w) (second : model.whiten? s = some v) :
    model.whiten? (List.zipWith (· + ·) r s) = some (List.zipWith (· + ·) w v) := by
  have same : r.length = s.length := left.trans right.symm
  have length : (List.zipWith (· + ·) r s).length = model.dim := by rw [List.length_zipWith, left, right, min_self]
  have whitened : w.length = v.length := (length_whiten left first).trans (length_whiten right second).symm
  obtain ⟨u, found⟩ := whiten_congr (length.trans left.symm) first
  rw [found]
  refine congrArg some (Vec.ext_getD ?_ fun i inside => ?_)
  · rw [length_whiten length found, List.length_zipWith, length_whiten left first, length_whiten right second, min_self]
  · have bound : i < model.dim := inside.trans_eq (length_whiten length found)
    rw [Vec.getD_zipWith_add whitened, whiten_getD length found bound, whiten_getD left first bound,
      whiten_getD right second bound, ← Finset.sum_add_distrib]
    exact Finset.sum_congr rfl fun k _ => by rw [Vec.getD_zipWith_add same, mul_add]

namespace GraphFactor

variable {f : GraphFactor ℝ} {values values' : Values ℝ} {system : Vec ℝ × Mat ℝ}

/-- Where its variables are moved the system of an affine slot keeps its Jacobian, and its residual moves by the image of
the displacement. -/
theorem HasSystem.moved (hasSystem : f.HasSystem values system) (affine : f.factor.value.Affine)
    (plain : f.noise.isRobust = false) {params directions : List (Vec ℝ)} (known : f.params values = .ok params)
    (sizes : directions.map List.length = params.map List.length)
    (moves : f.params values' = .ok (List.zipWith (List.zipWith (· + ·)) params directions)) :
    f.linearize values' true =
      .ok (List.zipWith (· + ·) system.1 (system.2.apply directions.flatten), some system.2) := by
  obtain ⟨_, r, A, known', evaluated, length, height, width, whitened⟩ := linearize_ok_iff.mp hasSystem.linear
  obtain rfl := Except.ok.inj (known.symm.trans known')
  obtain ⟨b, on⟩ := affine.affineOn params r A evaluated (height.trans length.symm) width
  obtain ⟨_, _, first, second, same⟩ := (Noise.whitenSystem_plain_iff plain).mp whitened
  obtain ⟨rfl, jacobian⟩ := Prod.mk.inj same
  obtain rfl := Option.some.inj jacobian
  have wide : directions.flatten.length = A.width := by
    rw [width, List.length_flatten, List.length_flatten, sizes]
  have start := (Prod.mk.inj (Option.some.inj (evaluated.symm.trans (on.linearize params rfl)))).1
  have base : (A.apply params.flatten).length = b.length := (Mat.length_apply _ _).trans on.height.symm
  have images : (A.apply params.flatten).length = (A.apply directions.flatten).length :=
    (Mat.length_apply _ _).trans (Mat.length_apply _ _).symm
  -- The residual at the moved variables: the image of the sum is the sum of the images.
  have shifted : f.factor.value.linearize? (List.zipWith (List.zipWith (· + ·)) params directions) true =
      some (List.zipWith (· + ·) r (A.apply directions.flatten), some A) := by
    rw [on.linearize _ (Vec.sizes_zipWith_add sizes), Vec.flatten_zipWith_add sizes,
      A.apply_add width.symm wide, start, Vec.zipWith_add_right_comm]
  have image : (A.apply directions.flatten).length = f.noise.dim := (Mat.length_apply _ _).trans height
  have moved : f.noise.whiten? (List.zipWith (· + ·) r (A.apply directions.flatten)) =
      some (List.zipWith (· + ·) system.1 (system.2.apply directions.flatten)) :=
    Noise.whiten_add length image first (Noise.whiten_apply height wide second)
  refine linearize_ok_iff.mpr ⟨_, _, A, moves, shifted, ?_, height, ?_, ?_⟩
  · rw [List.length_zipWith, length, image, min_self]
  · rw [Vec.flatten_zipWith_add sizes, List.length_zipWith, ← width, wide, min_self]
  · exact (Noise.whitenSystem_plain_iff plain).mpr ⟨_, system.2, moved, second, rfl⟩

end GraphFactor

end GraduatedFit
