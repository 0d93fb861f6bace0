import GraduatedFit.Proofs.CovarianceModels
import GraduatedFit.Proofs.AffineFactors
import GraduatedFit.Proofs.RobustWrapping

/-! Models of one covariance, however it is written down: they whiten alike, and go on doing so whatever is done to all of
them. -/

namespace GraduatedFit

open Matrix

/-- What is done to a model. -/
inductive Change
  | reweight (weight : ℝ) (positive : 0 < weight)
  | wrap (loss : Shared (Loss ℝ))
  | unwrap

/-- A deviation that all components have, independently of each other, and a loss on top of it. -/
structure Spread where
  sigma : ℝ
  positive : 0 < sigma
  loss? : Option (Shared (Loss ℝ))

namespace Spread

/-- A loss has to be taken off before the spread gets a weight or another loss. -/
noncomputable def change? (spread : Spread) : Change → Option Spread
  | .reweight weight positive =>
    match spread.loss? with
    | none => some ⟨spread.sigma / √weight, div_pos spread.positive (Real.sqrt_pos.mpr positive), none⟩
    | some _ => none
  | .wrap loss =>
    match spread.loss? with
    | none => some { spread with loss? := some loss }
    | some _ => none
  | .unwrap => some { spread with loss? := none }

end Spread

namespace Noise

/-- The model that a change makes, if the model admits it. -/
noncomputable def change? (model : Noise ℝ) : Change → Option (Noise ℝ)
  | .reweight weight _ => model.scaledByWeight? weight
  | .wrap loss => (ofLoss loss model).toOption
  | .unwrap => some model.withoutRobustLoss

/-- The model after changes, one after the other. A change that fails leaves it as it is. -/
noncomputable def after (model : Noise ℝ) (changes : List Change) : Noise ℝ :=
  changes.foldl (fun model change => (model.change? change).getD model) model

end Noise

/-- The spread after the same changes. -/
noncomputable def Spread.after (spread : Spread) (changes : List Change) : Spread :=
  changes.foldl (fun spread change => (spread.change? change).getD spread) spread

namespace Noise

/-- The models without a loss under which all components have one deviation. -/
inductive Even (n : Nat) : ℝ → Noise ℝ → Prop
  | isotropic (sigma : ℝ) : Even n sigma (isotropic n sigma)
  | diagonal (sigma : ℝ) : Even n sigma (diagonal (List.replicate n sigma))
  | gaussian (sigma : ℝ) : Even n sigma (gaussian ((Mat.identity n).map (· / sigma)))
  | unit : Even n 1 (unit n)

/-- The models of a spread. -/
inductive Models (n : Nat) (spread : Spread) : Noise ℝ → Prop
  | plain {model : Noise ℝ} (bare : spread.loss? = none) (even : Even n spread.sigma model) : Models n spread model
  | robust {model : Noise ℝ} {loss : Shared (Loss ℝ)} (wrapped : spread.loss? = some loss)
      (even : Even n spread.sigma model) : Models n spread (robust loss model)

section Changes

variable {n : Nat} {sigma : ℝ} {model : Noise ℝ}

theorem Even.plain (even : Even n sigma model) : model.isRobust = false := by
  cases even <;> rfl

theorem Even.loss_eq (even : Even n sigma model) : model.loss? = none := by
  cases even <;> rfl

/-- Under a weight the deviation is divided by the root of the weight. -/
theorem Even.scaled (even : Even n sigma model) (weight : ℝ) :
    ∃ scaled, model.scaledByWeight? weight = some scaled ∧ Even n (sigma / √weight) scaled := by
  cases even with
  | isotropic => exact ⟨_, rfl, .isotropic _⟩
  | diagonal =>
      refine ⟨_, rfl, ?_⟩
      rw [List.map_replicate]
      exact .diagonal _
  | gaussian =>
      have entries : ((Mat.identity n).map (· / sigma)).scale √weight = (Mat.identity n).map (· / (sigma / √weight)) := by
        refine Mat.eq_of_rows rfl ?_
        simp only [Mat.scale, Mat.map, List.map_map]
        refine List.map_congr_left fun row _ => ?_
        rw [Function.comp_apply, List.map_map]
        refine List.map_congr_left fun x _ => ?_
        rw [Function.comp_apply, div_scaled, mul_comm]
      exact ⟨_, rfl, entries ▸ .gaussian _⟩
  | unit => exact ⟨_, rfl, .isotropic _⟩

/-- What a change does to a spread it does to all its models. -/
theorem Models.change {spread : Spread} (models : Models n spread model) (change : Change) :
    Option.Rel (Models n) (spread.change? change) (model.change? change) := by
  obtain ⟨sigma, positive, loss?⟩ := spread
  cases models with
  | plain bare even =>
      obtain rfl : loss? = none := bare
      cases change with
      | reweight weight admitted =>
          obtain ⟨scaled, found, even'⟩ := even.scaled weight
          rw [Noise.change?, found]
          exact .some (.plain rfl even')
      | wrap loss =>
          rw [Noise.change?, ofLoss_ok_iff.mpr ⟨even.plain, rfl⟩]
          exact .some (.robust rfl even)
      | unwrap =>
          rw [Noise.change?, withoutRobustLoss_plain even.plain]
          exact .some (.plain rfl even)
  | @robust model loss wrapped even =>
      obtain rfl : loss? = some loss := wrapped
      cases change with
      | reweight weight admitted => exact .none
      | wrap loss' => exact .none
      | unwrap => exact .some (.plain rfl even)

section Related

variable {α β : Type} {R : α → β → Prop} {x : Option α} {y : Option β}

theorem rel_getD (related : Option.Rel R x y) {a : α} {b : β} (otherwise : R a b) : R (x.getD a) (y.getD b) := by
  cases related with
  | none => exact otherwise
  | some related => exact related

theorem isSome_rel (related : Option.Rel R x y) : x.isSome = y.isSome := by
  cases related with
  | none => rfl
  | some related => rfl

end Related

/-- The same after any changes. -/
theorem Models.after {spread : Spread} (models : Models n spread model) (changes : List Change) :
    Models n (spread.after changes) (model.after changes) := by
  induction changes generalizing spread model with
  | nil => exact models
  | cons change changes ih => exact ih (rel_getD (models.change change) models)

end Changes

section Observers

variable {n : Nat} {sigma : ℝ} {model : Noise ℝ}

theorem toMatrix_quotient {A : Mat ℝ} {m : Nat} (sigma : ℝ) (height : A.height = m) (width : A.width = n) :
    (A.map (· / sigma)).toMatrix m n = sigma⁻¹ • A.toMatrix m n := by
  ext i j
  rw [Mat.toMatrix_apply, Mat.get_map _ (i.isLt.trans_eq height.symm) (j.isLt.trans_eq width.symm), div_eq_inv_mul]
  rfl

/-- Equal deviations in the form of a matrix. -/
theorem even_shape (n : Nat) (sigma : ℝ) :
    let R := (Mat.identity n).map (· / sigma)
    R.height = n ∧ R.width = n ∧ R.toMatrix n n = sigma⁻¹ • 1 := by
  refine ⟨(Mat.height_map _ _).trans (Mat.height_identity n), rfl, ?_⟩
  rw [toMatrix_quotient (n := n) sigma (Mat.height_identity n) rfl, Mat.toMatrix_identity]

theorem even_factor (n : Nat) (positive : 0 < sigma) :
    LowerFactor (sigma ^ 2 • (1 : Matrix (Fin n) (Fin n) ℝ)) (sigma • 1) where
  lower i j upper := by
    have above : i < j := upper
    simp [above.ne]
  positive i := by simpa using positive
  product := by
    rw [transpose_smul, transpose_one, smul_mul_smul_comm, one_mul, sq]

theorem even_inverse (n : Nat) (positive : 0 < sigma) :
    (sigma • (1 : Matrix (Fin n) (Fin n) ℝ))⁻¹ = sigma⁻¹ • 1 := by
  refine inv_eq_right_inv ?_
  rw [smul_mul_smul_comm, mul_inv_cancel₀ positive.ne', one_mul, one_smul]

theorem Even.dim_eq (even : Even n sigma model) : model.dim = n := by
  cases even with
  | isotropic => rfl
  | diagonal => exact List.length_replicate
  | gaussian => exact (even_shape n sigma).1
  | unit => rfl

theorem Even.square (even : Even n sigma model) : model.Square := by
  cases even with
  | gaussian => exact (even_shape n sigma).2.1.trans (even_shape n sigma).1.symm
  | isotropic => trivial
  | diagonal => trivial
  | unit => trivial

theorem Even.whiten (even : Even n sigma model) {r : Vec ℝ} (length : r.length = n) :
    model.whiten? r = some (r.map (· / sigma)) := by
  cases even with
  | isotropic => rfl
  | diagonal =>
      have fits : r.length = (List.replicate n sigma).length := by simp [length]
      rw [whiten?, Vec.div?, Vec.zip?, if_pos fits]
      refine congrArg some (List.ext_getElem (by simp [length]) fun i inside inside' => ?_)
      simp
  | gaussian =>
      obtain ⟨height, width, entries⟩ := even_shape n sigma
      rw [whiten?, Mat.mulVec?_eq_apply (length.trans width.symm)]
      refine congrArg some (Vec.ext_components ((Mat.length_apply _ r).trans height) ((List.length_map _).trans length) ?_)
      rw [Mat.components_apply height width length, entries, smul_mulVec, one_mulVec, ← Vec.components_scale, Vec.scale]
      simp only [div_eq_mul_inv]
  | unit => simp [whiten?]

theorem Even.whitenJacobian (even : Even n sigma model) {J : Mat ℝ} (height : J.height = n) :
    model.whitenJacobian? J = some (J.map (· / sigma)) := by
  cases even with
  | isotropic => rfl
  | diagonal =>
      have rows : J.rows.length = n := height
      rw [whitenJacobian?, if_pos (by simp [height])]
      refine congrArg some (Mat.eq_of_rows rfl (List.ext_getElem (by simp [Mat.mapRows, Mat.map]) fun i inside inside' => ?_))
      have bound : i < n := by simpa [Mat.map, rows] using inside'
      simp only [Mat.mapRows, Mat.map, List.getElem_mapIdx, List.getElem_map, List.getElem?_replicate, if_pos bound,
        Option.elim_some, mul_one_div]
  | gaussian =>
      obtain ⟨tall, wide, entries⟩ := even_shape n sigma
      obtain ⟨C, product, rows, columns, -⟩ := Mat.mul?_exists (wide.trans height.symm)
      have same := (Mat.toMatrix_mul ⟨tall, wide⟩ ⟨height, rfl⟩ product).2.2
      rw [whitenJacobian?, product]
      refine congrArg some (Mat.ext_toMatrix ⟨rows.trans tall, (Mat.height_map _ J).trans height⟩ ⟨columns, rfl⟩ ?_)
      rw [same, entries, toMatrix_quotient sigma height rfl, smul_mul, Matrix.one_mul]
  | unit =>
      refine congrArg some (Mat.eq_of_rows rfl ?_)
      simp [Mat.map]

theorem Even.sigmas (even : Even n sigma model) (positive : 0 < sigma) :
    model.sigmas? = some (List.replicate n sigma) := by
  cases even with
  | isotropic => rfl
  | diagonal => rfl
  | gaussian =>
      obtain ⟨height, width, entries⟩ := even_shape n sigma
      have roots (i : Fin n) : √((sigma ^ 2 • (1 : Matrix (Fin n) (Fin n) ℝ)) i i) = sigma := by
        simp [Real.sqrt_sq positive.le]
      rw [sigmas_of_factor height width (even_factor n positive) (entries.trans (even_inverse n positive).symm)
        (fun _ => sigma) roots]
      simp
  | unit => rfl

end Observers

/-- Two models of `n` components that no observation tells apart. -/
structure Interchangeable (n : Nat) (a b : Noise ℝ) : Prop where
  dim : a.dim = n ∧ b.dim = n
  whiten : ∀ r : Vec ℝ, r.length = n → ∃ w, a.whiten? r = some w ∧ b.whiten? r = some w
  whitenJacobian : ∀ J : Mat ℝ, J.height = n → ∃ W, a.whitenJacobian? J = some W ∧ b.whitenJacobian? J = some W
  whitenSystem : ∀ (r : Vec ℝ) (J : Option (Mat ℝ)), r.length = n → (∀ A, J = some A → A.height = n) →
    ∃ system, a.whitenSystem? r J = some system ∧ b.whitenSystem? r J = some system
  error : ∀ r : Vec ℝ, r.length = n → ∃ e, a.error? r = some e ∧ b.error? r = some e
  sigmas : ∃ s, a.sigmas? = some s ∧ b.sigmas? = some s

section Spreads

variable {n : Nat} {spread : Spread} {model : Noise ℝ}

/-- A model of a spread, seen through everything that is asked of it. -/
structure Shows (n : Nat) (spread : Spread) (model : Noise ℝ) : Prop where
  dim : model.dim = n
  square : model.Square
  loss : model.loss? = spread.loss?
  whiten : ∀ r : Vec ℝ, r.length = n → model.whiten? r = some (r.map (· / spread.sigma))
  whitenJacobian : ∀ J : Mat ℝ, J.height = n → model.whitenJacobian? J = some (J.map (· / spread.sigma))
  sigmas : model.sigmas? = some (List.replicate n spread.sigma)

theorem Models.shows (models : Models n spread model) : Shows n spread model := by
  cases models with
  | plain bare even =>
      exact ⟨even.dim_eq, even.square, even.loss_eq.trans bare.symm, fun r => even.whiten, fun J => even.whitenJacobian,
        even.sigmas spread.positive⟩
  | robust wrapped even =>
      exact ⟨even.dim_eq, even.square, wrapped.symm, fun r => even.whiten, fun J => even.whitenJacobian,
        even.sigmas spread.positive⟩

/-- The system of a model, from how it whitens and from its loss. -/
theorem whitenSystem_eq (model : Noise ℝ) (r : Vec ℝ) (J : Option (Mat ℝ)) : model.whitenSystem? r J = (do
    let whitened ← model.whiten? r
    let whitenedJacobian ← J.mapM model.whitenJacobian?
    match model.loss? with
    | some loss =>
      let correction := Correction.ofLoss loss.value (Vec.normSq whitened)
      return (correction.residual whitened, ← whitenedJacobian.mapM (correction.jacobian? whitened))
    | none => return (whitened, whitenedJacobian)) := by
  cases model <;> rfl

theorem error_eq (model : Noise ℝ) (r : Vec ℝ) : model.error? r = (do
    let sqNorm := Vec.normSq (← model.whiten? r)
    match model.loss? with
    | some loss => return 0.5 * (loss.value.jet sqNorm).value
    | none => return 0.5 * sqNorm) := by
  cases model <;> rfl

theorem Shows.system_exists (shows : Shows n spread model) {r : Vec ℝ} (length : r.length = n) {J : Option (Mat ℝ)}
    (height : ∀ A, J = some A → A.height = n) : ∃ system, model.whitenSystem? r J = some system := by
  have fits := length.trans shows.dim.symm
  cases J with
  | some A => exact whitenSystem_exists shows.square fits ((height A rfl).trans shows.dim.symm)
  | none =>
      obtain ⟨⟨s, C⟩, found⟩ := whitenSystem_exists shows.square fits (Mat.height_identity model.dim)
      exact ⟨_, whitenSystem_none found⟩

/-- Models that show one spread cannot be told apart. -/
theorem Shows.interchangeable {a b : Noise ℝ} (left : Shows n spread a) (right : Shows n spread b) :
    Interchangeable n a b where
  dim := ⟨left.dim, right.dim⟩
  whiten r length := ⟨_, left.whiten r length, right.whiten r length⟩
  whitenJacobian J height := ⟨_, left.whitenJacobian J height, right.whitenJacobian J height⟩
  sigmas := ⟨_, left.sigmas, right.sigmas⟩
  error r length := by
    have same : a.error? r = b.error? r := by
      rw [error_eq, error_eq, left.whiten r length, right.whiten r length, left.loss, right.loss]
    obtain ⟨e, found⟩ : ∃ e, a.error? r = some e := by
      rw [error_eq, left.whiten r length]
      cases a.loss? <;> exact ⟨_, rfl⟩
    exact ⟨e, found, same ▸ found⟩
  whitenSystem r J length height := by
    have whiten := (left.whiten r length).trans (right.whiten r length).symm
    have jacobian : J.mapM a.whitenJacobian? = J.mapM b.whitenJacobian? := by
      cases J with
      | none => rfl
      | some A => simp only [Option.mapM_some, left.whitenJacobian A (height A rfl), right.whitenJacobian A (height A rfl)]
    have same : a.whitenSystem? r J = b.whitenSystem? r J := by
      rw [whitenSystem_eq, whitenSystem_eq, whiten, jacobian, left.loss, right.loss]
    obtain ⟨system, found⟩ := left.system_exists length height
    exact ⟨system, found, same ▸ found⟩

end Spreads

section Linearity

variable {model : Noise ℝ}

/-- A model of consistent shape whitens with the matrix of its coefficients. -/
theorem whiten_coefficients (square : model.Square) {r : Vec ℝ} (length : r.length = model.dim) :
    model.whiten? r = some ((Mat.ofFn model.dim model.dim model.coefficient).apply r) := by
  obtain ⟨w, found⟩ := whiten_exists square length
  have size := length_whiten length found
  have tall := Mat.height_ofFn model.dim model.dim model.coefficient
  rw [found]
  refine congrArg some (Vec.ext_getD (size.trans ((Mat.length_apply _ r).trans tall).symm) fun i inside => ?_)
  have bound := inside.trans_eq size
  rw [whiten_getD length found bound, Mat.ofFn_apply_getD _ length bound]

theorem whitenJacobian_coefficients (square : model.Square) {J : Mat ℝ} (height : J.height = model.dim) :
    model.whitenJacobian? J = (Mat.ofFn model.dim model.dim model.coefficient).mul? J := by
  set W := Mat.ofFn model.dim model.dim model.coefficient with coefficients
  have tall : W.height = model.dim := Mat.height_ofFn _ _ _
  have wide : W.width = model.dim := rfl
  obtain ⟨B, found⟩ := whitenJacobian_exists square height
  obtain ⟨rows, columns⟩ := shape_whitenJacobian height found
  obtain ⟨C, product, -⟩ := Mat.mul?_exists (wide.trans height.symm)
  obtain ⟨rows', columns', entries⟩ := Mat.toMatrix_mul ⟨tall, wide⟩ ⟨height, rfl⟩ product
  rw [found, product]
  refine congrArg some (Mat.ext_toMatrix ⟨rows, rows'⟩ ⟨columns, columns'⟩ ?_)
  -- both have the same image of every direction
  refine Matrix.ext_iff_mulVec.mpr fun x => ?_
  obtain ⟨v, length, rfl⟩ := Vec.components_surjective x
  have image : (J.apply v).length = model.dim := (Mat.length_apply J v).trans height
  have same : B.apply v = W.apply (J.apply v) :=
    Option.some.inj ((whiten_apply height length found).symm.trans (whiten_coefficients square image))
  rw [← Mat.components_apply rows columns length, same, Mat.components_apply tall wide image,
    Mat.components_apply height rfl length, mulVec_mulVec, entries]

/-- A matrix that a model whitens residuals and Jacobians with. It is square if the shape of the model is consistent. -/
structure WhitensWith (model : Noise ℝ) (W : Mat ℝ) : Prop where
  height : W.height = model.dim
  width : model.Square → W.width = model.dim
  residual : ∀ r : Vec ℝ, r.length = model.dim → model.whiten? r = W.mulVec? r
  jacobian : ∀ J : Mat ℝ, J.height = model.dim → model.whitenJacobian? J = W.mul? J

theorem whitensWith_coefficients (square : model.Square) :
    model.WhitensWith (Mat.ofFn model.dim model.dim model.coefficient) where
  height := Mat.height_ofFn _ _ _
  width _ := rfl
  residual _ length := (whiten_coefficients square length).trans (Mat.mulVec?_eq_apply length).symm
  jacobian _ height := whitenJacobian_coefficients square height

theorem whitensWith_exists (model : Noise ℝ) : ∃ W, model.WhitensWith W := by
  induction model with
  | gaussian R => exact ⟨R, rfl, id, fun _ _ => rfl, fun _ _ => rfl⟩
  | robust loss base ih =>
      obtain ⟨W, whitens⟩ := ih
      exact ⟨W, whitens.height, whitens.width, whitens.residual, whitens.jacobian⟩
  | diagonal sigmas | isotropic dim sigma | unit dim => exact ⟨_, whitensWith_coefficients trivial⟩

/-- Whitening a Jacobian and applying it is applying it and whitening. -/
theorem whitenJacobian_image (model : Noise ℝ) {J : Mat ℝ} (height : J.height = model.dim) (v : Vec ℝ) :
    (model.whitenJacobian? J).bind (·.mulVec? v) = (J.mulVec? v).bind model.whiten? := by
  by_cases wide : v.length = J.width
  · rw [Mat.mulVec?_eq_apply wide, Option.bind_some]
    rcases found : model.whitenJacobian? J with _ | B
    · obtain ⟨W, whitens⟩ := whitensWith_exists model
      have image := (Mat.length_apply J v).trans height
      have misfit : W.width ≠ J.height := by
        intro fits
        obtain ⟨C, product, -⟩ := Mat.mul?_exists fits
        rw [whitens.jacobian J height, product] at found
        cases found
      rw [whitens.residual _ image, Mat.mulVec?, if_neg fun fits => misfit (fits.trans (Mat.length_apply J v))]
      rfl
    · rw [whiten_apply height wide found, Option.bind_some,
        Mat.mulVec?_eq_apply (wide.trans (shape_whitenJacobian height found).2.symm)]
  · have nothing (A : Mat ℝ) (width : A.width = J.width) : A.mulVec? v = none :=
      if_neg fun fits => wide (fits.symm.trans width)
    rw [nothing J rfl, Option.bind_none]
    rcases found : model.whitenJacobian? J with _ | B
    · rfl
    · exact nothing B (shape_whitenJacobian height found).2

end Linearity

section Representations

variable {n : Nat} {sigma : ℝ}

/-- The ways to write down the covariance `sigma² I`. -/
inductive Represents (n : Nat) (sigma : ℝ) : Result ℝ (Noise ℝ) → Prop
  | isotropic : Represents n sigma (ofSigma n sigma)
  | diagonal : Represents n sigma (ofSigmas (List.replicate n sigma))
  | sqrtInformation : Represents n sigma (ofSqrtInformation ((Mat.identity n).map (· / sigma)))
  | covariance : Represents n sigma (ofCovariance ((Mat.identity n).scale (sigma ^ 2)))
  | unit (one : sigma = 1) : Represents n sigma (ofDim n)

/-- The square root that is computed from an even covariance. -/
theorem ofCovariance_even (nonempty : 0 < n) (positive : 0 < sigma) :
    ofCovariance ((Mat.identity n).scale (sigma ^ 2)) = .ok (gaussian ((Mat.identity n).map (· / sigma))) := by
  set covariance : Mat ℝ := (Mat.identity n).scale (sigma ^ 2) with scaled
  have height : covariance.height = n := by simp [scaled]
  have width : covariance.width = n := rfl
  have entries : covariance.toMatrix n n = sigma ^ 2 • 1 := by
    rw [scaled, Mat.toMatrix_scale (n := n) _ (Mat.height_identity n) rfl, Mat.toMatrix_identity]
  have mirrored : covariance.mirrored n = sigma ^ 2 • 1 := by
    rw [Mat.mirrored_eq_iff.mpr, entries]
    rw [entries, IsSymm, transpose_smul, transpose_one]
  have factor := even_factor n positive
  obtain ⟨model, made⟩ := (ofCovariance_exists_iff height width).mpr ⟨nonempty, mirrored ▸ factor.posDef⟩
  obtain ⟨R, L, rfl, height', width', factor', inverse⟩ := ofCovariance_model height width made
  obtain ⟨tall, wide', entries'⟩ := even_shape n sigma
  rw [mirrored] at factor'
  rw [made, Mat.ext_toMatrix ⟨height', tall⟩ ⟨width', wide'⟩]
  rw [inverse, factor'.unique factor, even_inverse n positive, entries']

/-- Each of them succeeds, with a model of that spread. -/
theorem Represents.models (nonempty : 0 < n) (positive : 0 < sigma) {made : Result ℝ (Noise ℝ)}
    (represents : Represents n sigma made) : ∃ model, made = .ok model ∧ Models n ⟨sigma, positive, none⟩ model := by
  cases represents with
  | isotropic => exact ⟨_, by simp [ofSigma, nonempty.ne', positive], .plain rfl (.isotropic _)⟩
  | diagonal =>
      have filled : (List.replicate n sigma).isEmpty = false := by simp [nonempty.ne']
      have good : (List.replicate n sigma).find? (!Scalar.positive ·) = none := by simp [positive]
      refine ⟨_, ?_, .plain rfl (.diagonal _)⟩
      rw [ofSigmas, filled, good]
      rfl
  | sqrtInformation =>
      obtain ⟨height, width, -⟩ := even_shape n sigma
      refine ⟨_, ?_, .plain rfl (.gaussian _)⟩
      rw [ofSqrtInformation_eq height width, if_neg nonempty.ne']
  | covariance => exact ⟨_, ofCovariance_even nonempty positive, .plain rfl (.gaussian _)⟩
  | unit one =>
      subst one
      exact ⟨_, by simp [ofDim, nonempty.ne'], .plain rfl .unit⟩

/-- However a covariance `sigma² I` is written down, its models cannot be told apart, and after any changes made to all of
them they still cannot; a change fails for one of them exactly if it fails for the others. Every model whatever whitens
residuals and Jacobians with one matrix. -/
theorem representations_interchangeable (nonempty : 0 < n) (positive : 0 < sigma) :
    (∀ first second, Represents n sigma first → Represents n sigma second →
      ∃ a b, first = .ok a ∧ second = .ok b ∧ ∀ changes : List Change,
        Interchangeable n (a.after changes) (b.after changes) ∧
        ∀ change, ((a.after changes).change? change).isSome = ((b.after changes).change? change).isSome) ∧
    ∀ model : Noise ℝ,
      (∃ W : Mat ℝ, W.height = model.dim ∧ (model.Made → W.width = model.dim) ∧
        (∀ r : Vec ℝ, r.length = model.dim → model.whiten? r = W.mulVec? r) ∧
        ∀ J : Mat ℝ, J.height = model.dim → model.whitenJacobian? J = W.mul? J) ∧
      ∀ (J : Mat ℝ) (v : Vec ℝ), J.height = model.dim →
        (model.whitenJacobian? J).bind (·.mulVec? v) = (J.mulVec? v).bind model.whiten? := by
  refine ⟨fun first second left right => ?_, fun model => ⟨?_, fun J v height => whitenJacobian_image model height v⟩⟩
  · obtain ⟨a, rfl, models⟩ := left.models nonempty positive
    obtain ⟨b, rfl, models'⟩ := right.models nonempty positive
    refine ⟨a, b, rfl, rfl, fun changes => ?_⟩
    have before := models.after changes
    have before' := models'.after changes
    refine ⟨before.shows.interchangeable before'.shows, fun change => ?_⟩
    rw [← isSome_rel (before.change change), ← isSome_rel (before'.change change)]
  · obtain ⟨W, whitens⟩ := whitensWith_exists model
    exact ⟨W, whitens.height, fun made => whitens.width made.sound.square, whitens.residual, whitens.jacobian⟩

/-- The models of deviation two for five components, one computed from the covariance. -/
theorem doubled_interchangeable : ((0 : Nat) < 5 ∧ (0 : ℝ) < 2) ∧
    ∃ a b, ofSigma 5 2 = .ok a ∧ ofCovariance ((Mat.identity 5).scale (2 ^ 2)) = .ok b ∧ ∀ changes : List Change,
      Interchangeable 5 (a.after changes) (b.after changes) := by
  have nonempty : (0 : Nat) < 5 := by decide
  have positive : (0 : ℝ) < 2 := two_pos
  obtain ⟨a, b, first, second, alike⟩ :=
    (representations_interchangeable nonempty positive).1 _ _ .isotropic .covariance
  exact ⟨⟨nonempty, positive⟩, a, b, first, second, fun changes => (alike changes).1⟩

end Representations

end Noise

end GraduatedFit
