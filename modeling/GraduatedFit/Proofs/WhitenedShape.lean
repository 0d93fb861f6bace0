import GraduatedFit.Proofs.Results
import GraduatedFit.Proofs.WeightedNoise

/-! The shape of whitened blocks, and the models under which every block of the right shape has one. -/

namespace GraduatedFit

namespace Mat

variable {K : Type}

@[simp]
theorem height_ofFn (height width : Nat) (entry : Nat → Nat → K) : (ofFn height width entry).height = height := by
  simp [ofFn, Mat.height]

@[simp]
theorem height_map (f : K → K) (A : Mat K) : (A.map f).height = A.height := List.length_map _

@[simp]
theorem height_mapRows (f : Nat → K → K) (A : Mat K) : (A.mapRows f).height = A.height := List.length_mapIdx

variable [Scalar K]

@[simp]
theorem height_identity (n : Nat) : (identity n : Mat K).height = n := height_ofFn n n _

@[simp]
theorem height_scale (c : K) (A : Mat K) : (A.scale c).height = A.height := height_map _ A

@[simp]
theorem height_transpose (A : Mat K) : A.transpose.height = A.width := by simp [transpose, Mat.height, columns]

end Mat

namespace Correction

variable {K : Type} [Scalar K]

theorem jacobian_shape {c : Correction K} {r : Vec K} {A B : Mat K} (length : r.length = A.height)
    (found : c.jacobian? r A = some B) : B.height = A.height ∧ B.width = A.width := by
  rw [jacobian?, if_pos length] at found
  split at found
  · obtain rfl := Option.some.inj found
    exact ⟨Mat.height_scale _ A, rfl⟩
  · obtain rfl := Option.some.inj found
    refine ⟨?_, rfl⟩
    change (List.zipWith _ r A.rows).length = A.height
    rw [List.length_zipWith, length]
    exact Nat.min_self _

theorem jacobian_exists (c : Correction K) {r : Vec K} {A : Mat K} (length : r.length = A.height) :
    ∃ B, c.jacobian? r A = some B := by
  rw [jacobian?, if_pos length]
  split
  · exact ⟨_, rfl⟩
  · exact ⟨_, rfl⟩

end Correction

namespace Noise

section Models

variable {K : Type}

/-- The square root of an information is square. -/
def Square : Noise K → Prop
  | gaussian R => R.width = R.height
  | robust _ base => base.Square
  | _ => True

/-- The square root of an information is square, and losses are not nested. -/
def Sound : Noise K → Prop
  | gaussian R => R.width = R.height
  | robust _ base => base.Sound ∧ base.isRobust = false
  | _ => True

theorem Sound.square {model : Noise K} (sound : model.Sound) : model.Square := by
  induction model with
  | robust loss base ih => exact ih sound.1
  | gaussian R | diagonal sigmas | isotropic dim sigma | unit dim => exact sound

theorem ofSqrtInformation_sound {R : Mat K} {model : Noise K} (made : ofSqrtInformation R = .ok model) :
    model.Sound := by
  unfold ofSqrtInformation at made
  split at made
  · cases made
  · rename_i accepted
    obtain rfl := Except.ok.inj made
    have square : R.height = R.width := by
      simp only [Mat.isSquare, Bool.or_eq_true, Bool.not_eq_true', beq_eq_false_iff_ne, not_or, not_not] at accepted
      exact accepted.1
    exact square.symm

theorem withoutRobustLoss_sound {model : Noise K} (sound : model.Sound) : model.withoutRobustLoss.Sound := by
  cases model with
  | robust loss base => exact sound.1
  | gaussian R | diagonal sigmas | isotropic dim sigma | unit dim => exact sound

theorem ofLoss_sound {loss : Shared (Loss K)} {base model : Noise K} (sound : base.Sound)
    (made : ofLoss loss base = .ok model) : model.Sound := by
  unfold ofLoss at made
  split at made
  · cases made
  · rename_i plain
    obtain rfl := Except.ok.inj made
    exact ⟨sound, by simpa using plain⟩

variable [Scalar K]

theorem ofCovariance_sound {covariance : Mat K} {model : Noise K} (made : ofCovariance covariance = .ok model) :
    model.Sound := by
  unfold ofCovariance at made
  split at made
  · cases made
  · split at made
    · cases made
    · split at made
      · cases made
      · exact ofSqrtInformation_sound made

theorem scaledByWeight_sound {weight : K} {base model : Noise K} (sound : base.Sound)
    (made : base.scaledByWeight? weight = some model) : model.Sound := by
  cases base with
  | robust loss base => cases made
  | gaussian R =>
      obtain rfl := Option.some.inj made
      exact Eq.trans sound (List.length_map _).symm
  | diagonal sigmas | isotropic dim sigma | unit dim =>
      obtain rfl := Option.some.inj made
      trivial

/-- The models that the constructors give, and those that graphs make of them. -/
inductive Made : Noise K → Prop
  | ofDim {dim : Nat} {model : Noise K} (made : ofDim dim = .ok model) : Made model
  | ofSigma {dim : Nat} {sigma : K} {model : Noise K} (made : ofSigma dim sigma = .ok model) : Made model
  | ofSigmas {sigmas : Vec K} {model : Noise K} (made : ofSigmas sigmas = .ok model) : Made model
  | ofSqrtInformation {R : Mat K} {model : Noise K} (made : ofSqrtInformation R = .ok model) : Made model
  | ofCovariance {covariance : Mat K} {model : Noise K} (made : ofCovariance covariance = .ok model) : Made model
  | ofLoss {loss : Shared (Loss K)} {base model : Noise K} (given : Made base) (made : ofLoss loss base = .ok model) :
      Made model
  | withoutRobustLoss {base : Noise K} (given : Made base) : Made base.withoutRobustLoss
  | scaledByWeight {weight : K} {base model : Noise K} (given : Made base)
      (made : base.scaledByWeight? weight = some model) : Made model

theorem Made.sound {model : Noise K} (made : Made model) : model.Sound := by
  induction made with
  | ofDim made =>
      unfold Noise.ofDim at made
      split at made
      · cases made
      · obtain rfl := Except.ok.inj made
        trivial
  | ofSigma made =>
      unfold Noise.ofSigma at made
      split at made
      · cases made
      · split at made
        · obtain rfl := Except.ok.inj made
          trivial
        · cases made
  | ofSigmas made =>
      unfold Noise.ofSigmas at made
      split at made
      · cases made
      · split at made
        · cases made
        · obtain rfl := Except.ok.inj made
          trivial
  | ofSqrtInformation made => exact ofSqrtInformation_sound made
  | ofCovariance made => exact ofCovariance_sound made
  | ofLoss given made ih => exact ofLoss_sound ih made
  | withoutRobustLoss given ih => exact withoutRobustLoss_sound ih
  | scaledByWeight given made ih => exact scaledByWeight_sound ih made

end Models

section Whitening

variable {K : Type} [Scalar K] {model : Noise K}

/-- Whitening keeps the rows of a block that fits the model. -/
theorem length_whiten {r whitened : Vec K} (length : r.length = model.dim) (found : model.whiten? r = some whitened) :
    whitened.length = model.dim := by
  induction model with
  | gaussian R =>
      simp only [whiten?, Mat.mulVec?] at found
      split at found
      · obtain rfl := Option.some.inj found
        exact List.length_map _
      · cases found
  | diagonal sigmas =>
      simp only [whiten?, Vec.div?, Vec.zip?] at found
      split at found
      · obtain rfl := Option.some.inj found
        have same : r.length = sigmas.length := length
        simp [dim, same]
      · cases found
  | isotropic n sigma =>
      obtain rfl := Option.some.inj found
      rwa [List.length_map]
  | unit n =>
      obtain rfl := Option.some.inj found
      exact length
  | robust loss base ih => exact ih length found

theorem shape_whitenJacobian {J whitened : Mat K} (height : J.height = model.dim)
    (found : model.whitenJacobian? J = some whitened) :
    whitened.height = model.dim ∧ whitened.width = J.width := by
  induction model with
  | gaussian R =>
      simp only [whitenJacobian?, Mat.mul?] at found
      split at found
      · obtain rfl := Option.some.inj found
        exact ⟨List.length_map _, rfl⟩
      · cases found
  | diagonal sigmas =>
      simp only [whitenJacobian?] at found
      split at found
      · obtain rfl := Option.some.inj found
        exact ⟨(Mat.height_mapRows _ _).trans height, rfl⟩
      · cases found
  | isotropic n sigma =>
      obtain rfl := Option.some.inj found
      exact ⟨(Mat.height_map _ _).trans height, rfl⟩
  | unit n =>
      obtain rfl := Option.some.inj found
      exact ⟨height, rfl⟩
  | robust loss base ih => exact ih height found

theorem whiten_exists (square : model.Square) {r : Vec K} (length : r.length = model.dim) :
    ∃ whitened, model.whiten? r = some whitened := by
  induction model with
  | gaussian R => exact ⟨_, if_pos (Eq.trans square length.symm)⟩
  | diagonal sigmas => exact ⟨_, if_pos length⟩
  | isotropic n sigma => exact ⟨_, rfl⟩
  | unit n => exact ⟨_, rfl⟩
  | robust loss base ih => exact ih square length

theorem whitenJacobian_exists (square : model.Square) {J : Mat K} (height : J.height = model.dim) :
    ∃ whitened, model.whitenJacobian? J = some whitened := by
  induction model with
  | gaussian R => exact ⟨_, if_pos (Eq.trans square height.symm)⟩
  | diagonal sigmas => exact ⟨_, if_pos height.ge⟩
  | isotropic n sigma => exact ⟨_, rfl⟩
  | unit n => exact ⟨_, rfl⟩
  | robust loss base ih => exact ih square height

theorem whitenSystem_plain_iff (plain : model.isRobust = false) {r : Vec K} {A : Mat K}
    {system : Vec K × Option (Mat K)} :
    model.whitenSystem? r (some A) = some system ↔
      ∃ whitened B, model.whiten? r = some whitened ∧ model.whitenJacobian? A = some B ∧
        system = (whitened, some B) := by
  simp only [whitenSystem_plain plain, Option.mapM_some, bind, Option.bind_eq_some_iff, pure, Option.some.injEq,
    Option.map_eq_map, Option.map_eq_some_iff]
  constructor
  · rintro ⟨whitened, first, _, ⟨B, second, rfl⟩, rfl⟩
    exact ⟨whitened, B, first, second, rfl⟩
  · rintro ⟨whitened, B, first, second, rfl⟩
    exact ⟨whitened, first, some B, ⟨B, second, rfl⟩, rfl⟩

theorem whitenSystem_robust_iff {loss : Shared (Loss K)} {base : Noise K} {r : Vec K} {A : Mat K}
    {system : Vec K × Option (Mat K)} :
    (robust loss base).whitenSystem? r (some A) = some system ↔
      ∃ whitened B C, base.whiten? r = some whitened ∧ base.whitenJacobian? A = some B ∧
        (Correction.ofLoss loss.value (Vec.normSq whitened)).jacobian? whitened B = some C ∧
        system = ((Correction.ofLoss loss.value (Vec.normSq whitened)).residual whitened, some C) := by
  simp only [whitenSystem?, whiten?, whitenJacobian?, Option.mapM_some, bind, Option.bind_eq_some_iff, pure,
    Option.some.injEq, Option.map_eq_map, Option.map_eq_some_iff]
  constructor
  · rintro ⟨whitened, first, _, ⟨B, second, rfl⟩, _, corrected, rfl⟩
    obtain ⟨C, third, rfl⟩ := Option.map_eq_some_iff.mp corrected
    exact ⟨whitened, B, C, first, second, third, rfl⟩
  · rintro ⟨whitened, B, C, first, second, third, rfl⟩
    exact ⟨whitened, first, some B, ⟨B, second, rfl⟩, some C, by simp [third], rfl⟩

/-- The residual of a system does not depend on whether a Jacobian is whitened with it. -/
theorem whitenSystem_none {r s : Vec K} {A : Mat K} {J : Option (Mat K)}
    (found : model.whitenSystem? r (some A) = some (s, J)) : model.whitenSystem? r none = some (s, none) := by
  by_cases plain : model.isRobust = false
  · obtain ⟨whitened, B, first, second, same⟩ := (whitenSystem_plain_iff plain).mp found
    obtain ⟨rfl, -⟩ := Prod.mk.inj same
    rw [whitenSystem_plain plain, first]
    rfl
  · cases model with
    | robust loss base =>
        obtain ⟨whitened, B, C, first, second, third, same⟩ := whitenSystem_robust_iff.mp found
        obtain ⟨rfl, -⟩ := Prod.mk.inj same
        unfold whitenSystem?
        rw [whiten?, first]
        rfl
    | gaussian R | diagonal sigmas | isotropic n sigma | unit n => exact absurd rfl plain

/-- A whitened system has the shape of the block that it is made from. -/
theorem whitenSystem_shape {r : Vec K} {A : Mat K} {system : Vec K × Option (Mat K)} (length : r.length = model.dim)
    (height : A.height = model.dim) (found : model.whitenSystem? r (some A) = some system) :
    ∃ B, system.2 = some B ∧ system.1.length = model.dim ∧ B.height = model.dim ∧ B.width = A.width := by
  by_cases plain : model.isRobust = false
  · obtain ⟨whitened, B, first, second, rfl⟩ := (whitenSystem_plain_iff plain).mp found
    obtain ⟨rows, columns⟩ := shape_whitenJacobian height second
    exact ⟨B, rfl, length_whiten length first, rows, columns⟩
  · cases model with
    | robust loss base =>
        obtain ⟨whitened, B, C, first, second, third, rfl⟩ := whitenSystem_robust_iff.mp found
        have fits : r.length = base.dim ∧ A.height = base.dim := ⟨length, height⟩
        have size := length_whiten fits.1 first
        obtain ⟨rows, columns⟩ := shape_whitenJacobian fits.2 second
        obtain ⟨rows', columns'⟩ := Correction.jacobian_shape (size.trans rows.symm) third
        refine ⟨C, rfl, ?_, rows'.trans rows, columns'.trans columns⟩
        rw [Correction.residual, Vec.scale, List.length_map, size]
        rfl
    | gaussian R | diagonal sigmas | isotropic n sigma | unit n => exact absurd rfl plain

theorem whitenSystem_exists (square : model.Square) {r : Vec K} {A : Mat K} (length : r.length = model.dim)
    (height : A.height = model.dim) : ∃ system, model.whitenSystem? r (some A) = some system := by
  by_cases plain : model.isRobust = false
  · obtain ⟨whitened, first⟩ := whiten_exists square length
    obtain ⟨B, second⟩ := whitenJacobian_exists square height
    exact ⟨_, (whitenSystem_plain_iff plain).mpr ⟨whitened, B, first, second, rfl⟩⟩
  · cases model with
    | robust loss base =>
        obtain ⟨whitened, first⟩ := whiten_exists square length
        obtain ⟨B, second⟩ := whitenJacobian_exists square height
        have fits : r.length = base.dim ∧ A.height = base.dim := ⟨length, height⟩
        have rows := (shape_whitenJacobian fits.2 second).1
        have size := length_whiten fits.1 first
        obtain ⟨C, third⟩ := (Correction.ofLoss loss.value (Vec.normSq whitened)).jacobian_exists (size.trans rows.symm)
        exact ⟨_, whitenSystem_robust_iff.mpr ⟨whitened, B, C, first, second, third, rfl⟩⟩
    | gaussian R | diagonal sigmas | isotropic n sigma | unit n => exact absurd rfl plain

end Whitening

end Noise

end GraduatedFit
