import MilkyWay.NBody.FlatDensities
import MilkyWay.NBody.PotentialEvaluation

/-! The density of the external potential belongs to its acceleration: away from the
boundaries of the formulas the divergence is that of the density, component by component
and then for the sums. In a bar this fails exactly in the plane where the acceleration is
divided by zero. -/

namespace MilkyWay.NBody

open Foundation Foundation.Traced

/-! ## The potentials and points -/

/-- A disk with a density for its acceleration, and positive lengths. -/
def Disk.Positive (disk : Disk ℝ) : Prop :=
  match disk.type with
  | .none => True
  | .miyamotoNagai => 0 < disk.scaleLength ∧ 0 < disk.scaleHeight
  | .orbitingBar => 0 < disk.scaleLength
  | .freeman | .doubleExponential | .sech2Exponential | .invalid => False

/-- A halo with a density for its acceleration, and positive parameters. A triaxial one has
the constants that the check computes. -/
def Halo.Positive (M_PI : ℝ) (h : Halo ℝ) : Prop :=
  match h.type with
  | .none => True
  | .logarithmic => 0 < h.scaleLength ∧ 0 < h.flattenZ
  | .triaxial => 0 < h.scaleLength ∧ 0 < h.flattenX ∧ 0 < h.flattenY ∧ 0 < h.flattenZ ∧
    checkHaloConstants realLibm.toLibm M_PI h = some h
  | .nfw | .nfwMass | .wilkinsonEvans | .plummer | .hernquist => 0 < h.scaleLength
  | .allenSantillan => 0 < h.scaleLength ∧ 0 < h.lambda
  | .ninkovic => 0 < h.scaleLength ∧ 0 < h.lambda ∧ 0 < h.rho0
  | .caustic | .invalid => False

structure Potential.Positive (M_PI : ℝ) (pot : Potential ℝ) : Prop where
  sphere : pot.sphere.Positive
  disk : pot.disk.Positive
  disk2 : pot.disk2.Positive
  halo : pot.halo.Positive M_PI

/-- The point is farther out than the limit of the distance, it is not on the limit of a halo,
and in a bar not in the plane in which the angle jumps. -/
structure OffBoundaries (pot : Potential ℝ) (pos : Vec3 ℝ) : Prop where
  far : realLibm.pow 2.0 (-8.0) < pos.norm
  halo : pot.halo.type = .allenSantillan ∨ pot.halo.type = .ninkovic → pos.norm ≠ pot.halo.lambda
  bar : pot.disk2.type = .orbitingBar → pos.x ≠ 0

def SourcedAt (acc : Vec3 ℝ → Option (Vec3 ℝ)) (density : Option ℝ) (pos : Vec3 ℝ) : Prop :=
  ∃ F ρ, (∀ q, acc q = some (F q)) ∧ density = some ρ ∧ PoissonAt F ρ pos

/-- The point and the time are given, so that nothing at all may be divided by zero. -/
structure DensityBelongs (host : RealHost) (pot : Potential ℝ) (pos : Vec3 ℝ) (time : ℝ) :
    Prop where
  evaluable : Evaluable host true pot pos time
  sourced : SourcedAt (fun q => nbExtAcceleration realLibm.toLibm host.components pot q time)
    (nbExtDensity realLibm.toLibm host.components pot pos time) pos

variable {host : RealHost} {pos : Vec3 ℝ} {time r : ℝ}

/-! ## Near the point -/

theorem norm_eq (p : Vec3 ℝ) : realLibm.sqrt (mw_sqrv p) = p.norm := by
  rw [← radius_eq]
  rfl

theorem limitedRadius_norm (far : realLibm.pow 2.0 (-8.0) ≤ pos.norm) :
    limitedRadius realLibm.toLibm pos = pos.norm := by
  rw [← norm_eq] at far ⊢
  exact limitedRadius_far far

theorem norm_pos_of_far (far : realLibm.pow 2.0 (-8.0) < pos.norm) : 0 < pos.norm :=
  lt_trans (Real.rpow_pos_of_pos (by norm_num) _) far

theorem PoissonAt.limited {f : Vec3 ℝ → ℝ → Vec3 ℝ} {ρ : ℝ}
    (far : realLibm.pow 2.0 (-8.0) < pos.norm)
    (poisson : PoissonAt (fun q => f q q.norm) ρ pos) :
    PoissonAt (fun q => f q (limitedRadius realLibm.toLibm q)) ρ pos :=
  poisson.congr ((near_norm_lt (norm_pos_of_far far) far).mono fun q away => by
    simp only [limitedRadius_norm away.le])

theorem poissonAt_zero : PoissonAt (fun _ => 0) 0.0 pos := by
  have none : -4 * programPi * 0.0 = 0 := by norm_num
  rw [PoissonAt, none]
  exact HasDivergence.zero pos

/-! ## The components -/

theorem realLibm_logs : RealLogs realLibm := ⟨realLibm_powers, fun _ => rfl⟩

theorem sphere_sourced (host : RealHost) {s : Spherical ℝ} (positive : s.Positive)
    (far : realLibm.pow 2.0 (-8.0) < pos.norm) :
    SourcedAt (fun q => sphericalAccel host.components s q (limitedRadius realLibm.toLibm q))
      (sphericalDensity host.components s (limitedRadius realLibm.toLibm pos)) pos := by
  have away := norm_pos_of_far far
  rw [limitedRadius_norm far.le]
  unfold Spherical.Positive at positive
  unfold sphericalAccel sphericalDensity
  cases kind : s.type <;> simp only [kind] at positive ⊢
  case none => exact ⟨_, _, fun _ => rfl, rfl, poissonAt_zero⟩
  case hernquist =>
    exact ⟨_, _, fun _ => rfl, rfl,
      (hernquistSpherical_poisson realLibm_powers positive away).limited far⟩
  case plummer =>
    exact ⟨_, _, fun _ => rfl, rfl,
      (plummerSpherical_poisson realLibm_powers positive away).limited far⟩

theorem disk2_sourced (host : RealHost) (time : ℝ) {disk : Disk ℝ} (positive : disk.Positive)
    (side : disk.type = .orbitingBar → pos.x ≠ 0)
    (off : disk.type = .orbitingBar → (rotateZ (-barAngle disk time) pos).y ≠ 0) :
    SourcedAt (fun q => disk2Accel realLibm.toLibm host.components disk q
        (limitedRadius realLibm.toLibm q) time)
      (diskDensity realLibm.toLibm host.components disk pos time) pos := by
  unfold Disk.Positive at positive
  unfold disk2Accel diskAccel diskDensity
  cases kind : disk.type <;> simp only [kind] at positive ⊢
  case none => exact ⟨_, _, fun _ => rfl, rfl, poissonAt_zero⟩
  case miyamotoNagai =>
    exact ⟨_, _, fun _ => rfl, rfl,
      miyamotoNagai_poisson realLibm_powers positive.1 positive.2 pos⟩
  case orbitingBar =>
    exact ⟨_, _, fun _ => rfl, rfl, bar_poisson positive.ne' (side kind) (off kind)⟩

theorem disk_sourced (host : RealHost) (pos : Vec3 ℝ) (time : ℝ) {disk : Disk ℝ}
    (positive : disk.Positive) (rests : disk.type ≠ .orbitingBar) :
    SourcedAt (fun q => diskAccel host.components disk q (limitedRadius realLibm.toLibm q))
      (diskDensity realLibm.toLibm host.components disk pos time) pos := by
  have sourced : SourcedAt _ _ pos := disk2_sourced host time positive
    (fun bar => absurd bar rests) (fun bar => absurd bar rests)
  simpa only [disk2Accel_rests rests] using sourced

theorem halo_sourced (host : RealHost) {M_PI : ℝ} {h : Halo ℝ} (positive : h.Positive M_PI)
    (far : realLibm.pow 2.0 (-8.0) < pos.norm)
    (off : h.type = .allenSantillan ∨ h.type = .ninkovic → pos.norm ≠ h.lambda) :
    SourcedAt (fun q => haloAccel host.components h q (limitedRadius realLibm.toLibm q))
      (haloDensity host.components h pos (limitedRadius realLibm.toLibm pos)) pos := by
  have away := norm_pos_of_far far
  rw [limitedRadius_norm far.le]
  unfold Halo.Positive at positive
  unfold haloAccel haloDensity
  cases kind : h.type <;> simp only [kind] at positive ⊢
  case none => exact ⟨_, _, fun _ => rfl, rfl, poissonAt_zero⟩
  case logarithmic =>
    exact ⟨_, _, fun _ => rfl, rfl,
      logHalo_poisson realLibm_powers positive.1 positive.2.ne' pos⟩
  case nfw =>
    exact ⟨_, _, fun _ => rfl, rfl, (nfwHalo_poisson realLibm_logs positive away).limited far⟩
  case triaxial =>
    obtain ⟨scaled, flatX, flatY, flatZ, checked⟩ := positive
    have form := triaxialForm_pos (fun _ => rfl) (fun _ => rfl) kind checked scaled flatX.ne'
      flatY.ne' pos
    exact ⟨_, _, fun _ => rfl, rfl, triaxialHalo_poisson realLibm_powers flatZ.ne' form.ne'⟩
  case allenSantillan =>
    exact ⟨_, _, fun _ => rfl, rfl, (allenSantillanHalo_poisson realLibm_powers positive.1 away
      (off (.inl kind))).limited far⟩
  case wilkinsonEvans =>
    exact ⟨_, _, fun _ => rfl, rfl,
      (wilkinsonEvansHalo_poisson realLibm_powers positive away).limited far⟩
  case nfwMass =>
    exact ⟨_, _, fun _ => rfl, rfl, (nfwMassHalo_poisson realLibm_logs positive away).limited far⟩
  case plummer =>
    exact ⟨_, _, fun _ => rfl, rfl, (plummerHalo_poisson realLibm_powers positive away).limited far⟩
  case hernquist =>
    exact ⟨_, _, fun _ => rfl, rfl,
      (hernquistHalo_poisson realLibm_powers positive away).limited far⟩
  case ninkovic =>
    obtain ⟨scaled, wide, dense⟩ := positive
    exact ⟨_, _, fun _ => rfl, rfl, (ninkovicHalo_poisson realLibm_logs scaled wide dense.le away
      (off (.inr kind))).limited far⟩

/-! ## The divisors where everything is given -/

theorem disk2_given_sound (host : RealHost) (r : ℝ) {disk : Disk ℝ} (positive : disk.Positive)
    (side : disk.type = .orbitingBar → pos.x ≠ 0)
    (off : disk.type = .orbitingBar → (rotateZ (-barAngle disk time) pos).y ≠ 0) :
    (∃ v ∈ disk2Accel realLibm.toLibm.traced host.traced (disk.map .ofGiven)
        (Vec3.traced true pos) (.ofInput true r) (.ofInput true time), SoundVec v) ∧
      (∃ ρ ∈ diskDensity realLibm.toLibm.traced host.traced (disk.map .ofGiven)
        (Vec3.traced true pos) (.ofInput true time), ρ.sound = true) := by
  unfold Disk.Positive at positive
  simp only [disk2Accel, diskAccel, diskDensity, Disk.type_map]
  cases kind : disk.type <;> simp only [kind] at positive ⊢ <;>
    simp [RealHost.traced, hostComponents, nbComponents, nbDensities, RealHost.library_traced]
  case none => exact soundVec_zero
  case miyamotoNagai =>
    obtain ⟨scaled, high⟩ := positive
    refine ⟨miyamotoNagaiDiskAccel_sound.mpr fun _ => ?_, miyamotoNagaiDiskDensity_sound⟩
    have height : 0 < realLibm.pow (realLibm.pow pos.z 2.0 + realLibm.pow disk.scaleHeight 2.0)
        0.5 := by
      rw [realLibm_powers.two, realLibm_powers.two]
      exact Real.rpow_pos_of_pos (add_pos_of_nonneg_of_pos (mul_self_nonneg _)
        (mul_pos high high)) _
    refine ⟨height.ne', (Real.rpow_pos_of_pos ?_ _).ne'⟩
    have sum := add_pos scaled height
    simp only [realLibm_powers.two] at sum ⊢
    exact add_pos_of_nonneg_of_pos (add_nonneg (mul_self_nonneg _) (mul_self_nonneg _))
      (mul_pos sum sum)
  case orbitingBar =>
    refine ⟨(orbitingBarAccel_sound true).mpr fun _ => ⟨side kind, ?_⟩,
      orbitingBarDensity_sound.mpr ⟨positive.ne', fun _ => side kind⟩⟩
    rw [barPlane_eq (side kind)]
    exact off kind

theorem disk_given_sound (host : RealHost) (pos : Vec3 ℝ) (r time : ℝ) {disk : Disk ℝ}
    (positive : disk.Positive) (rests : disk.type ≠ .orbitingBar) :
    (∃ v ∈ diskAccel host.traced (disk.map .ofGiven) (Vec3.traced true pos) (.ofInput true r),
        SoundVec v) ∧
      (∃ ρ ∈ diskDensity realLibm.toLibm.traced host.traced (disk.map .ofGiven)
        (Vec3.traced true pos) (.ofInput true time), ρ.sound = true) := by
  have rests' : (disk.map Traced.ofGiven).type ≠ .orbitingBar := rests
  rw [← disk2Accel_rests rests']
  exact disk2_given_sound host r positive (fun bar => absurd bar rests)
    fun bar => absurd bar rests

theorem allenSantillanHalo_given {h : Halo ℝ} (scaled : 0 < h.scaleLength)
    (wide : 0 < h.lambda) (far : 0 < r) :
    SoundVec (ASHaloAccel realLibm.traced.toLibm (h.map .ofGiven) (Vec3.traced true pos)
      (.ofInput true r)) ∧
      (allenSantillanHaloDensity realLibm.traced.toLibm (h.map .ofGiven)
        (.ofInput true r)).sound = true := by
  have power (x : ℝ) (away : 0 < x) :
      0 < 1.0 + realLibm.pow (x / h.scaleLength) (h.gamma - 1.0) :=
    add_pos (by norm_num) (Real.rpow_pos_of_pos (div_pos away scaled) _)
  refine ⟨(ASHaloAccel_sound (soundVec_traced true pos)).mpr ⟨scaled.ne',
    fun _ => (power _ wide).ne', fun _ => ⟨far.ne', fun _ => (power _ far).ne', fun _ => ?_⟩⟩,
      allenSantillanHaloDensity_sound scaled.ne' fun _ => ?_⟩
  · rw [realLibm_sq]
    positivity
  · rw [realLibm_sq]
    exact (pow_pos (power _ far) 2).ne'

theorem halo_given_sound (host : RealHost) (pos : Vec3 ℝ) {M_PI : ℝ} {h : Halo ℝ}
    (positive : h.Positive M_PI) (far : 0 < r) :
    (∃ v ∈ haloAccel host.traced (h.map .ofGiven) (Vec3.traced true pos) (.ofInput true r),
        SoundVec v) ∧
      (∃ ρ ∈ haloDensity host.traced (h.map .ofGiven) (Vec3.traced true pos) (.ofInput true r),
        ρ.sound = true) := by
  have point := soundVec_traced true pos
  unfold Halo.Positive at positive
  simp only [haloAccel, haloDensity, Halo.type_map]
  cases kind : h.type <;> simp only [kind] at positive ⊢ <;>
    simp [RealHost.traced, hostComponents, nbComponents, nbDensities, RealHost.library_traced]
  case none => exact soundVec_zero
  case logarithmic =>
    obtain ⟨scaled, flat⟩ := positive
    refine ⟨logHaloAccel_sound.mpr ⟨flat.ne', fun _ => ?_⟩,
      logarithmicHaloDensity_sound.mpr ⟨flat.ne', fun _ => ?_⟩⟩
    · simp only [realLibm_sq]
      positivity
    · simp only [realLibm_sq, ← sq]
      positivity
  case nfw =>
    refine ⟨(nfwHaloAccel_sound point).mpr ⟨positive.ne',
      fun _ => ⟨far.ne', (add_pos positive far).ne'⟩⟩,
      (NFWHaloDensity_sound far.ne').mpr ⟨positive.ne', fun _ => ?_⟩⟩
    rw [realLibm_sq]
    positivity
  case triaxial =>
    obtain ⟨scaled, flatX, flatY, flatZ, checked⟩ := positive
    have form := triaxialForm_pos (fun _ => rfl) (fun _ => rfl) kind checked scaled flatX.ne'
      flatY.ne' pos
    have flat := flatZ.ne'
    refine ⟨triaxialHaloAccel_sound.mpr ⟨flat, fun _ => ⟨?_, ?_⟩⟩,
      triaxialHaloDensity_sound.mpr ⟨flat, fun _ => ?_⟩⟩
    · rw [triaxialForm_accel]
      exact form.ne'
    · rw [triaxialForm_height flat]
      positivity
    · rw [triaxialForm_density realLibm_powers]
      exact form.ne'
  case allenSantillan => exact allenSantillanHalo_given positive.1 positive.2 far
  case wilkinsonEvans =>
    have square : 0 < sqr h.scaleLength + sqr r := add_pos (mul_pos positive positive)
      (mul_pos far far)
    refine ⟨(WEHaloAccel_sound point).mpr fun _ => ⟨far.ne', ?_⟩,
      wilkinsonEvansHaloDensity_sound fun _ => ?_⟩
    · exact (add_pos square (mul_pos positive (Real.sqrt_pos.mpr square))).ne'
    · exact (Real.rpow_pos_of_pos (by positivity) _).ne'
  case nfwMass =>
    exact ⟨(NFWMHaloAccel_sound point).mpr ⟨positive.ne',
      fun _ => ⟨far.ne', (add_pos positive far).ne'⟩⟩,
      NFWMHaloDensity_sound fun _ => (add_pos positive far).ne'⟩
  case plummer =>
    refine ⟨(plummerHaloAccel_sound point).mpr fun _ => (Real.sqrt_pos.mpr ?_).ne',
      plummerDensity_sound realLibm_cube⟩
    exact add_pos (mul_pos positive positive) (mul_pos far far)
  case hernquist =>
    refine ⟨(hernquistHaloAccel_sound point).mpr fun _ => ?_, hernquistHaloDensity_sound⟩
    rw [sqr]
    positivity
  case ninkovic =>
    obtain ⟨scaled, wide, -⟩ := positive
    refine ⟨(ninkovicHaloAccel_sound point).mpr ⟨scaled.ne', ?_, fun _ => far.ne'⟩,
      ninkovicHaloDensity_sound scaled.ne' ?_ fun _ => ?_⟩
    · rw [cube]
      positivity
    · rw [realLibm_cube]
      positivity
    · rw [realLibm_cube]
      positivity

/-! ## The potential -/

theorem potential_sourced {M_PI : ℝ} {pot : Potential ℝ} (positive : pot.Positive M_PI)
    (boundaries : OffBoundaries pot pos) (rests : pot.disk.type ≠ .orbitingBar)
    (weighs : (nbExtDensity realLibm.toLibm host.components pot pos time).isSome)
    (off : pot.disk2.type = .orbitingBar → (rotateZ (-barAngle pot.disk2 time) pos).y ≠ 0) :
    SourcedAt (fun q => nbExtAcceleration realLibm.toLibm host.components pot q time)
      (nbExtDensity realLibm.toLibm host.components pot pos time) pos := by
  obtain ⟨F₁, ρ₁, acc₁, dens₁, disk⟩ := disk_sourced host pos time positive.disk rests
  obtain ⟨F₂, ρ₂, acc₂, dens₂, disk2⟩ := disk2_sourced host time positive.disk2 boundaries.bar
    off
  obtain ⟨F₃, ρ₃, acc₃, dens₃, halo⟩ := halo_sourced host positive.halo boundaries.far
    boundaries.halo
  obtain ⟨F₄, ρ₄, acc₄, dens₄, sphere⟩ := sphere_sourced host positive.sphere boundaries.far
  refine ⟨fun q => F₁ q + F₂ q + F₃ q + F₄ q, 0.0 + ρ₄ + ρ₁ + ρ₂ + ρ₃, fun q => ?_, ?_, ?_⟩
  · simp only [nbExtAcceleration, acc₁, acc₂, acc₃, acc₄]
    rfl
  · simp only [nbExtDensity, dens₁, dens₂, dens₃, dens₄, Option.bind_eq_bind,
      Option.bind_some] at weighs ⊢
    split_ifs at weighs ⊢
    · cases weighs
    · rfl
  · have total : -4 * programPi * (0.0 + ρ₄ + ρ₁ + ρ₂ + ρ₃) =
        -4 * programPi * ρ₁ + -4 * programPi * ρ₂ + -4 * programPi * ρ₃ + -4 * programPi * ρ₄ := by
      norm_num
      ring
    rw [PoissonAt, total]
    exact ((disk.add disk2).add halo).add sphere

theorem bar_off {pot : Potential ℝ} (bar : pot.disk2.type = .orbitingBar)
    (evaluable : Evaluable host true pot pos time) :
    (rotateZ (-barAngle pot.disk2 time) pos).y ≠ 0 := by
  obtain ⟨-, ⟨v, mem, sound⟩, -⟩ :=
    (nbExtAcceleration_sound (limitedRadius_traced _ _ _)).mp evaluable.accelerationDivides
  simp only [disk2Accel, Disk.type_map, bar, Option.mem_some_iff] at mem
  subst mem
  obtain ⟨side, off⟩ := (orbitingBarAccel_sound true).mp sound rfl
  rw [barPlane_eq side] at off
  exact off

/-- The density belongs to the acceleration, but in a bar exactly off that plane. -/
theorem nbExtDensity_belongs_iff (host : RealHost) {M_PI : ℝ} {pot : Potential ℝ} {pos : Vec3 ℝ}
    {time : ℝ} (positive : pot.Positive M_PI) (boundaries : OffBoundaries pot pos)
    (moves : (nbExtAcceleration realLibm.toLibm host.components pot pos time).isSome)
    (weighs : (nbExtDensity realLibm.toLibm host.components pot pos time).isSome) :
    DensityBelongs host pot pos time ↔
      (pot.disk2.type = .orbitingBar → (rotateZ (-barAngle pot.disk2 time) pos).y ≠ 0) := by
  have rests : pot.disk.type ≠ .orbitingBar := by
    intro bar
    rw [nbExtAcceleration_bar bar] at moves
    exact nomatch moves
  constructor
  · exact fun belongs bar => bar_off bar belongs.evaluable
  · intro off
    have far := limitedRadius_pos pos
    obtain ⟨disk, disk'⟩ := disk_given_sound host pos (limitedRadius realLibm.toLibm pos) time
      positive.disk rests
    obtain ⟨disk2, disk2'⟩ := disk2_given_sound host (limitedRadius realLibm.toLibm pos)
      positive.disk2 boundaries.bar off
    obtain ⟨halo, halo'⟩ := halo_given_sound host pos positive.halo far
    obtain ⟨sphere, sphere'⟩ := sphere_sound (g := true) host (soundVec_traced true pos)
      positive.sphere far
    have distance := limitedRadius_traced realLibm.toLibm true pos
    exact ⟨⟨moves, weighs, (nbExtAcceleration_sound distance).mpr ⟨disk, disk2, halo, sphere⟩,
      (nbExtDensity_sound pos rfl distance rfl).mpr
        ⟨weighs, sphere', disk', disk2', halo'⟩⟩,
        potential_sourced positive boundaries rests weighs off⟩

/-- A bar alone, at rest along the first axis. -/
noncomputable def lonelyBar : Potential ℝ where
  sphere := ⟨.none, 0, 0⟩
  disk := ⟨.none, 1, 0, 0, 0, 0⟩
  disk2 := ⟨.orbitingBar, 1, 1, 1, 0, 0⟩
  halo := ⟨.none, 0, 0, 0, 0, 0, 0, 0, 0, 0, 0, 0, 0, 0⟩

theorem lonelyBar_positive : lonelyBar.Positive Real.pi := ⟨trivial, trivial, one_pos, trivial⟩

theorem lonelyBar_boundaries (y : ℝ) : OffBoundaries lonelyBar ⟨1, y, 1⟩ := by
  refine ⟨?_, fun limited => ?_, fun _ => one_ne_zero⟩
  · have below : (2.0 : ℝ) ^ (-8.0 : ℝ) < 1 :=
      Real.rpow_lt_one_of_one_lt_of_neg (by norm_num) (by norm_num)
    refine lt_of_lt_of_le below ?_
    rw [Vec3.norm, Real.one_le_sqrt, Vec3.normSq]
    nlinarith [mul_self_nonneg y]
  · obtain kind | kind := limited <;> cases kind

theorem lonelyBar_density (y : ℝ) :
    (nbExtDensity realLibm.toLibm plainHost.components lonelyBar ⟨1, y, 1⟩ 0).isSome := by
  refine (nbExtDensity_isSome _ _ _ _).mpr ⟨⟨rfl, rfl, rfl, rfl⟩, ?_⟩
  intro sphere first disk second disk2 bar halo third
  obtain rfl := Option.some.inj first
  obtain rfl := Option.some.inj second
  obtain rfl := Option.some.inj bar
  obtain rfl := Option.some.inj third
  rw [orbitingBarDensity_rotated (by exact one_ne_zero)]
  have point : rotateZ (-barAngle lonelyBar.disk2 0) ⟨1, y, 1⟩ = ⟨1, y, 1⟩ := by
    simp [lonelyBar, barAngle, rotateZ]
  rw [point]
  -- this end of the bar has no density at the point
  have across := barAcross_pos ⟨1, y, 1⟩
  have far := barEnd_pos 1 ⟨1, y, 1⟩
  simp only [barDensity, lonelyBar]
  norm_num
  positivity

/-- Beside the axis the density belongs to the acceleration. -/
theorem lonelyBar_belongs : DensityBelongs plainHost lonelyBar ⟨1, 1, 1⟩ 0 := by
  refine (nbExtDensity_belongs_iff plainHost lonelyBar_positive (lonelyBar_boundaries 1) rfl
    (lonelyBar_density 1)).mpr fun _ => ?_
  simp [lonelyBar, rotateZ, barAngle]

/-- Above the axis the acceleration is divided by zero. -/
theorem lonelyBar_not_belongs :
    lonelyBar.Positive Real.pi ∧ OffBoundaries lonelyBar ⟨1, 0, 1⟩ ∧
      (nbExtAcceleration realLibm.toLibm plainHost.components lonelyBar ⟨1, 0, 1⟩ 0).isSome ∧
      (nbExtDensity realLibm.toLibm plainHost.components lonelyBar ⟨1, 0, 1⟩ 0).isSome ∧
      ¬DensityBelongs plainHost lonelyBar ⟨1, 0, 1⟩ 0 := by
  refine ⟨lonelyBar_positive, lonelyBar_boundaries 0, rfl, lonelyBar_density 0, ?_⟩
  intro belongs
  refine bar_off rfl belongs.evaluable ?_
  simp [lonelyBar, rotateZ, barAngle]

end MilkyWay.NBody
