import MilkyWay.NBody.CentralDensities
import MilkyWay.NBody.PotentialDivisors

/-! The external potential as a whole on numbers that trace their divisions, and the
potentials that the checks accept. An accepted potential can be evaluated at every point
and time exactly where its first disk is no bar, no divisor of the second disk, of the halo
and of the halo's constants that their parameters give is zero, and the densities nowhere
add up to a negative number: the checks look at none of these. -/

namespace MilkyWay.NBody
open Foundation Foundation.Traced

/-- What the formulas of the host need beside the real functions. The Bessel functions and
the acceleration of the caustic halo may be any, and the script is not run. -/
structure RealHost where
  bessel : BesselLibm ℝ
  causticHaloAccel : Vec3 ℝ → ℝ → Vec3 ℝ
  base : Components ℝ
  tracedBase : Components (Traced ℝ)

namespace RealHost
variable (host : RealHost)

noncomputable def library : BesselLibm ℝ := { host.bessel with toLogLibm := realLibm }

noncomputable def components : Components ℝ :=
  hostComponents host.library host.causticHaloAccel host.base

def tracedCaustic (pos : Vec3 (Traced ℝ)) (r : Traced ℝ) : Vec3 (Traced ℝ) :=
  let v := host.causticHaloAccel ⟨pos.x.value, pos.y.value, pos.z.value⟩ r.value
  ⟨⟨v.x, r.given, r.free, r.sound⟩, ⟨v.y, r.given, r.free, r.sound⟩,
    ⟨v.z, r.given, r.free, r.sound⟩⟩

noncomputable def traced : Components (Traced ℝ) :=
  hostComponents host.library.traced host.tracedCaustic host.tracedBase

end RealHost

/-- At a point and a time there are an acceleration and a density, and on the way to them
nothing is divided by a zero that is given. The parameters are given, and the point and the
time are given or free. -/
structure Evaluable (host : RealHost) (g : Bool) (pot : Potential ℝ) (pos : Vec3 ℝ)
    (time : ℝ) : Prop where
  acceleration : (nbExtAcceleration realLibm.toLibm host.components pot pos time).isSome
  density : (nbExtDensity realLibm.toLibm host.components pot pos time).isSome
  accelerationDivides : ∃ acc ∈ nbExtAcceleration realLibm.toLibm.traced host.traced
    (pot.map .ofGiven) (Vec3.traced g pos) (.ofInput g time), SoundVec acc
  densityDivides : ∃ ρ ∈ nbExtDensity realLibm.toLibm.traced host.traced
    (pot.map .ofGiven) (Vec3.traced g pos) (.ofInput g time), ρ.sound = true

/-- An accepted potential at a point and a time. Its parameters are given and the time is
free, and so are the coordinates but for a height of zero. The division that computes the
constants of a halo counts like those on the way to the acceleration and the density. -/
structure AcceptedEvaluable (host : RealHost) (M_PI : ℝ) (p q : Potential ℝ) (pos : Vec3 ℝ)
    (time : ℝ) : Prop where
  constants : ∃ h ∈ checkHaloConstants realLibm.toLibm.traced (.ofConstant M_PI)
    (p.halo.map .ofGiven), h.c1.sound = true ∧ h.c2.sound = true ∧ h.c3.sound = true
  acceleration : (nbExtAcceleration realLibm.toLibm host.components q pos time).isSome
  density : (nbExtDensity realLibm.toLibm host.components q pos time).isSome
  accelerationDivides : ∃ acc ∈ nbExtAcceleration realLibm.toLibm.traced host.traced
    (q.map .ofGiven) (Vec3.freed pos) (.ofInput false time), SoundVec acc
  densityDivides : ∃ ρ ∈ nbExtDensity realLibm.toLibm.traced host.traced
    (q.map .ofGiven) (Vec3.freed pos) (.ofInput false time), ρ.sound = true

variable {host : RealHost} {g : Bool} {pos : Vec3 ℝ} {r time : ℝ} {pot : Potential ℝ}
  {v : Vec3 (Traced ℝ)} {radius t : Traced ℝ}

section
variable {R S : Type} (f : R → S)

@[simp] theorem Disk.type_map (disk : Disk R) : (disk.map f).type = disk.type := rfl
@[simp] theorem Halo.type_map (h : Halo R) : (h.map f).type = h.type := rfl
@[simp] theorem Spherical.type_map (s : Spherical R) : (s.map f).type = s.type := rfl

end

/-! ## The traced densities have the values of the densities -/

/-- The values of the coordinates. -/
def Vec3.values (v : Vec3 (Traced ℝ)) : Vec3 ℝ := ⟨v.x.value, v.y.value, v.z.value⟩

theorem sphericalDensity_value (s : Spherical ℝ) :
    (sphericalDensity host.traced (s.map .ofGiven) radius).map value =
      sphericalDensity host.components s radius.value := by
  unfold sphericalDensity
  cases kind : s.type <;>
    simp only [Spherical.map, kind, Option.map_none, Option.map_some, RealHost.traced,
      RealHost.components, hostComponents, nbComponents, nbDensities, hernquistSphericalDensity,
      plummerSphericalDensity, plummerDensity, value_ite] <;> rfl

theorem doubleExponentialDiskDensity_value (L : LogLibm ℝ) (disk : Disk ℝ) :
    (doubleExponentialDiskDensity L.traced.toLibm (disk.map .ofGiven) v).value =
      doubleExponentialDiskDensity L.toLibm disk (Vec3.values v) := by
  have height : (mw_abs v.z).value = mw_abs v.z.value := value_ite ..
  simp only [doubleExponentialDiskDensity, value_mul, value_map₂, value_div, LogLibm.traced,
    Libm.traced, value_map, neg_eq, height]
  rfl

theorem barPlane_value (L : Libm ℝ) (θ : Traced ℝ) :
    (barPlane L.traced v θ).1.value = (barPlane L (Vec3.values v) θ.value).1 ∧
      (barPlane L.traced v θ).2.value = (barPlane L (Vec3.values v) θ.value).2 := by
  have same : v.x < 0 ↔ (Vec3.values v).x < 0 := Iff.rfl
  unfold barPlane
  by_cases left : (Vec3.values v).x < 0
  · simp only [if_pos (same.mpr left), if_pos left]
    exact ⟨rfl, rfl⟩
  · simp only [if_neg (left ∘ same.mp), if_neg left]
    exact ⟨rfl, rfl⟩

theorem orbitingBarDensity_value (disk : Disk ℝ) :
    (orbitingBarDensity realLibm.toLibm.traced (disk.map .ofGiven) v t).value =
      orbitingBarDensity realLibm.toLibm disk (Vec3.values v) t.value := by
  obtain ⟨along, across⟩ := barPlane_value (v := v) realLibm.toLibm
    (barAngle (disk.map .ofGiven) t)
  have angle : (barAngle (disk.map .ofGiven) t).value = barAngle disk t.value := rfl
  rw [angle] at along across
  simp only [orbitingBarDensity]
  rw [← along, ← across]
  rfl

theorem diskDensity_value (disk : Disk ℝ) :
    (diskDensity realLibm.toLibm.traced host.traced (disk.map .ofGiven) v t).map value =
      diskDensity realLibm.toLibm host.components disk (Vec3.values v) t.value := by
  unfold diskDensity
  cases kind : disk.type <;> simp only [Disk.map, kind, Option.map_none, Option.map_some]
  case miyamotoNagai =>
    simp only [RealHost.traced, RealHost.components, hostComponents, nbComponents, nbDensities,
      miyamotoNagaiDiskDensity, value_ite]
    rfl
  case doubleExponential =>
    exact congrArg some (doubleExponentialDiskDensity_value host.library.toLogLibm disk)
  case orbitingBar => exact congrArg some (orbitingBarDensity_value disk)
  all_goals rfl

theorem haloDensity_value (h : Halo ℝ) :
    (haloDensity host.traced (h.map .ofGiven) v radius).map value =
      haloDensity host.components h (Vec3.values v) radius.value := by
  unfold haloDensity
  cases kind : h.type <;>
    simp only [Halo.map, kind, Option.map_none, Option.map_some, RealHost.traced,
      RealHost.components, hostComponents, nbComponents, nbDensities, logarithmicHaloDensity,
      NFWHaloDensity, triaxialHaloDensity, allenSantillanHaloDensity, wilkinsonEvansHaloDensity,
      NFWMHaloDensity, plummerHaloDensity, hernquistHaloDensity, ninkovicHaloDensity,
      plummerDensity, value_ite] <;> rfl

/-! ## The sums of the components -/

theorem soundVec_add (v w : Vec3 (Traced ℝ)) : SoundVec (v + w) ↔ SoundVec v ∧ SoundVec w := by
  change ((v.x.sound && w.x.sound) = true ∧ (v.y.sound && w.y.sound) = true ∧
    (v.z.sound && w.z.sound) = true) ↔ _
  simp only [SoundVec, Bool.and_eq_true]
  tauto

theorem nbExtAcceleration_sound
    (distance : limitedRadius realLibm.toLibm.traced v = radius) :
    (∃ acc ∈ nbExtAcceleration realLibm.toLibm.traced host.traced (pot.map .ofGiven) v t,
      SoundVec acc) ↔
    (∃ acc ∈ diskAccel host.traced (pot.disk.map .ofGiven) v radius, SoundVec acc) ∧
    (∃ acc ∈ disk2Accel realLibm.toLibm.traced host.traced (pot.disk2.map .ofGiven) v radius t,
      SoundVec acc) ∧
    (∃ acc ∈ haloAccel host.traced (pot.halo.map .ofGiven) v radius, SoundVec acc) ∧
    (∃ acc ∈ sphericalAccel host.traced (pot.sphere.map .ofGiven) v radius, SoundVec acc) := by
  rw [nbExtAcceleration, distance]
  simp only [Potential.map]
  cases diskAccel host.traced _ _ _ <;> cases disk2Accel _ host.traced _ _ _ _ <;>
    cases haloAccel host.traced _ _ _ <;> cases sphericalAccel host.traced _ _ _ <;>
      simp [soundVec_add, and_assoc]

theorem nbExtDensity_sound (pos : Vec3 ℝ) (values : Vec3.values v = pos)
    (distance : limitedRadius realLibm.toLibm.traced v = radius)
    (same : radius.value = limitedRadius realLibm.toLibm pos) :
    (∃ ρ ∈ nbExtDensity realLibm.toLibm.traced host.traced (pot.map .ofGiven) v t,
      ρ.sound = true) ↔
    (nbExtDensity realLibm.toLibm host.components pot pos t.value).isSome ∧
    (∃ ρ ∈ sphericalDensity host.traced (pot.sphere.map .ofGiven) radius, ρ.sound = true) ∧
    (∃ ρ ∈ diskDensity realLibm.toLibm.traced host.traced (pot.disk.map .ofGiven) v t,
      ρ.sound = true) ∧
    (∃ ρ ∈ diskDensity realLibm.toLibm.traced host.traced (pot.disk2.map .ofGiven) v t,
      ρ.sound = true) ∧
    (∃ ρ ∈ haloDensity host.traced (pot.halo.map .ofGiven) v radius, ρ.sound = true) := by
  subst values
  simp only [nbExtDensity, distance, ← same, ← sphericalDensity_value, ← diskDensity_value,
    ← haloDensity_value]
  simp only [Potential.map]
  cases sphericalDensity host.traced _ _ <;> cases diskDensity _ host.traced _ _ _ <;>
    cases diskDensity _ host.traced _ _ _ <;> cases haloDensity host.traced _ _ _ <;>
      simp [and_assoc]

/-! ## Free positions -/

/-- The kind of the disk is one, and no divisor at a height that its parameters give is
zero. The scale height of Miyamoto and Nagai's is a divisor in the plane. -/
def Disk.DivisibleAt (disk : Disk ℝ) (z : ℝ) : Prop :=
  match disk.type with
  | .none => True
  | .miyamotoNagai => z = 0 → disk.scaleHeight ≠ 0
  | .freeman | .orbitingBar => disk.scaleLength ≠ 0
  | .doubleExponential | .sech2Exponential => disk.scaleLength ≠ 0 ∧ disk.scaleHeight ≠ 0
  | .invalid => False

/-- The divisors of a disk at every height. -/
def Disk.Divisible (disk : Disk ℝ) : Prop := ∀ z, disk.DivisibleAt z

/-- The kind of the halo is one, and no divisor at a distance that its parameters give is
zero. One of Allen and Santillán divides by its limit from there on, and the check divides by
the squares of the flattenings of a triaxial one. -/
def Halo.DivisibleAt (h : Halo ℝ) (r : ℝ) : Prop :=
  match h.type with
  | .none | .caustic | .wilkinsonEvans | .plummer | .hernquist => True
  | .logarithmic => h.flattenZ ≠ 0
  | .triaxial => h.flattenX ≠ 0 ∧ h.flattenY ≠ 0 ∧ h.flattenZ ≠ 0
  | .nfw | .nfwMass => h.scaleLength ≠ 0
  | .allenSantillan => h.scaleLength ≠ 0 ∧
    (¬r < h.lambda → 1.0 + (h.lambda / h.scaleLength) ^ (h.gamma - 1.0) ≠ 0)
  | .ninkovic => h.scaleLength ≠ 0 ∧ 1.0 + cube (h.lambda / h.scaleLength) ≠ 0
  | .invalid => False

/-- The divisors of a halo at every distance. -/
def Halo.Divisible (h : Halo ℝ) : Prop := ∀ r, 0 < r → h.DivisibleAt r

theorem RealHost.library_traced : host.library.traced.toLogLibm = realLibm.traced := rfl

theorem soundVec_zero : SoundVec (0 : Vec3 (Traced ℝ)) := ⟨rfl, rfl, rfl⟩

theorem disk2_sound (host : RealHost) (cosh : ∀ x, 0 < host.bessel.cosh x) (disk : Disk ℝ)
    (pos : Vec3 ℝ) (r time : ℝ) :
    (∃ acc ∈ disk2Accel realLibm.toLibm.traced host.traced (disk.map .ofGiven)
        (Vec3.freed pos) (.ofInput false r) (.ofInput false time), SoundVec acc) ∧
      (∃ ρ ∈ diskDensity realLibm.toLibm.traced host.traced (disk.map .ofGiven)
        (Vec3.freed pos) (.ofInput false time), ρ.sound = true) ↔ disk.DivisibleAt pos.z := by
  simp only [Disk.DivisibleAt, disk2Accel, diskAccel, diskDensity, Disk.type_map]
  cases kind : disk.type <;> simp only [RealHost.traced, hostComponents, nbComponents,
    nbDensities, hostAccels, RealHost.library_traced, Option.mem_def, Option.some.injEq,
    exists_eq_left', reduceCtorEq, false_and, exists_const]
  case none => exact iff_true_intro ⟨soundVec_zero, rfl⟩
  case miyamotoNagai =>
    exact (and_iff_left miyamotoNagaiDiskDensity_freed).trans miyamotoNagaiDiskAccel_freed
  case freeman => exact (and_iff_left rfl).trans freemanDiskAccel_sound
  case doubleExponential =>
    refine (and_congr_right fun _ => doubleExponentialDiskDensity_sound realLibm_sq).trans ?_
    exact and_iff_right_of_imp fun scaled => doubleExponentialDiskAccel_sound scaled.1 scaled.2
  case sech2Exponential =>
    refine (and_congr_right fun _ =>
      sech2ExponentialDiskDensity_sound (B := host.library) realLibm_sq cosh).trans ?_
    exact and_iff_right_of_imp fun scaled => sech2ExponentialDiskAccel_sound scaled.1 scaled.2
  case orbitingBar => exact (and_iff_right orbitingBarAccel_freed).trans orbitingBarDensity_freed

theorem disk_sound (host : RealHost) (cosh : ∀ x, 0 < host.bessel.cosh x) (disk : Disk ℝ)
    (pos : Vec3 ℝ) (r time : ℝ) :
    (∃ acc ∈ diskAccel host.traced (disk.map .ofGiven) (Vec3.freed pos) (.ofInput false r),
        SoundVec acc) ∧
      (∃ ρ ∈ diskDensity realLibm.toLibm.traced host.traced (disk.map .ofGiven)
        (Vec3.freed pos) (.ofInput false time), ρ.sound = true) ↔
    disk.type ≠ .orbitingBar ∧ disk.DivisibleAt pos.z := by
  by_cases bar : disk.type = .orbitingBar
  · simp [diskAccel, bar]
  · have rests : (disk.map Traced.ofGiven).type ≠ .orbitingBar := bar
    rw [← disk2_sound host cosh disk pos r time, disk2Accel_rests rests]
    exact (and_iff_right bar).symm

theorem checkHaloConstants_sound {M_PI : ℝ} {h h' : Halo ℝ}
    (checked : checkHaloConstants realLibm.toLibm M_PI h = some h') :
    (∃ k ∈ checkHaloConstants realLibm.toLibm.traced (.ofConstant M_PI) (h.map .ofGiven),
        k.c1.sound = true ∧ k.c2.sound = true ∧ k.c3.sound = true) ↔
      (h'.type = .triaxial → h'.flattenX ≠ 0 ∧ h'.flattenY ≠ 0) := by
  unfold checkHaloConstants at checked ⊢
  rw [Halo.type_map]
  cases kind : h.type <;> simp only [kind] at checked ⊢
  case logarithmic =>
    split_ifs at checked with flat
    obtain rfl := Option.some.inj checked
    have high : ¬(h.map Traced.ofGiven).flattenZ < realLibm.toLibm.traced.pow 2.0 (-0.5) := flat
    rw [if_neg high]
    simp [kind, Halo.map]
  case triaxial =>
    obtain rfl := Option.some.inj checked
    simp [Halo.map, Libm.traced, sqr]
    tauto
  case invalid => cases checked
  all_goals
    obtain rfl := Option.some.inj checked
    simp [kind, Halo.map]

theorem checkHaloConstants_wide {M_PI : ℝ} {h h' : Halo ℝ}
    (checked : checkHaloConstants realLibm.toLibm M_PI h = some h') (kind : h'.type = .triaxial)
    (flat : h'.flattenX ≠ 0 ∧ h'.flattenY ≠ 0) : h'.c1 ≠ 0 := by
  have same : h.type = h'.type := by
    unfold checkHaloConstants at checked
    cases of : h.type <;> simp only [of] at checked
    case logarithmic =>
      split_ifs at checked
      rw [← Option.some.inj checked, of]
    case triaxial => rw [← Option.some.inj checked]
    case invalid => cases checked
    all_goals rw [← Option.some.inj checked, of]
  simp only [checkHaloConstants, same, kind, Option.some.injEq] at checked
  subst checked
  have long := mul_self_pos.mpr flat.1
  have short := mul_self_pos.mpr flat.2
  generalize h.triaxAngle * M_PI / 180.0 = φ
  have one : Real.cos φ * Real.cos φ + Real.sin φ * Real.sin φ = 1 := by
    rw [← sq, ← sq, Real.cos_sq_add_sin_sq]
  intro zero
  have zero : Real.cos φ * Real.cos φ / (h.flattenX * h.flattenX) +
      Real.sin φ * Real.sin φ / (h.flattenY * h.flattenY) = 0 := zero
  have first := div_nonneg (mul_self_nonneg (Real.cos φ)) long.le
  have second := div_nonneg (mul_self_nonneg (Real.sin φ)) short.le
  have cosine := (div_eq_zero_iff.mp (by linarith :
    Real.cos φ * Real.cos φ / (h.flattenX * h.flattenX) = 0)).resolve_right long.ne'
  have sine := (div_eq_zero_iff.mp (by linarith :
    Real.sin φ * Real.sin φ / (h.flattenY * h.flattenY) = 0)).resolve_right short.ne'
  rw [cosine, sine, add_zero] at one
  exact zero_ne_one one

theorem Halo.DivisibleAt.flat {h : Halo ℝ} (divisible : h.DivisibleAt r)
    (kind : h.type = .triaxial) : h.flattenX ≠ 0 ∧ h.flattenY ≠ 0 := by
  simp only [Halo.DivisibleAt, kind] at divisible
  exact ⟨divisible.1, divisible.2.1⟩

theorem halo_sound (host : RealHost) (h : Halo ℝ) (pos : Vec3 ℝ) (far : r ≠ 0)
    (flat : h.type = .triaxial → h.flattenX ≠ 0 ∧ h.flattenY ≠ 0)
    (wide : h.type = .triaxial → h.c1 ≠ 0) :
    (∃ acc ∈ haloAccel host.traced (h.map .ofGiven) (Vec3.freed pos) (.ofInput false r),
        SoundVec acc) ∧
      (∃ ρ ∈ haloDensity host.traced (h.map .ofGiven) (Vec3.freed pos)
        (.ofInput false r), ρ.sound = true) ↔ h.DivisibleAt r := by
  have point := soundVec_freed pos
  simp only [Halo.DivisibleAt, haloAccel, haloDensity, Halo.type_map]
  cases kind : h.type <;> simp only [RealHost.traced, hostComponents, nbComponents,
    nbDensities, hostAccels, RealHost.library_traced, Option.mem_def, Option.some.injEq,
    exists_eq_left', reduceCtorEq, false_and, exists_const]
  case none => exact iff_true_intro ⟨soundVec_zero, rfl⟩
  case logarithmic =>
    exact (and_congr logHaloAccel_freed logarithmicHaloDensity_freed).trans and_self_iff
  case nfw =>
    rw [nfwHaloAccel_sound point, NFWHaloDensity_sound far]
    simp
  case triaxial =>
    rw [triaxialHaloAccel_freed (wide kind), triaxialHaloDensity_freed (wide kind), and_self_iff,
      ← and_assoc, and_iff_right (flat kind)]
  case caustic => exact iff_true_intro ⟨⟨rfl, rfl, rfl⟩, rfl⟩
  case allenSantillan =>
    rw [ASHaloAccel_sound point]
    constructor
    · rintro ⟨⟨scaled, beyond, -⟩, -⟩
      exact ⟨scaled, beyond⟩
    · rintro ⟨scaled, beyond⟩
      exact ⟨⟨scaled, beyond, by simp⟩, allenSantillanHaloDensity_sound scaled (by simp)⟩
  case wilkinsonEvans =>
    exact iff_true_intro ⟨(WEHaloAccel_sound point).mpr (by simp),
      wilkinsonEvansHaloDensity_sound (by simp)⟩
  case nfwMass =>
    rw [NFWMHaloAccel_sound point]
    simp [NFWMHaloDensity_sound]
  case plummer =>
    exact iff_true_intro ⟨(plummerHaloAccel_sound point).mpr (by simp),
      plummerDensity_sound realLibm_cube⟩
  case hernquist =>
    exact iff_true_intro ⟨(hernquistHaloAccel_sound point).mpr (by simp),
      hernquistHaloDensity_sound⟩
  case ninkovic =>
    rw [ninkovicHaloAccel_sound point]
    constructor
    · rintro ⟨⟨scaled, limited, -⟩, -⟩
      exact ⟨scaled, limited⟩
    · rintro ⟨scaled, limited⟩
      refine ⟨⟨scaled, limited, by simp⟩, ninkovicHaloDensity_sound scaled ?_ (by simp)⟩
      rwa [realLibm_powers.three]

theorem mwCheckNormalPosNum_pos {x : ℝ} (checked : mwCheckNormalPosNum x = false) : 0 < x := by
  unfold mwCheckNormalPosNum at checked
  norm_num at checked
  exact checked

/-- The kind of the bulge is one, and its scale is positive. -/
def Spherical.Positive (s : Spherical ℝ) : Prop :=
  match s.type with
  | .none => True
  | .hernquist | .plummer => 0 < s.scale
  | .invalid => False

theorem sphere_sound (host : RealHost) (point : SoundVec v) {s : Spherical ℝ}
    (positive : s.Positive) (far : 0 < r) :
    (∃ acc ∈ sphericalAccel host.traced (s.map .ofGiven) v (.ofInput g r), SoundVec acc) ∧
      (∃ ρ ∈ sphericalDensity host.traced (s.map .ofGiven) (.ofInput g r),
        ρ.sound = true) := by
  unfold Spherical.Positive at positive
  simp only [sphericalAccel, sphericalDensity, Spherical.type_map]
  cases kind : s.type <;> simp only [kind] at positive ⊢ <;>
    simp [RealHost.traced, hostComponents, nbComponents, nbDensities,
      RealHost.library_traced]
  case none => exact soundVec_zero
  case hernquist =>
    have cubed : realLibm.pow s.scale 3.0 ≠ 0 := by
      rw [realLibm_cube]
      positivity
    refine ⟨(hernquistSphericalAccel_sound point).mpr fun _ => ?_,
      hernquistSphericalDensity_sound cubed⟩
    rw [sqr]
    positivity
  case plummer =>
    refine ⟨(plummerSphericalAccel_sound point).mpr fun _ => ?_, plummerDensity_sound realLibm_cube⟩
    have square : 0 < sqr s.scale + sqr r :=
      add_pos_of_nonneg_of_pos (mul_self_nonneg _) (mul_pos far far)
    have root : 0 < realLibm.sqrt (sqr s.scale + sqr r) := Real.sqrt_pos.mpr square
    rw [realLibm_cube]
    exact (pow_pos root 3).ne'

theorem nbExtAcceleration_isSome {R : Type} [Zero R] [Add R] [Neg R] [Sub R] [Mul R] [Div R]
    [OfScientific R] [LT R] [DecidableLT R] [LE R] [DecidableLE R] (L : Libm R)
    (K : Components R) (pot : Potential R) (pos : Vec3 R) (time : R) :
    (nbExtAcceleration L K pot pos time).isSome =
      ((diskAccel K pot.disk pos (limitedRadius L pos)).isSome &&
        (disk2Accel L K pot.disk2 pos (limitedRadius L pos) time).isSome &&
        (haloAccel K pot.halo pos (limitedRadius L pos)).isSome &&
        (sphericalAccel K pot.sphere pos (limitedRadius L pos)).isSome) := by
  simp only [nbExtAcceleration]
  cases diskAccel K _ _ _ <;> cases disk2Accel L K _ _ _ _ <;> cases haloAccel K _ _ _ <;>
    cases sphericalAccel K _ _ _ <;> rfl

theorem nbExtAcceleration_traced (pot : Potential ℝ) :
    (nbExtAcceleration realLibm.toLibm.traced host.traced (pot.map .ofGiven) v t).isSome =
      (nbExtAcceleration realLibm.toLibm host.components pot pos time).isSome := by
  rw [nbExtAcceleration_isSome, nbExtAcceleration_isSome]
  congr 1
  · congr 1
    · congr 1
      · simp only [diskAccel, Potential.map, Disk.type_map]
        cases pot.disk.type <;> rfl
      · simp only [disk2Accel, diskAccel, Potential.map, Disk.type_map]
        cases pot.disk2.type <;> rfl
    · simp only [haloAccel, Potential.map, Halo.type_map]
      cases pot.halo.type <;> rfl
  · simp only [sphericalAccel, Potential.map, Spherical.type_map]
    cases pot.sphere.type <;> rfl

theorem limitedRadius_pos (pos : Vec3 ℝ) : 0 < limitedRadius realLibm.toLibm pos := by
  by_cases far : realLibm.pow 2.0 (-8.0) ≤ realLibm.sqrt (mw_sqrv pos)
  · rw [limitedRadius_far far]
    exact lt_of_lt_of_le (Real.rpow_pos_of_pos (by norm_num) _) far
  · have near := not_le.mp far
    have limit : limitedRadius realLibm.toLibm pos = realLibm.pow 2.0 (-8.0) := by
      unfold limitedRadius truth
      simp only [near.le, near.not_gt, ↓reduceIte]
      norm_num
    rw [limit]
    exact Real.rpow_pos_of_pos (by norm_num) _

theorem acceptedEvaluable_iff (cosh : ∀ x, 0 < host.bessel.cosh x) {M_PI : ℝ}
    {p q : Potential ℝ} (positive : q.sphere.Positive)
    (checked : checkHaloConstants realLibm.toLibm M_PI p.halo = some q.halo) :
    AcceptedEvaluable host M_PI p q pos time ↔
      (nbExtDensity realLibm.toLibm host.components q pos time).isSome ∧
        (q.disk.type ≠ .orbitingBar ∧ q.disk.DivisibleAt pos.z) ∧ q.disk2.DivisibleAt pos.z ∧
          q.halo.DivisibleAt (limitedRadius realLibm.toLibm pos) := by
  have far := limitedRadius_pos pos
  have distance := limitedRadius_freed realLibm.toLibm pos
  have disk := disk_sound host cosh q.disk pos (limitedRadius realLibm.toLibm pos) time
  have disk2 := disk2_sound host cosh q.disk2 pos (limitedRadius realLibm.toLibm pos) time
  have halo := halo_sound host q.halo pos far.ne'
  have constants := checkHaloConstants_sound checked
  have wide := checkHaloConstants_wide checked
  obtain ⟨sphere, sphere'⟩ := sphere_sound (g := false) host (soundVec_freed pos) positive far
  constructor
  · rintro ⟨known, -, density, moves, weighs⟩
    have flat := constants.mp known
    obtain ⟨a, b, c, -⟩ := (nbExtAcceleration_sound distance).mp moves
    obtain ⟨-, -, a', b', c'⟩ := (nbExtDensity_sound pos rfl distance rfl).mp weighs
    exact ⟨density, disk.mp ⟨a, a'⟩, disk2.mp ⟨b, b'⟩,
      (halo flat fun kind => wide kind (flat kind)).mp ⟨c, c'⟩⟩
  · rintro ⟨density, first, second, third⟩
    obtain ⟨a, a'⟩ := disk.mpr first
    obtain ⟨b, b'⟩ := disk2.mpr second
    obtain ⟨c, c'⟩ := (halo third.flat fun kind => wide kind (third.flat kind)).mpr third
    have moves := (nbExtAcceleration_sound distance).mpr ⟨a, b, c, sphere⟩
    refine ⟨constants.mpr third.flat, ?_, density, moves,
      (nbExtDensity_sound pos rfl distance rfl).mpr ⟨density, sphere', a', b', c'⟩⟩
    obtain ⟨acc, mem, -⟩ := moves
    rw [← nbExtAcceleration_traced (v := Vec3.freed pos) (t := .ofInput false time),
      Option.mem_def.mp mem]
    rfl

/-! ## The accepted potentials -/

/-- Nowhere do the densities of the components add up to a negative number. -/
def NowhereNegative (K : Components ℝ) (pot : Potential ℝ) : Prop :=
  ∀ pos : Vec3 ℝ, pos ≠ 0 → ∀ time,
    ∀ sphere ∈ sphericalDensity K pot.sphere (limitedRadius realLibm.toLibm pos),
    ∀ disk ∈ diskDensity realLibm.toLibm K pot.disk pos time,
    ∀ disk2 ∈ diskDensity realLibm.toLibm K pot.disk2 pos time,
    ∀ halo ∈ haloDensity K pot.halo pos (limitedRadius realLibm.toLibm pos),
      0 ≤ sphere + disk + disk2 + halo

theorem nbExtDensity_isSome (K : Components ℝ) (pot : Potential ℝ) (pos : Vec3 ℝ) (time : ℝ) :
    (nbExtDensity realLibm.toLibm K pot pos time).isSome ↔
      ((sphericalDensity K pot.sphere (limitedRadius realLibm.toLibm pos)).isSome ∧
        (diskDensity realLibm.toLibm K pot.disk pos time).isSome ∧
        (diskDensity realLibm.toLibm K pot.disk2 pos time).isSome ∧
        (haloDensity K pot.halo pos (limitedRadius realLibm.toLibm pos)).isSome) ∧
      ∀ sphere ∈ sphericalDensity K pot.sphere (limitedRadius realLibm.toLibm pos),
        ∀ disk ∈ diskDensity realLibm.toLibm K pot.disk pos time,
        ∀ disk2 ∈ diskDensity realLibm.toLibm K pot.disk2 pos time,
        ∀ halo ∈ haloDensity K pot.halo pos (limitedRadius realLibm.toLibm pos),
          0 ≤ sphere + disk + disk2 + halo := by
  have zero : (0.0 : ℝ) = 0 := by norm_num
  simp only [nbExtDensity]
  cases sphericalDensity K _ _ <;> cases diskDensity _ K _ _ _ <;>
    cases diskDensity _ K _ _ _ <;> cases haloDensity K _ _ _ <;> simp [zero]

theorem Halo.DivisibleAt.mono {h : Halo ℝ} {r s : ℝ} (divisible : h.DivisibleAt s) (le : r ≤ s) :
    h.DivisibleAt r := by
  unfold Halo.DivisibleAt at *
  cases kind : h.type <;> simp only [kind] at divisible ⊢ <;> try exact divisible
  exact ⟨divisible.1, fun beyond => divisible.2 fun inside => beyond (lt_of_le_of_lt le inside)⟩

theorem checkSphericalConstants_positive {s : Spherical ℝ}
    (checked : checkSphericalConstants s = false) : s.Positive := by
  unfold Spherical.Positive
  unfold checkSphericalConstants at checked
  cases kind : s.type <;> simp only [kind, Bool.or_eq_false_iff] at checked ⊢
  case invalid => cases checked
  all_goals exact mwCheckNormalPosNum_pos checked.2

theorem checkDiskConstants_divisible {disk : Disk ℝ} (checked : checkDiskConstants disk = false) :
    disk.Divisible := by
  intro z
  unfold Disk.DivisibleAt
  unfold checkDiskConstants at checked
  cases kind : disk.type <;> simp only [kind, Bool.or_eq_false_iff] at checked ⊢
  case miyamotoNagai => exact fun _ => (mwCheckNormalPosNum_pos checked.2).ne'
  case freeman => exact (mwCheckNormalPosNum_pos checked.2).ne'
  case orbitingBar => exact (mwCheckNormalPosNum_pos checked.1.2).ne'
  case invalid => cases checked
  all_goals
    exact ⟨(mwCheckNormalPosNum_pos checked.1.2).ne', (mwCheckNormalPosNum_pos checked.2).ne'⟩

theorem checkPotentialConstants_components {K : Libm ℝ} {M_PI : ℝ} {p q : Potential ℝ}
    (accepted : checkPotentialConstants K M_PI p = some q) :
    checkSphericalConstants q.sphere = false ∧ checkDiskConstants q.disk = false ∧
      checkHaloConstants K M_PI p.halo = some q.halo := by
  unfold checkPotentialConstants at accepted
  split_ifs at accepted with bad
  obtain ⟨h, checked, rfl⟩ := Option.map_eq_some_iff.mp accepted
  rw [Bool.or_eq_true, not_or, Bool.not_eq_true, Bool.not_eq_true] at bad
  exact ⟨bad.1, bad.2, checked⟩

theorem isSome_of_sound {o : Option (Traced ℝ)} {plain : Option ℝ} (values : o.map value = plain)
    (sound : ∃ ρ ∈ o, ρ.sound = true) : plain.isSome := by
  obtain ⟨ρ, mem, -⟩ := sound
  rw [← values, Option.mem_def.mp mem]
  rfl

theorem limitedRadius_over {r : ℝ} (far : 1 ≤ r) (z : ℝ) :
    r ≤ limitedRadius realLibm.toLibm ⟨r, 0, z⟩ := by
  have radius : r ≤ realLibm.sqrt (mw_sqrv ⟨r, 0, z⟩) := by
    refine Real.le_sqrt_of_sq_le ?_
    simp only [mw_sqrv]
    nlinarith [mul_self_nonneg z]
  rwa [limitedRadius_far]
  exact le_trans (Real.rpow_le_one_of_one_le_of_nonpos (by norm_num) (by norm_num))
    (far.trans radius)

theorem over_ne_zero {r : ℝ} (far : 1 ≤ r) (z : ℝ) : (⟨r, 0, z⟩ : Vec3 ℝ) ≠ 0 := by
  intro zero
  have first : r = 0 := congrArg Vec3.x zero
  linarith

/-- A Plummer bulge alone. -/
noncomputable def restingPotential : Potential ℝ where
  sphere := ⟨.plummer, 1, 1⟩
  disk := ⟨.none, 1, 0, 0, 0, 0⟩
  disk2 := ⟨.none, 0, 0, 0, 0, 0⟩
  halo := ⟨.none, 0, 0, 0, 0, 0, 0, 0, 0, 0, 0, 0, 0, 0⟩

/-- A Plummer bulge in a bar. -/
noncomputable def barPotential : Potential ℝ :=
  { restingPotential with disk := ⟨.orbitingBar, 1, 1, 1, 0, 0⟩ }

theorem restingPotential_checked :
    checkPotentialConstants realLibm.toLibm Real.pi restingPotential = some restingPotential := by
  have positive : mwCheckNormalPosNum (1 : ℝ) = false := by
    unfold mwCheckNormalPosNum
    norm_num
  simp [checkPotentialConstants, checkSphericalConstants, checkDiskConstants, checkHaloConstants,
    restingPotential, positive]

/-- No potential here asks for a Bessel function or for the caustic halo. -/
noncomputable def plainHost : RealHost where
  bessel :=
    { realLibm with
      sinh := Real.sinh
      cosh := Real.cosh
      besselJ0 := fun _ => 0
      besselJ1 := fun _ => 0
      besselJ2 := fun _ => 0
      besselI0 := fun _ => 0
      besselI1 := fun _ => 0
      besselK0 := fun _ => 0
      besselK1 := fun _ => 0
      besselJ0_zero := fun _ => 0
      besselJ1_zero := fun _ => 0
      aExp := fun _ _ _ => 0
      bExp := fun _ _ _ => 0 }
  causticHaloAccel := fun _ _ => 0
  base := noComponents
  tracedBase := ⟨fun _ _ _ _ => 0, fun _ _ _ _ => 0, fun _ _ _ _ => 0, fun _ _ _ => 0,
    fun _ _ _ _ => 0, fun _ _ _ => 0, fun _ => (0, false)⟩

theorem restingPotential_nowhereNegative :
    NowhereNegative plainHost.components restingPotential := by
  intro pos _ time sphere plummer disk first disk2 second halo third
  obtain rfl := Option.some.inj plummer
  obtain rfl := Option.some.inj first
  obtain rfl := Option.some.inj second
  obtain rfl := Option.some.inj third
  have density := plummerDensity_eq (L := realLibm) realLibm_powers one_pos 1
    (limitedRadius realLibm.toLibm pos)
  have pi := programPi_pos
  change 0 ≤ plummerDensity realLibm.toLibm 1 1 (limitedRadius realLibm.toLibm pos) + 0.0 + 0.0 +
    0.0
  rw [density]
  positivity

end MilkyWay.NBody
