import MilkyWay.NBody.PotentialCL

/-! The external potential of the kernels against that of the host over the reals. The
square root and the powers are the real ones; the other functions of the library are
any, the same on both sides. Each kind of component has a lemma, and what differs is
collected in `defect`. -/

namespace MilkyWay.NBody
open Foundation

/-- The square root and the powers are those of the reals. -/
structure RealPowers (L : Libm ℝ) : Prop where
  sqrt (x : ℝ) : L.sqrt x = Real.sqrt x
  pow (x y : ℝ) : L.pow x y = x ^ y

namespace RealPowers
variable {L : Libm ℝ} (powers : RealPowers L)
include powers

theorem two (x : ℝ) : L.pow x 2.0 = sqr x := by
  rw [powers.pow, show (2.0 : ℝ) = (2 : ℕ) by norm_num, Real.rpow_natCast, sqr, sq]

theorem three (x : ℝ) : L.pow x 3.0 = cube x := by
  rw [powers.pow, show (3.0 : ℝ) = (3 : ℕ) by norm_num, Real.rpow_natCast, cube]
  ring

theorem half (x : ℝ) : L.pow x 0.5 = L.sqrt x := by
  rw [powers.pow, powers.sqrt, Real.sqrt_eq_rpow]
  norm_num

theorem threeHalves {x : ℝ} (nonneg : 0 ≤ x) : L.pow x 1.5 = L.sqrt (cube x) := by
  have power : cube x = x ^ (3 : ℝ) := by
    rw [show (3 : ℝ) = (3 : ℕ) by norm_num, Real.rpow_natCast, cube]
    ring
  rw [powers.pow, powers.sqrt, power, Real.sqrt_eq_rpow, ← Real.rpow_mul nonneg]
  norm_num

theorem pred {x : ℝ} (nonzero : x ≠ 0) (y : ℝ) :
    L.pow x (y - 1.0) = L.pow x (y - 2.0) * x := by
  rw [powers.pow, powers.pow, show y - 1.0 = y - 2.0 + 1 by norm_num; ring,
    Real.rpow_add_one nonzero]

end RealPowers

/-! ## The components -/

variable {L : LogLibm ℝ} {p : Potential ℝ} {pos : Vec3 ℝ} {r : ℝ}

theorem miyamotoNagai_flags (powers : RealPowers L.toLibm) :
    CL.miyamotoNagaiDiskAccel L.toLibm (nbGetCompileFlags p) pos =
      miyamotoNagaiDiskAccel L.toLibm p.disk pos := by
  simp only [CL.miyamotoNagaiDiskAccel, miyamotoNagaiDiskAccel, nbGetCompileFlags, powers.two,
    powers.half]
  rw [powers.threeHalves]
  exact add_nonneg (add_nonneg (mul_self_nonneg _) (mul_self_nonneg _)) (mul_self_nonneg _)

theorem leg_pol_derv_eq {l : ℕ} (positive : 0 < l) (x : ℝ) :
    CL.leg_pol_derv L x l = leg_pol_derv L x l := by
  have terms : (l + 1) / 2 = (l - 1) / 2 + 1 := by omega
  rw [CL.leg_pol_derv, leg_pol_derv, terms]

theorem freemanParts_eq (M scl : ℝ) :
    freemanParts L (CL.leg_pol_derv L) M scl pos r =
      freemanParts L (leg_pol_derv L) M scl pos r := by
  have sums : ∀ costheta sintheta, freemanSums L (CL.leg_pol_derv L) scl r costheta sintheta =
      freemanSums L (leg_pol_derv L) scl r costheta sintheta := by
    intro costheta sintheta
    unfold freemanSums
    congr 1
    funext s l
    by_cases positive : 0 < l
    · have doubled : 0 < 2 * l := by omega
      simp only [leg_pol_derv_eq doubled]
    · simp only [positive, ↓reduceIte]
  simp only [freemanParts, sums]

theorem freeman_flags :
    CL.freemanDiskAccel L (nbGetCompileFlags p) pos r =
      ⟨(freemanDiskAccel L p.disk pos r).z, 0, 0⟩ := by
  simp only [CL.freemanDiskAccel, freemanDiskAccel, nbGetCompileFlags, freemanParts_eq]
  rfl

theorem logHalo_flags (powers : RealPowers L.toLibm) (flatten : p.halo.flattenZ ≠ 0) :
    CL.logHaloAccel (nbGetCompileFlags p) pos = logHaloAccel L.toLibm p.halo pos := by
  have outer : sqr (pos.z / p.halo.flattenZ) = sqr pos.z / sqr p.halo.flattenZ := by
    simp only [sqr]
    field_simp
  have inner : sqr p.halo.flattenZ * (sqr p.halo.scaleLength + sqr pos.x + sqr pos.y) +
      sqr pos.z = (sqr p.halo.scaleLength + sqr pos.x + sqr pos.y +
        sqr pos.z / sqr p.halo.flattenZ) * (p.halo.flattenZ * p.halo.flattenZ) := by
    simp only [sqr]
    field_simp
  simp only [CL.logHaloAccel, logHaloAccel, nbGetCompileFlags, powers.two, outer, inner]
  rw [add_comm (sqr pos.z / _)]
  generalize (2.0 : ℝ) = two
  ext
  · simp only [sqr]
    ring
  · simp only [sqr]
    ring
  · simp only [← div_div]
    simp only [sqr]
    ring

theorem nfwHalo_flags (far : r ≠ 0) (regular : p.halo.scaleLength + r ≠ 0) :
    CL.nfwHaloAccel L (nbGetCompileFlags p) pos r = nfwHaloAccel L p.halo pos r := by
  simp only [CL.nfwHaloAccel, nfwHaloAccel, nbGetCompileFlags]
  congr 1
  generalize L.log ((p.halo.scaleLength + r) / p.halo.scaleLength) = ℓ
  simp only [sqr, cube]
  norm_num
  field_simp
  ring

theorem scaled_eq (pos : Vec3 ℝ) (c : ℝ) :
    (⟨pos.x * c, pos.y * c, pos.z * c⟩ : Vec3 ℝ) = c • pos := by
  ext <;> exact mul_comm _ c

theorem scaled_div_eq (pos : Vec3 ℝ) (c s : ℝ) :
    (⟨pos.x * c / s, pos.y * c / s, pos.z * c / s⟩ : Vec3 ℝ) = (c / s) • pos := by
  simp only [mul_div_assoc, scaled_eq]

theorem ASHalo_flags (powers : RealPowers L.toLibm) (far : r ≠ 0) :
    CL.ASHaloAccel L.toLibm (nbGetCompileFlags p) pos r =
      ASHaloAccel L.toLibm p.halo pos r := by
  have same : -(p.halo.mass / sqr p.halo.scaleLength) *
      L.pow (r / p.halo.scaleLength) (p.halo.gamma - 2.0) =
      -(p.halo.mass / (p.halo.scaleLength * r)) *
        L.pow (r / p.halo.scaleLength) (p.halo.gamma - 1.0) := by
    by_cases flat : p.halo.scaleLength = 0
    · simp [flat, sqr]
    · rw [powers.pred (div_ne_zero far flat)]
      simp only [sqr]
      field_simp
  simp only [CL.ASHaloAccel, ASHaloAccel, nbGetCompileFlags, same, powers.two, scaled_div_eq]

theorem WEHalo_flags :
    CL.WEHaloAccel L.toLibm (nbGetCompileFlags p) pos r =
      WEHaloAccel L.toLibm p.halo pos r := by
  simp only [CL.WEHaloAccel, WEHaloAccel, nbGetCompileFlags, scaled_div_eq]

theorem NFWMHalo_flags :
    CL.NFWMHaloAccel L (nbGetCompileFlags p) pos r = NFWMHaloAccel L p.halo pos r := by
  simp only [CL.NFWMHaloAccel, NFWMHaloAccel, nbGetCompileFlags, scaled_eq]

theorem plummerHalo_flags :
    CL.plummerHaloAccel L.toLibm (nbGetCompileFlags p) pos r =
      plummerHaloAccel L.toLibm p.halo pos r := by
  simp only [CL.plummerHaloAccel, plummerHaloAccel, nbGetCompileFlags, scaled_div_eq]

theorem hernquistHalo_flags :
    CL.hernquistHaloAccel (nbGetCompileFlags p) pos r = hernquistHaloAccel p.halo pos r := by
  simp only [CL.hernquistHaloAccel, hernquistHaloAccel, nbGetCompileFlags, scaled_div_eq]

theorem ninkovicHalo_flags :
    CL.ninkovicHaloAccel L (nbGetCompileFlags p) pos r = ninkovicHaloAccel L p.halo pos r := by
  simp only [CL.ninkovicHaloAccel, scaled_div_eq]
  rfl

/-! ## The deviations -/

/-- The kinds of disks that the kernels have code for. -/
def DiskType.HasCode (type : DiskType) : Prop :=
  type = .none ∨ type = .miyamotoNagai ∨ type = .freeman

/-- The acceleration that the kernels compute for a disk of a kind, in terms of the
host's formulas: with the constants of the first disk, a Freeman one in a single
coordinate. -/
noncomputable def diskCL (L : LogLibm ℝ) (p : Potential ℝ) (type : DiskType) (pos : Vec3 ℝ)
    (r : ℝ) : Vec3 ℝ :=
  match type with
  | .miyamotoNagai => miyamotoNagaiDiskAccel L.toLibm p.disk pos
  | .freeman => ⟨(freemanDiskAccel L p.disk pos r).z, 0, 0⟩
  | _ => 0

noncomputable def diskDefect (L : LogLibm ℝ) (p : Potential ℝ) (pos : Vec3 ℝ) (r : ℝ) :
    Vec3 ℝ :=
  match p.disk.type with
  | .freeman => diskCL L p .freeman pos r - freemanDiskAccel L p.disk pos r
  | _ => 0

noncomputable def disk2Defect (L : LogLibm ℝ) (p : Potential ℝ) (pos : Vec3 ℝ) (r : ℝ) :
    Vec3 ℝ :=
  match p.disk2.type with
  | .miyamotoNagai =>
    diskCL L p .miyamotoNagai pos r - miyamotoNagaiDiskAccel L.toLibm p.disk2 pos
  | .freeman => diskCL L p .freeman pos r - freemanDiskAccel L p.disk2 pos r
  | _ => 0

/-- A caustic halo counts the second disk again; an NFW halo of scale length `-r` is
divided by zero in another place. -/
noncomputable def haloDefect (L : LogLibm ℝ) (H : HostAccels ℝ) (p : Potential ℝ)
    (pos : Vec3 ℝ) (r : ℝ) : Vec3 ℝ :=
  match p.halo.type with
  | .caustic => diskCL L p p.disk2.type pos r - H.causticHaloAccel p.halo pos r
  | .nfw => if p.halo.scaleLength + r = 0 then -nfwHaloAccel L p.halo pos r else 0
  | _ => 0

noncomputable def sphericalDefect (L : LogLibm ℝ) (p : Potential ℝ) (pos : Vec3 ℝ) (r : ℝ) :
    Vec3 ℝ :=
  match p.sphere.type with
  | .plummer => -plummerSphericalAccel L.toLibm p.sphere pos r
  | _ => 0

/-- What the kernels add to the acceleration of the host. -/
noncomputable def defect (L : LogLibm ℝ) (H : HostAccels ℝ) (p : Potential ℝ) (pos : Vec3 ℝ)
    (r : ℝ) : Vec3 ℝ :=
  diskDefect L p pos r + disk2Defect L p pos r + haloDefect L H p pos r +
    sphericalDefect L p pos r

theorem diskCL_flags (powers : RealPowers L.toLibm) {type : DiskType} (code : type.HasCode) :
    CL.diskAccel L (nbGetCompileFlags p) type.toInt pos r = some (diskCL L p type pos r) := by
  obtain rfl | rfl | rfl := code
  · rfl
  · exact congrArg some (miyamotoNagai_flags powers)
  · exact congrArg some freeman_flags

theorem diskAccel_noCode {D : PotentialDefines ℝ} {type : DiskType} (noCode : ¬type.HasCode) :
    CL.diskAccel L D type.toInt pos r = none := by
  cases type with
  | none => exact absurd (.inl rfl) noCode
  | miyamotoNagai => exact absurd (.inr (.inl rfl)) noCode
  | freeman => exact absurd (.inr (.inr rfl)) noCode
  | doubleExponential | sech2Exponential | orbitingBar | invalid => rfl

variable {H : HostAccels ℝ} {K : Components ℝ}

theorem diskAccel_flags (powers : RealPowers L.toLibm) (code : p.disk.type.HasCode)
    (pos : Vec3 ℝ) (r : ℝ) :
    ∃ a, diskAccel (nbComponents L H K) p.disk pos r = some a ∧
      CL.diskAccel L (nbGetCompileFlags p) p.disk.type.toInt pos r =
        some (a + diskDefect L p pos r) := by
  rw [diskCL_flags powers code]
  unfold diskAccel diskDefect
  obtain kind | kind | kind := code <;> rw [kind]
  · exact ⟨_, rfl, congrArg some (add_zero _).symm⟩
  · exact ⟨_, rfl, congrArg some (add_zero _).symm⟩
  · exact ⟨_, rfl, congrArg some (add_sub_cancel _ _).symm⟩

theorem disk2Accel_flags (powers : RealPowers L.toLibm) (code : p.disk2.type.HasCode)
    (pos : Vec3 ℝ) (r time : ℝ) :
    ∃ a, disk2Accel L.toLibm (nbComponents L H K) p.disk2 pos r time = some a ∧
      CL.diskAccel L (nbGetCompileFlags p) p.disk2.type.toInt pos r =
        some (diskCL L p p.disk2.type pos r) ∧
      diskCL L p p.disk2.type pos r = a + disk2Defect L p pos r := by
  rw [diskCL_flags powers code]
  unfold disk2Accel diskAccel disk2Defect
  obtain kind | kind | kind := code <;> rw [kind]
  · exact ⟨_, rfl, rfl, (add_zero _).symm⟩
  · exact ⟨_, rfl, rfl, (add_sub_cancel _ _).symm⟩
  · exact ⟨_, rfl, rfl, (add_sub_cancel _ _).symm⟩

structure Accepted (p : Potential ℝ) : Prop where
  sphere : p.sphere.type ≠ .invalid
  halo : p.halo.type ≠ .invalid
  flatten : p.halo.type = .logarithmic → p.halo.flattenZ ≠ 0

theorem haloAccel_flags (powers : RealPowers L.toLibm) (accepted : Accepted p) (far : r ≠ 0)
    (pos : Vec3 ℝ) :
    ∃ a, haloAccel (nbComponents L H K) p.halo pos r = some a ∧
      CL.haloAccel L (nbGetCompileFlags p) (diskCL L p p.disk2.type pos r) pos r =
        a + haloDefect L H p pos r := by
  have kindFlag : (nbGetCompileFlags p).HALO_TYPE = p.halo.type.toInt := rfl
  unfold haloAccel CL.haloAccel haloDefect
  rw [kindFlag]
  cases kind : p.halo.type with
  | invalid => exact absurd kind accepted.halo
  | none => exact ⟨_, rfl, (add_zero _).symm⟩
  | logarithmic =>
    exact ⟨_, rfl, (logHalo_flags powers (accepted.flatten kind)).trans (add_zero _).symm⟩
  | nfw =>
    refine ⟨_, rfl, ?_⟩
    by_cases singular : p.halo.scaleLength + r = 0
    · rw [if_pos singular]
      refine Eq.trans ?_ (add_neg_cancel _).symm
      have vanishes : 0.2162165954 * cube r * (p.halo.scaleLength + r) = 0 := by
        rw [singular, mul_zero]
      simp only [HaloType.toInt, CL.nfwHaloAccel, nbGetCompileFlags, vanishes, div_zero]
      exact zero_smul ℝ pos
    · rw [if_neg singular]
      exact (nfwHalo_flags far singular).trans (add_zero _).symm
  | triaxial => exact ⟨_, rfl, (add_zero _).symm⟩
  | caustic => exact ⟨_, rfl, (add_sub_cancel _ _).symm⟩
  | allenSantillan => exact ⟨_, rfl, (ASHalo_flags powers far).trans (add_zero _).symm⟩
  | wilkinsonEvans => exact ⟨_, rfl, WEHalo_flags.trans (add_zero _).symm⟩
  | nfwMass => exact ⟨_, rfl, NFWMHalo_flags.trans (add_zero _).symm⟩
  | plummer => exact ⟨_, rfl, plummerHalo_flags.trans (add_zero _).symm⟩
  | hernquist => exact ⟨_, rfl, hernquistHalo_flags.trans (add_zero _).symm⟩
  | ninkovic => exact ⟨_, rfl, ninkovicHalo_flags.trans (add_zero _).symm⟩

theorem sphericalAccel_flags (accepted : Accepted p) (acctmp pos : Vec3 ℝ) (r : ℝ) :
    ∃ a, sphericalAccel (nbComponents L H K) p.sphere pos r = some a ∧
      CL.sphericalAccel L (nbGetCompileFlags p) acctmp pos r =
        a + sphericalDefect L p pos r := by
  have kindFlag : (nbGetCompileFlags p).SPHERE_TYPE = p.sphere.type.toInt := rfl
  unfold sphericalAccel CL.sphericalAccel sphericalDefect
  rw [kindFlag]
  cases kind : p.sphere.type with
  | invalid => exact absurd kind accepted.sphere
  | none => exact ⟨_, rfl, (add_zero _).symm⟩
  | hernquist => exact ⟨_, rfl, (add_zero _).symm⟩
  | plummer => exact ⟨_, rfl, (add_neg_cancel _).symm⟩

theorem limitedRadius_far (far : L.pow 2.0 (-8.0) ≤ L.sqrt (mw_sqrv pos)) :
    limitedRadius L.toLibm pos = L.sqrt (mw_sqrv pos) := by
  unfold limitedRadius truth
  rcases far.eq_or_lt with same | above
  · rw [← same]
    norm_num
  · simp only [above, not_le.mpr above, ↓reduceIte]
    norm_num

theorem radius_eq (pos : Vec3 ℝ) :
    sqr pos.x + sqr pos.y + sqr pos.z = mw_sqrv pos := by
  simp only [sqr, mw_sqrv]
  ring

theorem externalAcceleration_defect (powers : RealPowers L.toLibm) (accepted : Accepted p)
    (code : p.disk.type.HasCode) (code2 : p.disk2.type.HasCode)
    (far : L.pow 2.0 (-8.0) ≤ L.sqrt (mw_sqrv pos)) (time : ℝ) :
    ∃ a, nbExtAcceleration L.toLibm (nbComponents L H K) p pos time = some a ∧
      CL.externalAcceleration L (nbGetCompileFlags p) pos.x pos.y pos.z =
        some (a + defect L H p pos (L.sqrt (mw_sqrv pos))) := by
  have positive : 0 < L.sqrt (mw_sqrv pos) := by
    refine lt_of_lt_of_le ?_ far
    rw [powers.pow]
    exact Real.rpow_pos_of_pos (by norm_num) _
  generalize radius : L.sqrt (mw_sqrv pos) = r at *
  obtain ⟨a, hostDisk, disk⟩ := diskAccel_flags (H := H) (K := K) powers code pos r
  obtain ⟨b, hostDisk2, disk2, sum2⟩ :=
    disk2Accel_flags (H := H) (K := K) powers code2 pos r time
  obtain ⟨c, hostHalo, halo⟩ := haloAccel_flags (H := H) (K := K) powers accepted positive.ne' pos
  obtain ⟨d, hostSphere, sphere⟩ := sphericalAccel_flags (L := L) (H := H) (K := K) accepted
    (CL.haloAccel L (nbGetCompileFlags p) (diskCL L p p.disk2.type pos r) pos r) pos r
  have total : a + diskDefect L p pos r + (b + disk2Defect L p pos r) +
      (c + haloDefect L H p pos r) + (d + sphericalDefect L p pos r) =
        a + b + c + d + defect L H p pos r := by
    unfold defect
    abel
  refine ⟨a + b + c + d, ?_, ?_⟩
  · rw [nbExtAcceleration, limitedRadius_far (radius.symm ▸ far), radius]
    exact Option.bind_eq_some_iff.mpr ⟨a, hostDisk, Option.bind_eq_some_iff.mpr
      ⟨b, hostDisk2, Option.bind_eq_some_iff.mpr ⟨c, hostHalo, Option.bind_eq_some_iff.mpr
        ⟨d, hostSphere, rfl⟩⟩⟩⟩
  · rw [CL.externalAcceleration, radius_eq, radius]
    refine Option.bind_eq_some_iff.mpr ⟨_, disk, Option.bind_eq_some_iff.mpr ⟨_, disk2, ?_⟩⟩
    refine congrArg some ?_
    rw [← total, ← sum2]
    exact congrArg₂ (· + ·) (congrArg₂ (· + ·) rfl halo) sphere

theorem checkHaloConstants_some {M_PI : ℝ} {h h' : Halo ℝ}
    (checked : checkHaloConstants L.toLibm M_PI h = some h') :
    h'.type ≠ .invalid ∧
      (h'.type = .logarithmic → L.pow 2.0 (-0.5) ≤ h'.flattenZ) := by
  unfold checkHaloConstants at checked
  cases kind : h.type with
  | invalid =>
    rw [kind] at checked
    exact nomatch checked
  | logarithmic =>
    rw [kind] at checked
    split_ifs at checked with flat
    obtain rfl := Option.some.inj checked
    exact ⟨by rw [kind]; nofun, fun _ => not_lt.mp flat⟩
  | triaxial =>
    rw [kind] at checked
    obtain rfl := Option.some.inj checked
    exact ⟨nofun, nofun⟩
  | none | nfw | caustic | allenSantillan | wilkinsonEvans | nfwMass | plummer | hernquist
    | ninkovic =>
    rw [kind] at checked
    obtain rfl := Option.some.inj checked
    exact ⟨by rw [kind]; nofun, fun logarithmic => nomatch kind.symm.trans logarithmic⟩

theorem checkPotentialConstants_accepted (powers : RealPowers L.toLibm) {M_PI : ℝ}
    {p₀ : Potential ℝ} (checked : checkPotentialConstants L.toLibm M_PI p₀ = some p) :
    Accepted p := by
  unfold checkPotentialConstants at checked
  split_ifs at checked with bad
  obtain ⟨h, haloChecked, rfl⟩ := Option.map_eq_some_iff.mp checked
  obtain ⟨valid, flatten⟩ := checkHaloConstants_some haloChecked
  refine ⟨fun invalid => bad ?_, valid, fun logarithmic => ?_⟩
  · unfold checkSphericalConstants
    rw [show p₀.sphere.type = .invalid from invalid]
    rfl
  · have positive : 0 < L.pow 2.0 (-0.5) := by
      rw [powers.pow]
      exact Real.rpow_pos_of_pos (by norm_num) _
    exact (positive.trans_le (flatten logarithmic)).ne'

/-- The kernels and the host agree at a point, whatever the time, exactly where both
disks are of kinds with code and the deviations cancel. -/
theorem externalAcceleration_iff (powers : RealPowers L.toLibm) {M_PI : ℝ} {p₀ : Potential ℝ}
    (checked : checkPotentialConstants L.toLibm M_PI p₀ = some p)
    (far : L.pow 2.0 (-8.0) ≤ L.sqrt (mw_sqrv pos)) (time : ℝ) :
    (∃ a, CL.externalAcceleration L (nbGetCompileFlags p) pos.x pos.y pos.z = some a ∧
      nbExtAcceleration L.toLibm (nbComponents L H K) p pos time = some a) ↔
    p.disk.type.HasCode ∧ p.disk2.type.HasCode ∧
      defect L H p pos (L.sqrt (mw_sqrv pos)) = 0 := by
  have accepted := checkPotentialConstants_accepted powers checked
  constructor
  · rintro ⟨a, device, host⟩
    obtain ⟨b, disk, rest⟩ := Option.bind_eq_some_iff.mp device
    obtain ⟨c, disk2, -⟩ := Option.bind_eq_some_iff.mp rest
    have code : p.disk.type.HasCode := by
      by_contra noCode
      exact nomatch disk.symm.trans (diskAccel_noCode noCode)
    have code2 : p.disk2.type.HasCode := by
      by_contra noCode
      exact nomatch disk2.symm.trans (diskAccel_noCode noCode)
    refine ⟨code, code2, ?_⟩
    obtain ⟨a', host', device'⟩ := externalAcceleration_defect (H := H) (K := K) powers accepted
      code code2 far time
    obtain rfl : a = a' := Option.some.inj (host.symm.trans host')
    exact left_eq_add.mp (Option.some.inj (device.symm.trans device'))
  · rintro ⟨code, code2, cancel⟩
    obtain ⟨a, host, device⟩ := externalAcceleration_defect (H := H) (K := K) powers accepted
      code code2 far time
    rw [cancel, add_zero] at device
    exact ⟨a, device, host⟩

structure Kept (p : Potential ℝ) (r : ℝ) : Prop where
  disk : p.disk.type = .none ∨ p.disk.type = .miyamotoNagai
  disk2 : p.disk2.type = .none ∨ p.disk2.type = .miyamotoNagai ∧ p.disk2.mass = p.disk.mass ∧
    p.disk2.scaleLength = p.disk.scaleLength ∧ p.disk2.scaleHeight = p.disk.scaleHeight
  halo : p.halo.type ≠ .caustic
  regular : p.halo.type = .nfw → p.halo.scaleLength + r ≠ 0

theorem Kept.defect_eq (kept : Kept p r) : defect L H p pos r = sphericalDefect L p pos r := by
  have disk : diskDefect L p pos r = 0 := by
    unfold diskDefect
    obtain kind | kind := kept.disk <;> rw [kind]
  have disk2 : disk2Defect L p pos r = 0 := by
    unfold disk2Defect
    obtain kind | ⟨kind, mass, length, height⟩ := kept.disk2 <;> rw [kind]
    simp only [diskCL, miyamotoNagaiDiskAccel, mass, length, height]
    exact sub_self _
  have halo : haloDefect L H p pos r = 0 := by
    unfold haloDefect
    cases kind : p.halo.type with
    | caustic => exact absurd kind kept.halo
    | nfw => exact if_neg (kept.regular kind)
    | none | logarithmic | triaxial | allenSantillan | wilkinsonEvans | nfwMass | plummer
      | hernquist | ninkovic | invalid => rfl
  rw [defect, disk, disk2, halo, add_zero, add_zero, zero_add]

/-- Without a Plummer bulge nothing is lost of such a potential. -/
theorem Kept.defect_eq_zero (kept : Kept p r) (bulge : p.sphere.type ≠ .plummer) :
    defect L H p pos r = 0 := by
  rw [kept.defect_eq]
  unfold sphericalDefect
  cases kind : p.sphere.type with
  | plummer => exact absurd kind bulge
  | none | hernquist | invalid => rfl

/-- A Plummer bulge with mass is missed everywhere but at the centre. -/
theorem Kept.defect_ne_zero (powers : RealPowers L.toLibm) (kept : Kept p r)
    (bulge : p.sphere.type = .plummer) (mass : p.sphere.mass ≠ 0) (far : r ≠ 0)
    (away : pos ≠ 0) : defect L H p pos r ≠ 0 := by
  have deep : 0 < sqr p.sphere.scale + sqr r :=
    add_pos_of_nonneg_of_pos (mul_self_nonneg _) (mul_self_pos.mpr far)
  have tmp : L.sqrt (sqr p.sphere.scale + sqr r) ≠ 0 := by
    rw [powers.sqrt]
    exact (Real.sqrt_pos.mpr deep).ne'
  have coefficient : -p.sphere.mass / L.pow (L.sqrt (sqr p.sphere.scale + sqr r)) 3.0 ≠ 0 := by
    rw [powers.three]
    exact div_ne_zero (neg_ne_zero.mpr mass) (mul_ne_zero (mul_ne_zero tmp tmp) tmp)
  rw [kept.defect_eq, sphericalDefect, bulge]
  intro vanishes
  have field := neg_eq_zero.mp vanishes
  refine away (Vec3.ext ?_ ?_ ?_)
  · exact (mul_eq_zero.mp (congrArg Vec3.x field)).resolve_left coefficient
  · exact (mul_eq_zero.mp (congrArg Vec3.y field)).resolve_left coefficient
  · exact (mul_eq_zero.mp (congrArg Vec3.z field)).resolve_left coefficient

/-! ## A Plummer bulge -/

open Foundation.Numerals in
/-- The functions of the library on the reals. -/
noncomputable def realLibm : LogLibm ℝ where
  sqrt := Real.sqrt
  exp := Real.exp
  atan := Real.arctan
  cos := Real.cos
  sin := Real.sin
  erf x := 2 / Real.sqrt Real.pi *
    intervalIntegral (fun t => Real.exp (-t ^ 2)) 0 x MeasureTheory.volume
  pow x y := x ^ y
  log := Real.log

theorem realLibm_powers : RealPowers realLibm.toLibm := ⟨fun _ => rfl, fun _ _ => rfl⟩

/-- A bulge of a kind in a Miyamoto–Nagai disk and a logarithmic halo. -/
noncomputable def bulgePotential (type : SphericalType) : Potential ℝ where
  sphere := ⟨type, 1, 1⟩
  disk := ⟨.miyamotoNagai, 1, 1, 1, 0, 0⟩
  disk2 := ⟨.none, 0, 0, 0, 0, 0⟩
  halo := ⟨.logarithmic, 1, 1, 1, 1, 1, 0, 0, 0, 0, 0, 0, 0, 0⟩

noncomputable def noAccels : HostAccels ℝ := ⟨fun _ _ _ => 0, fun _ _ _ => 0, fun _ _ _ => 0⟩

noncomputable def noComponents : Components ℝ :=
  ⟨fun _ _ _ _ => 0, fun _ _ _ _ => 0, fun _ _ _ _ => 0, fun _ _ _ => 0, fun _ _ _ _ => 0,
    fun _ _ _ => 0, fun _ => (0, false)⟩

theorem bulgePotential_checked (type : SphericalType) (valid : type ≠ .invalid) :
    checkPotentialConstants realLibm.toLibm Real.pi (bulgePotential type) =
      some (bulgePotential type) := by
  have positive : mwCheckNormalPosNum (1 : ℝ) = false := by
    unfold mwCheckNormalPosNum
    norm_num
  have sphere : checkSphericalConstants (bulgePotential type).sphere = false := by
    cases type with
    | invalid => exact absurd rfl valid
    | none => rfl
    | hernquist | plummer =>
      simp only [checkSphericalConstants, bulgePotential, positive, Bool.or_false]
  have disk : checkDiskConstants (bulgePotential type).disk = false := by
    simp only [checkDiskConstants, bulgePotential, positive, Bool.or_false]
  have steep : ¬(1 : ℝ) < realLibm.pow 2.0 (-0.5) :=
    not_lt.mpr (Real.rpow_le_one_of_one_le_of_nonpos (by norm_num) (by norm_num))
  have halo : checkHaloConstants realLibm.toLibm Real.pi (bulgePotential type).halo =
      some (bulgePotential type).halo := if_neg steep
  rw [checkPotentialConstants, sphere, disk, halo]
  rfl

theorem one_far : realLibm.pow 2.0 (-8.0) ≤ realLibm.sqrt (mw_sqrv ⟨1, 0, 0⟩) := by
  have radius : realLibm.sqrt (mw_sqrv ⟨1, 0, 0⟩) = 1 := by
    simp only [mw_sqrv, mul_zero, mul_one, zero_add]
    exact Real.sqrt_one
  rw [radius]
  exact Real.rpow_le_one_of_one_le_of_nonpos (by norm_num) (by norm_num)

theorem bulgePotential_kept (type : SphericalType) (r : ℝ) : Kept (bulgePotential type) r :=
  ⟨.inr rfl, .inl rfl, nofun, nofun⟩

/-- The kernels do not pull towards a Plummer bulge. -/
theorem externalAcceleration_ne_plummer :
    checkPotentialConstants realLibm.toLibm Real.pi (bulgePotential .plummer) =
      some (bulgePotential .plummer) ∧
    realLibm.pow 2.0 (-8.0) ≤ realLibm.sqrt (mw_sqrv ⟨1, 0, 0⟩) ∧
    ¬∃ a, CL.externalAcceleration realLibm (nbGetCompileFlags (bulgePotential .plummer)) 1 0 0 =
        some a ∧
      nbExtAcceleration realLibm.toLibm (nbComponents realLibm noAccels noComponents)
        (bulgePotential .plummer) ⟨1, 0, 0⟩ 0 = some a := by
  have checked := bulgePotential_checked .plummer nofun
  refine ⟨checked, one_far, ?_⟩
  rintro ⟨a, device, host⟩
  obtain ⟨a', host', device'⟩ := externalAcceleration_defect (H := noAccels)
    (K := noComponents) realLibm_powers (checkPotentialConstants_accepted realLibm_powers checked)
    (.inr (.inl rfl)) (.inl rfl) one_far 0
  obtain rfl : a = a' := Option.some.inj (host.symm.trans host')
  have positive : 0 < realLibm.sqrt (mw_sqrv ⟨1, 0, 0⟩) :=
    lt_of_lt_of_le (Real.rpow_pos_of_pos (by norm_num) _) one_far
  have away : (⟨1, 0, 0⟩ : Vec3 ℝ) ≠ 0 := by
    intro zero
    have first : (1 : ℝ) = 0 := congrArg Vec3.x zero
    exact one_ne_zero first
  refine (bulgePotential_kept .plummer _).defect_ne_zero (H := noAccels) realLibm_powers rfl
    one_ne_zero positive.ne' away ?_
  exact left_eq_add.mp (Option.some.inj (device.symm.trans device'))

/-- With a Hernquist bulge the kernels and the host agree. -/
theorem externalAcceleration_iff_hernquist :
    ∃ a, CL.externalAcceleration realLibm (nbGetCompileFlags (bulgePotential .hernquist)) 1 0 0 =
        some a ∧
      nbExtAcceleration realLibm.toLibm (nbComponents realLibm noAccels noComponents)
        (bulgePotential .hernquist) ⟨1, 0, 0⟩ 0 = some a :=
  (externalAcceleration_iff realLibm_powers (bulgePotential_checked .hernquist nofun) one_far 0).mpr
    ⟨.inr (.inl rfl), .inl rfl, (bulgePotential_kept .hernquist _).defect_eq_zero nofun⟩

end MilkyWay.NBody
