import MilkyWay.Foundation.Orthogonal
import MilkyWay.Foundation.Polar
import MilkyWay.NBody.CreateHistogram

/-! The angles of a position on the sky of a histogram. The program has them in two ways: by
the heliocentric longitude and latitude, and by the rotation of the position. -/

namespace MilkyWay.NBody

open Foundation

structure SkyLib (R : Type) extends TrigLib R where
  M_2PI : R

structure NBHistTrig (R : Type) where
  cosphi : R
  sinphi : R
  sinpsi : R
  cospsi : R
  costh : R
  sinth : R

section
variable {R : Type} [Field R] [LinearOrder R]

def nbGetHistTrig (lib : TrigLib R) (hp : HistogramParams R) : NBHistTrig R :=
  let rphi := d2r lib hp.phi
  let rpsi := d2r lib hp.psi
  let rth := d2r lib hp.theta
  ⟨lib.cos rphi, lib.sin rphi, lib.sin rpsi, lib.cos rpsi, lib.cos rth, lib.sin rth⟩

/-- Longitude, latitude and distance from the Sun. -/
def cartesianToLbr_rad (lib : SkyLib R) (r : Vec3 R) (sunGCDist : R) : Vec3 R :=
  let xp := r.x + sunGCDist
  let l := lib.atan2 r.y xp
  ⟨if l < 0.0 then l + lib.M_2PI else l, lib.atan2 r.z (lib.sqrt (sqr xp + sqr r.y)),
    lib.sqrt (sqr xp + sqr r.y + sqr r.z)⟩

def nbXYZToLambda (lib : SkyLib R) (ht : NBHistTrig R) (xyz : Vec3 R) (sunGCDist : R) : R :=
  let lbr := cartesianToLbr_rad lib xyz sunGCDist
  let bcos := lib.cos lbr.y
  let bsin := lib.sin lbr.y
  let lsin := lib.sin lbr.x
  let lcos := lib.cos lbr.x
  r2d lib.toTrigLib (lib.atan2
    (-(ht.sinpsi * ht.cosphi + ht.costh * ht.sinphi * ht.cospsi) * bcos * lcos +
      (-ht.sinpsi * ht.sinphi + ht.costh * ht.cosphi * ht.cospsi) * bcos * lsin +
      ht.cospsi * ht.sinth * bsin)
    ((ht.cospsi * ht.cosphi - ht.costh * ht.sinphi * ht.sinpsi) * bcos * lcos +
      (ht.cospsi * ht.sinphi + ht.costh * ht.cosphi * ht.sinpsi) * bcos * lsin +
      ht.sinpsi * ht.sinth * bsin))

/-- The rotation matrix from the Euler angles. -/
def NBHistTrig.rot (ht : NBHistTrig R) : Mat3 R :=
  ⟨⟨ht.cospsi * ht.cosphi - ht.costh * ht.sinphi * ht.sinpsi,
      ht.cospsi * ht.sinphi + ht.costh * ht.cosphi * ht.sinpsi, ht.sinpsi * ht.sinth⟩,
    ⟨-ht.sinpsi * ht.cosphi - ht.costh * ht.sinphi * ht.cospsi,
      -ht.sinpsi * ht.sinphi + ht.costh * ht.cosphi * ht.cospsi, ht.cospsi * ht.sinth⟩,
    ⟨ht.sinth * ht.sinphi, -ht.sinth * ht.cosphi, ht.costh⟩⟩

def heliocentric (xyz : Vec3 R) (sunGCDist : R) : Vec3 R := ⟨xyz.x + sunGCDist, xyz.y, xyz.z⟩

/-- All that `nbXYZToLambdaBeta` returns: lambda, beta and the distance. -/
def lambdaBetaR (lib : TrigLib R) (ht : NBHistTrig R) (xyz : Vec3 R) (sunGCDist : R) : Vec3 R :=
  let temp := ht.rot.apply (heliocentric xyz sunGCDist)
  let r := lib.sqrt (temp.x * temp.x + temp.y * temp.y + temp.z * temp.z)
  ⟨r2d lib (lib.atan2 temp.y temp.x), r2d lib (lib.asin (-temp.z / r)), r⟩

omit [LinearOrder R] in
theorem nbXYZToLambdaBeta_eq (lib : TrigLib R) (hp : HistogramParams R) (xyz : Vec3 R)
    (sunGCDist : R) :
    nbXYZToLambdaBeta lib hp xyz sunGCDist =
      ((lambdaBetaR lib (nbGetHistTrig lib hp) xyz sunGCDist).x,
        (lambdaBetaR lib (nbGetHistTrig lib hp) xyz sunGCDist).y) := rfl

/-- The identities of the functions of angles. -/
structure SkyTrigonometry (lib : SkyLib R) : Prop
    extends PolarAngles lib.sqrt lib.sin lib.cos lib.atan2 lib.M_2PI where
  M_PI : lib.M_PI ≠ 0
  sin_asin : ∀ x, -1 ≤ x → x ≤ 1 → lib.sin (lib.asin x) = x
  atan2_scale : ∀ k x y, 0 < k → lib.atan2 (k * y) (k * x) = lib.atan2 y x

end

section
variable {F : Type} [Field F] [LinearOrder F] [IsStrictOrderedRing F] {lib : SkyLib F}
  {hp : HistogramParams F} {sunGCDist : F} {xyz : Vec3 F}

structure NBHistTrig.Unit (ht : NBHistTrig F) : Prop where
  phi : ht.sinphi * ht.sinphi + ht.cosphi * ht.cosphi = 1
  psi : ht.sinpsi * ht.sinpsi + ht.cospsi * ht.cospsi = 1
  th : ht.sinth * ht.sinth + ht.costh * ht.costh = 1

omit [IsStrictOrderedRing F] in
theorem nbGetHistTrig_unit (trig : SkyTrigonometry lib) (hp : HistogramParams F) :
    (nbGetHistTrig lib.toTrigLib hp).Unit :=
  ⟨trig.unit _, trig.unit _, trig.unit _⟩

variable {ht : NBHistTrig F}

theorem NBHistTrig.Unit.orthonormal (unit : ht.Unit) : ht.rot.Orthonormal := by
  obtain ⟨phi, psi, th⟩ := unit
  constructor <;> simp only [NBHistTrig.rot]
  · linear_combination (ht.cosphi ^ 2 + ht.costh ^ 2 * ht.sinphi ^ 2) * psi +
      ht.sinphi ^ 2 * th + phi
  · linear_combination (ht.sinphi ^ 2 + ht.costh ^ 2 * ht.cosphi ^ 2) * psi +
      ht.cosphi ^ 2 * th + phi
  · linear_combination ht.sinth ^ 2 * psi + th
  · linear_combination ht.cosphi * ht.sinphi * (1 - ht.costh ^ 2) * psi -
      ht.cosphi * ht.sinphi * th
  · linear_combination -ht.costh * ht.sinphi * ht.sinth * psi
  · linear_combination ht.costh * ht.cosphi * ht.sinth * psi

theorem NBHistTrig.Unit.mem (unit : ht.Unit) :
    ht.rot.toMatrix ∈ Matrix.specialOrthogonalGroup (Fin 3) F := by
  refine Matrix.mem_specialOrthogonalGroup_iff.mpr ⟨unit.orthonormal.mem_orthogonalGroup, ?_⟩
  obtain ⟨phi, psi, th⟩ := unit
  rw [Mat3.det_toMatrix]
  simp only [NBHistTrig.rot]
  linear_combination (ht.sinphi ^ 2 + ht.cosphi ^ 2) * (ht.sinth ^ 2 + ht.costh ^ 2) * psi +
    (ht.sinth ^ 2 + ht.costh ^ 2) * phi + th

/-! ## The two ways to the angle along the stream -/

theorem cartesianToLbr_rad_spherical (trig : SkyTrigonometry lib) (xyz : Vec3 F) (sunGCDist : F) :
    let lbr := cartesianToLbr_rad lib xyz sunGCDist
    lbr.z • (⟨lib.cos lbr.y * lib.cos lbr.x, lib.cos lbr.y * lib.sin lbr.x, lib.sin lbr.y⟩ :
      Vec3 F) = heliocentric xyz sunGCDist := by
  obtain ⟨x, y, z⟩ := trig.spherical (heliocentric xyz sunGCDist)
  ext
  · simp only [cartesianToLbr_rad, sqr, Vec3.smul_x, trig.cos_wrapped]
    rw [mul_comm (lib.cos (lib.atan2 _ (lib.sqrt _)))]
    exact x
  · simp only [cartesianToLbr_rad, sqr, Vec3.smul_y, trig.sin_wrapped]
    rw [mul_comm (lib.cos (lib.atan2 _ (lib.sqrt _)))]
    exact y
  · exact z

omit [LinearOrder F] [IsStrictOrderedRing F] in
theorem heliocentric_ne_zero (other : xyz ≠ ⟨-sunGCDist, 0, 0⟩) :
    heliocentric xyz sunGCDist ≠ 0 := by
  intro zero
  refine other (Vec3.ext ?_ ?_ ?_)
  · exact eq_neg_of_add_eq_zero_left (congrArg Vec3.x zero)
  · have y : (heliocentric xyz sunGCDist).y = 0 := by rw [zero]; rfl
    exact y
  · have z : (heliocentric xyz sunGCDist).z = 0 := by rw [zero]; rfl
    exact z

theorem normSq_heliocentric_pos (other : xyz ≠ ⟨-sunGCDist, 0, 0⟩) :
    0 < (heliocentric xyz sunGCDist).normSq :=
  lt_of_le_of_ne (Vec3.normSq_nonneg _)
    fun zero => heliocentric_ne_zero other (Vec3.normSq_eq_zero.mp zero.symm)

theorem lambdaBetaR_z (unit : ht.Unit) (xyz : Vec3 F) (sunGCDist : F) :
    (lambdaBetaR lib.toTrigLib ht xyz sunGCDist).z =
      lib.sqrt (heliocentric xyz sunGCDist).normSq :=
  congrArg lib.sqrt (unit.orthonormal.normSq_apply _)

theorem lambdaBetaR_z_pos (trig : SkyTrigonometry lib) (unit : ht.Unit)
    (other : xyz ≠ ⟨-sunGCDist, 0, 0⟩) : 0 < (lambdaBetaR lib.toTrigLib ht xyz sunGCDist).z := by
  rw [lambdaBetaR_z unit]
  exact trig.sqrt_pos (normSq_heliocentric_pos other)

theorem nbXYZToLambda_eq (trig : SkyTrigonometry lib) (ht : NBHistTrig F)
    (other : xyz ≠ ⟨-sunGCDist, 0, 0⟩) :
    nbXYZToLambda lib ht xyz sunGCDist = (lambdaBetaR lib.toTrigLib ht xyz sunGCDist).x := by
  have distance : 0 < (cartesianToLbr_rad lib xyz sunGCDist).z :=
    trig.sqrt_pos (normSq_heliocentric_pos other)
  have position := cartesianToLbr_rad_spherical trig xyz sunGCDist
  have rotated : (lambdaBetaR lib.toTrigLib ht xyz sunGCDist).x =
      r2d lib.toTrigLib (lib.atan2 (ht.rot.apply (heliocentric xyz sunGCDist)).y
        (ht.rot.apply (heliocentric xyz sunGCDist)).x) := rfl
  rw [rotated, ← position, Mat3.apply_smul, Vec3.smul_x, Vec3.smul_y,
    trig.atan2_scale _ _ _ distance]
  simp only [nbXYZToLambda, Mat3.apply, NBHistTrig.rot, Vec3.dot]
  congr 2 <;> ring

/-! ## The direction from the angles -/

theorem direction_by_angles (trig : SkyTrigonometry lib) {v : Vec3 F} {r : F} (positive : 0 < r)
    (square : r * r = v.normSq) :
    (1 / r) • v = ⟨lib.sqrt (1 - (v.z / r) * (v.z / r)) * lib.cos (lib.atan2 v.y v.x),
      lib.sqrt (1 - (v.z / r) * (v.z / r)) * lib.sin (lib.atan2 v.y v.x), v.z / r⟩ := by
  have plane : 1 - (v.z / r) * (v.z / r) =
      1 / r * v.x * (1 / r * v.x) + 1 / r * v.y * (1 / r * v.y) := by
    rw [Vec3.normSq] at square
    have nonzero := positive.ne'
    field_simp
    linear_combination square
  rw [← trig.atan2_scale (1 / r) v.x v.y (one_div_pos.mpr positive), plane]
  ext
  · exact (trig.polar_cos _ _).symm
  · exact (trig.polar_sin _ _).symm
  · exact one_div_mul_eq_div _ _

theorem asin_argument (unit : ht.Unit) (trig : SkyTrigonometry lib)
    (other : xyz ≠ ⟨-sunGCDist, 0, 0⟩) :
    -1 ≤ -(ht.rot.apply (heliocentric xyz sunGCDist)).z /
        (lambdaBetaR lib.toTrigLib ht xyz sunGCDist).z ∧
      -(ht.rot.apply (heliocentric xyz sunGCDist)).z /
        (lambdaBetaR lib.toTrigLib ht xyz sunGCDist).z ≤ 1 := by
  have positive := lambdaBetaR_z_pos trig unit other
  have square : (ht.rot.apply (heliocentric xyz sunGCDist)).z ^ 2 ≤
      (lambdaBetaR lib.toTrigLib ht xyz sunGCDist).z ^ 2 := by
    have length := trig.sqrt_mul_self _ (normSq_heliocentric_pos other).le
    rw [lambdaBetaR_z unit, pow_two (lib.sqrt _), length, ← unit.orthonormal.normSq_apply,
      Vec3.normSq]
    linarith [sq_nonneg (ht.rot.apply (heliocentric xyz sunGCDist)).x,
      sq_nonneg (ht.rot.apply (heliocentric xyz sunGCDist)).y]
  obtain ⟨low, high⟩ := abs_le.mp (abs_le_of_sq_le_sq square positive.le)
  rw [le_div_iff₀ positive, div_le_iff₀ positive]
  constructor <;> linarith

omit [IsStrictOrderedRing F] in
theorem r2d_injective [CharZero F] (trig : SkyTrigonometry lib) :
    Function.Injective (r2d lib.toTrigLib : F → F) := by
  intro a b same
  have scaled : a * 180.0 = b * 180.0 := (div_left_inj' trig.M_PI).mp same
  exact mul_right_cancel₀ (by norm_num) scaled

theorem direction_unique (trig : SkyTrigonometry lib) (unit : ht.Unit) {p q : Vec3 F}
    (p_other : p ≠ ⟨-sunGCDist, 0, 0⟩) (q_other : q ≠ ⟨-sunGCDist, 0, 0⟩)
    (lambda : (lambdaBetaR lib.toTrigLib ht p sunGCDist).x =
      (lambdaBetaR lib.toTrigLib ht q sunGCDist).x)
    (beta : (lambdaBetaR lib.toTrigLib ht p sunGCDist).y =
      (lambdaBetaR lib.toTrigLib ht q sunGCDist).y) :
    (1 / (lambdaBetaR lib.toTrigLib ht p sunGCDist).z) • heliocentric p sunGCDist =
      (1 / (lambdaBetaR lib.toTrigLib ht q sunGCDist).z) • heliocentric q sunGCDist := by
  have around := r2d_injective trig lambda
  have height : -(ht.rot.apply (heliocentric p sunGCDist)).z /
        (lambdaBetaR lib.toTrigLib ht p sunGCDist).z =
      -(ht.rot.apply (heliocentric q sunGCDist)).z /
        (lambdaBetaR lib.toTrigLib ht q sunGCDist).z := by
    obtain ⟨p_low, p_high⟩ := asin_argument unit trig p_other
    obtain ⟨q_low, q_high⟩ := asin_argument unit trig q_other
    rw [← trig.sin_asin _ p_low p_high, ← trig.sin_asin _ q_low q_high]
    exact congrArg lib.sin (r2d_injective trig beta)
  rw [neg_div, neg_div, neg_inj] at height
  have square : ∀ {v : Vec3 F}, v ≠ ⟨-sunGCDist, 0, 0⟩ →
      (lambdaBetaR lib.toTrigLib ht v sunGCDist).z * (lambdaBetaR lib.toTrigLib ht v sunGCDist).z =
        (ht.rot.apply (heliocentric v sunGCDist)).normSq := fun other => by
    rw [lambdaBetaR_z unit, trig.sqrt_mul_self _ (normSq_heliocentric_pos other).le,
      unit.orthonormal.normSq_apply]
  refine unit.orthonormal.injective ?_
  rw [Mat3.apply_smul, Mat3.apply_smul,
    direction_by_angles trig (lambdaBetaR_z_pos trig unit p_other) (square p_other),
    direction_by_angles trig (lambdaBetaR_z_pos trig unit q_other) (square q_other), height, around]

/-- The two ways to the angles agree, and with the rotation they give the direction back. -/
theorem histogram_angles_consistent (trig : SkyTrigonometry lib) (hp : HistogramParams F)
    (sunGCDist : F) :
    (nbGetHistTrig lib.toTrigLib hp).rot.toMatrix ∈ Matrix.specialOrthogonalGroup (Fin 3) F ∧
    (∀ xyz : Vec3 F, xyz ≠ ⟨-sunGCDist, 0, 0⟩ →
      nbXYZToLambda lib (nbGetHistTrig lib.toTrigLib hp) xyz sunGCDist =
        (nbXYZToLambdaBeta lib.toTrigLib hp xyz sunGCDist).1 ∧
      (lambdaBetaR lib.toTrigLib (nbGetHistTrig lib.toTrigLib hp) xyz sunGCDist).z =
        lib.sqrt (heliocentric xyz sunGCDist).normSq ∧
      -1 ≤ -((nbGetHistTrig lib.toTrigLib hp).rot.apply (heliocentric xyz sunGCDist)).z /
        (lambdaBetaR lib.toTrigLib (nbGetHistTrig lib.toTrigLib hp) xyz sunGCDist).z ∧
      -((nbGetHistTrig lib.toTrigLib hp).rot.apply (heliocentric xyz sunGCDist)).z /
        (lambdaBetaR lib.toTrigLib (nbGetHistTrig lib.toTrigLib hp) xyz sunGCDist).z ≤ 1) ∧
    ∀ p q : Vec3 F, p ≠ ⟨-sunGCDist, 0, 0⟩ → q ≠ ⟨-sunGCDist, 0, 0⟩ →
      nbXYZToLambdaBeta lib.toTrigLib hp p sunGCDist =
        nbXYZToLambdaBeta lib.toTrigLib hp q sunGCDist →
      (1 / lib.sqrt (heliocentric p sunGCDist).normSq) • heliocentric p sunGCDist =
        (1 / lib.sqrt (heliocentric q sunGCDist).normSq) • heliocentric q sunGCDist := by
  have unit := nbGetHistTrig_unit trig hp
  refine ⟨unit.mem, fun xyz other => ?_, fun p q p_other q_other same => ?_⟩
  · obtain ⟨low, high⟩ := asin_argument unit trig other
    rw [nbXYZToLambdaBeta_eq]
    exact ⟨nbXYZToLambda_eq trig _ other, lambdaBetaR_z unit _ _, low, high⟩
  · rw [nbXYZToLambdaBeta_eq, nbXYZToLambdaBeta_eq, Prod.mk.injEq] at same
    rw [← lambdaBetaR_z unit, ← lambdaBetaR_z unit]
    exact direction_unique trig unit p_other q_other same.1 same.2

end

open Foundation.Numerals in
noncomputable def realSkyLib : SkyLib ℝ where
  M_PI := Real.pi
  M_2PI := 2 * Real.pi
  cos := Real.cos
  sin := Real.sin
  atan2 y x := Complex.arg ⟨x, y⟩
  asin := Real.arcsin
  sqrt := Real.sqrt
  floorQuotient x y := ⌊x / y⌋₊

theorem realSkyLib_trigonometry : SkyTrigonometry realSkyLib where
  toPolarAngles := by
    have polar := realPolar Real.pi_ne_zero
    simp only [div_self Real.pi_ne_zero, mul_one] at polar
    exact polar
  M_PI := Real.pi_ne_zero
  sin_asin x low high := Real.sin_arcsin low high
  atan2_scale k x y positive := by
    have scaled : (⟨k * x, k * y⟩ : ℂ) = (k : ℂ) * ⟨x, y⟩ := by
      apply Complex.ext <;> simp
    change Complex.arg ⟨k * x, k * y⟩ = Complex.arg ⟨x, y⟩
    rw [scaled, Complex.arg_real_mul _ positive]

/-- For the angles of the Orphan stream, with the Sun at eight kiloparsecs. -/
theorem histogram_angles_orphan :
    nbXYZToLambda realSkyLib (nbGetHistTrig realSkyLib.toTrigLib
        ⟨128.79, 54.39, 90.7, -150, 150, 50, -15, 15, 1⟩) ⟨10, 5, 20⟩ 8 =
      (nbXYZToLambdaBeta realSkyLib.toTrigLib
        ⟨128.79, 54.39, 90.7, -150, 150, 50, -15, 15, 1⟩ ⟨10, 5, 20⟩ 8).1 :=
  ((histogram_angles_consistent realSkyLib_trigonometry
    ⟨128.79, 54.39, 90.7, -150, 150, 50, -15, 15, 1⟩ 8).2.1 ⟨10, 5, 20⟩
      (fun same => by simp at same)).1

end MilkyWay.NBody
