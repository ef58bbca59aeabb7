import Mathlib.Analysis.SpecialFunctions.Trigonometric.Inverse
import MilkyWay.Foundation.Orthogonal
import MilkyWay.Separation.Coordinates

/-! The transformation of points for the separation: the rotation that takes one direction to
another, as the matrix of a quaternion. -/

namespace MilkyWay.Separation

open Foundation

structure AngleLibm (R : Type) extends Libm R where
  acos : R → R

section
variable {R : Type} [Zero R] [Add R] [Neg R] [Sub R] [Mul R] [Div R] [OfScientific R] [IntCast R]
  [LT R] [DecidableLT R] [LE R] [DecidableLE R]

def mw_crossv (a b : Vec3 R) : Vec3 R :=
  ⟨b.z * a.y - b.y * a.z, b.x * a.z - b.z * a.x, b.y * a.x - b.x * a.y⟩

def mw_length (L : Libm R) (a : Vec3 R) : R := L.sqrt (sqr a.x + sqr a.y + sqr a.z)

def mw_mulmv (m : Mat3 R) (a : Vec3 R) : Vec3 R :=
  ⟨mw_dotv m.r0 a, mw_dotv m.r1 a, mw_dotv m.r2 a⟩

def mw_vecangle (L : AngleLibm R) (a b : Vec3 R) : R :=
  let anorm := mw_length L.toLibm a
  let bnorm := mw_length L.toLibm b
  L.acos (mw_dotv a b / (anorm * bnorm))

def mw_normalize (L : Libm R) (v : Vec3 R) : Vec3 R :=
  let len := mw_length L v
  ⟨v.x / len, v.y / len, v.z / len⟩

/-- The rotation that takes `f` to `t`. -/
def get_transform (L : AngleLibm R) (f t : Vec3 R) : Mat3 R :=
  let axis := mw_normalize L.toLibm (mw_crossv f t)
  let angle := mw_vecangle L f t
  let sin_a := L.sin (0.5 * angle)
  let x := axis.x * sin_a
  let y := axis.y * sin_a
  let z := axis.z * sin_a
  let w := L.cos (0.5 * angle)
  ⟨⟨1.0 - 2.0 * (y * y + z * z), 2.0 * (x * y - z * w), 2.0 * (x * z + y * w)⟩,
    ⟨2.0 * (x * y + z * w), 1.0 - 2.0 * (x * x + z * z), 2.0 * (y * z - x * w)⟩,
    ⟨2.0 * (x * z - y * w), 2.0 * (y * z + x * w), 1.0 - 2.0 * (x * x + y * y)⟩⟩

def transform_point (L : Libm R) (ap : AstronomyParameters R) (point : Vec3 R) (cmat : Mat3 R)
    (xsun : Vec3 R) : Vec3 R :=
  let mcutoff := 11.0
  let logPoint := xyz_mag L ap point mcutoff
  mw_mulmv cmat (logPoint - xsun)

end

section
variable {F : Type} [Field F] [LinearOrder F]

/-- The square root, and the sine and cosine of half the angle for a cosine. -/
structure HalfAngles (L : AngleLibm F) : Prop where
  sqrt_nonneg : ∀ x, 0 ≤ x → 0 ≤ L.sqrt x
  sqrt_mul_self : ∀ x, 0 ≤ x → L.sqrt x * L.sqrt x = x
  sin_half_nonneg : ∀ c, -1 ≤ c → c ≤ 1 → 0 ≤ L.sin (0.5 * L.acos c)
  cos_half_nonneg : ∀ c, -1 ≤ c → c ≤ 1 → 0 ≤ L.cos (0.5 * L.acos c)
  sin_half : ∀ c, -1 ≤ c → c ≤ 1 → 2 * L.sin (0.5 * L.acos c) ^ 2 = 1 - c
  cos_half : ∀ c, -1 ≤ c → c ≤ 1 → 2 * L.cos (0.5 * L.acos c) ^ 2 = 1 + c

end

section
variable {F : Type} [Field F]

theorem mw_dotv_eq (v w : Vec3 F) : mw_dotv v w = v.dot w := by
  rw [mw_dotv, Vec3.dot]
  ring

theorem mw_mulmv_eq (m : Mat3 F) (v : Vec3 F) : mw_mulmv m v = m.apply v := by
  simp only [mw_mulmv, Mat3.apply, mw_dotv_eq]

theorem mw_crossv_eq (v w : Vec3 F) : mw_crossv v w = Vec3.cross v w := by
  ext <;> simp only [mw_crossv, Vec3.cross] <;> ring

theorem get_transform_eq [CharZero F] (L : AngleLibm F) (f t : Vec3 F) :
    get_transform L f t = Mat3.ofQuaternion
      ((L.sin (0.5 * mw_vecangle L f t) / mw_length L.toLibm (Vec3.cross f t)) • Vec3.cross f t)
      (L.cos (0.5 * mw_vecangle L f t)) := by
  have one : (1.0 : F) = 1 := by norm_num
  have two : (2.0 : F) = 2 := by norm_num
  simp only [get_transform, mw_normalize, mw_crossv_eq, one, two, Mat3.ofQuaternion, Vec3.smul_x,
    Vec3.smul_y, Vec3.smul_z, div_mul_eq_mul_div, mul_comm (L.sin _)]

end

section
variable {F : Type} [Field F] [LinearOrder F] [IsStrictOrderedRing F] {L : AngleLibm F}

theorem HalfAngles.length_unit (half : HalfAngles L) {v : Vec3 F} (unit : v.normSq = 1) :
    mw_length L.toLibm v = 1 := by
  have square := half.sqrt_mul_self 1 zero_le_one
  have nonneg := half.sqrt_nonneg 1 zero_le_one
  rw [mw_length, show sqr v.x + sqr v.y + sqr v.z = 1 from unit]
  nlinarith

theorem HalfAngles.vecangle (half : HalfAngles L) {f t : Vec3 F} (unit : f.normSq = 1)
    (unit' : t.normSq = 1) : mw_vecangle L f t = L.acos (f.dot t) := by
  rw [mw_vecangle, half.length_unit unit, half.length_unit unit', mw_dotv_eq, mul_one, div_one]

theorem dot_bounds {f t : Vec3 F} (unit : f.normSq = 1) (unit' : t.normSq = 1) (apart : t ≠ f)
    (apart' : t ≠ -f) : -1 < f.dot t ∧ f.dot t < 1 := by
  have difference := Vec3.normSq_sub t f
  have sum := Vec3.normSq_sub t (-f)
  have positive : 0 < (t - f).normSq :=
    lt_of_le_of_ne (Vec3.normSq_nonneg _) fun zero =>
      apart (sub_eq_zero.mp (Vec3.normSq_eq_zero.mp zero.symm))
  have positive' : 0 < (t - -f).normSq :=
    lt_of_le_of_ne (Vec3.normSq_nonneg _) fun zero =>
      apart' (sub_eq_zero.mp (Vec3.normSq_eq_zero.mp zero.symm))
  have opposite : (-f).normSq = 1 := by
    rw [← unit]
    simp [Vec3.normSq]
  have turned : t.dot (-f) = -f.dot t := by
    simp only [Vec3.dot, Vec3.neg_x, Vec3.neg_y, Vec3.neg_z]
    ring
  have swapped : t.dot f = f.dot t := by
    simp only [Vec3.dot]
    ring
  rw [unit', unit, swapped] at difference
  rw [unit', opposite, turned] at sum
  constructor <;> linarith

/-- For unit vectors apart the transformation is a rotation that takes the first to the
second. -/
theorem get_transform_rotates (half : HalfAngles L) (f t : Vec3 F) (unit : f.normSq = 1)
    (unit' : t.normSq = 1) (apart : t ≠ f) (apart' : t ≠ -f) :
    (get_transform L f t).toMatrix ∈ Matrix.specialOrthogonalGroup (Fin 3) F ∧
      mw_mulmv (get_transform L f t) f = t := by
  obtain ⟨low, high⟩ := dot_bounds unit unit' apart apart'
  have angle := half.vecangle unit unit'
  have sin_half := half.sin_half _ low.le high.le
  have cos_half := half.cos_half _ low.le high.le
  have sin_nonneg := half.sin_half_nonneg _ low.le high.le
  have cos_nonneg := half.cos_half_nonneg _ low.le high.le
  have across := Vec3.normSq_cross f t
  have across_nonneg := Vec3.normSq_nonneg (Vec3.cross f t)
  have length_sq := half.sqrt_mul_self _ across_nonneg
  have length_nonneg := half.sqrt_nonneg _ across_nonneg
  rw [unit, unit', one_mul] at across
  rw [mw_mulmv_eq, get_transform_eq, angle]
  rw [show mw_length L.toLibm (Vec3.cross f t) = L.sqrt (Vec3.cross f t).normSq from rfl]
  generalize L.sin (0.5 * L.acos (f.dot t)) = s at *
  generalize L.cos (0.5 * L.acos (f.dot t)) = w at *
  generalize L.sqrt (Vec3.cross f t).normSq = len at *
  have positive : 0 < len := by nlinarith
  have double : 2 * w * s = len := by
    have squares : (2 * w * s) ^ 2 = len ^ 2 := by
      linear_combination 2 * w ^ 2 * sin_half + (1 - f.dot t) * cos_half - across - length_sq
    exact (sq_eq_sq₀ (by positivity) length_nonneg).mp squares
  have axis : ((s / len) • Vec3.cross f t).normSq = s ^ 2 := by
    have scaled : ((s / len) • Vec3.cross f t).normSq =
        (s / len) ^ 2 * (Vec3.cross f t).normSq := by
      simp only [Vec3.normSq, Vec3.smul_x, Vec3.smul_y, Vec3.smul_z]
      ring
    rw [scaled, ← length_sq]
    field_simp
  constructor
  · refine Mat3.ofQuaternion_mem ?_
    rw [axis]
    linear_combination sin_half / 2 + cos_half / 2
  · refine Mat3.apply_ofQuaternion_cross unit ?_ ?_
    · rw [mul_div_assoc', double, div_self positive.ne']
    · rw [axis, sin_half]
      ring

end

open Foundation.Numerals in
noncomputable def realAngleLibm : AngleLibm ℝ where
  sqrt := Real.sqrt
  exp := Real.exp
  exp10 x := 10 ^ x
  log10 := Real.logb 10
  sin := Real.sin
  cos := Real.cos
  asin := Real.arcsin
  atan2 y x := Complex.arg ⟨x, y⟩
  powr x y := x ^ y
  isnan _ := false
  acos := Real.arccos

theorem realAngleLibm_half : HalfAngles realAngleLibm := by
  have halved : ∀ c : ℝ, (0.5 : ℝ) * realAngleLibm.acos c = Real.arccos c / 2 := by
    intro c
    change (0.5 : ℝ) * Real.arccos c = _
    norm_num
    ring
  have nonneg := Real.arccos_nonneg
  have le_pi := Real.arccos_le_pi
  refine ⟨fun x _ => Real.sqrt_nonneg x, fun x => Real.mul_self_sqrt, fun c _ _ => ?_,
    fun c _ _ => ?_, fun c low high => ?_, fun c low high => ?_⟩
  · rw [halved]
    exact Real.sin_nonneg_of_nonneg_of_le_pi (by linarith [nonneg c])
      (by linarith [le_pi c, nonneg c])
  · rw [halved]
    exact Real.cos_nonneg_of_neg_pi_div_two_le_of_le (by linarith [nonneg c, le_pi c])
      (by linarith [le_pi c])
  · rw [halved]
    change 2 * Real.sin (Real.arccos c / 2) ^ 2 = 1 - c
    rw [Real.sin_sq, Real.cos_sq, mul_div_cancel₀ _ two_ne_zero, Real.cos_arccos low high]
    ring
  · rw [halved]
    change 2 * Real.cos (Real.arccos c / 2) ^ 2 = 1 + c
    rw [Real.cos_sq, mul_div_cancel₀ _ two_ne_zero, Real.cos_arccos low high]
    ring

/-- From the first axis to the third. -/
theorem get_transform_axes :
    (get_transform realAngleLibm ⟨1, 0, 0⟩ ⟨0, 0, 1⟩).toMatrix ∈
        Matrix.specialOrthogonalGroup (Fin 3) ℝ ∧
      mw_mulmv (get_transform realAngleLibm ⟨1, 0, 0⟩ ⟨0, 0, 1⟩) ⟨1, 0, 0⟩ = ⟨0, 0, 1⟩ :=
  get_transform_rotates realAngleLibm_half ⟨1, 0, 0⟩ ⟨0, 0, 1⟩ (by simp [Vec3.normSq])
    (by simp [Vec3.normSq]) (fun same => one_ne_zero (congrArg Vec3.z same))
    (fun same => one_ne_zero ((congrArg Vec3.z same).trans neg_zero))

end MilkyWay.Separation
