import Mathlib.Analysis.SpecialFunctions.Complex.Arg
import MilkyWay.Foundation.Cube

/-! Polar coordinates by functions of which only the identities are known: a square root, sine
and cosine with a full turn, and the angle of a point. -/

namespace MilkyWay.Foundation

section
variable {F : Type*} [Field F] [LinearOrder F]

structure PolarAngles (sqrt sin cos : F → F) (atan2 : F → F → F) (turn : F) : Prop where
  sqrt_nonneg : ∀ x, 0 ≤ x → 0 ≤ sqrt x
  sqrt_mul_self : ∀ x, 0 ≤ x → sqrt x * sqrt x = x
  unit : ∀ x, sin x * sin x + cos x * cos x = 1
  sin_turn : ∀ x, sin (x + turn) = sin x
  cos_turn : ∀ x, cos (x + turn) = cos x
  polar_cos : ∀ x y, sqrt (x * x + y * y) * cos (atan2 y x) = x
  polar_sin : ∀ x y, sqrt (x * x + y * y) * sin (atan2 y x) = y

namespace PolarAngles

variable {sqrt sin cos : F → F} {atan2 : F → F → F} {turn : F}
  (polar : PolarAngles sqrt sin cos atan2 turn)

include polar

theorem sin_wrapped (p : Prop) [Decidable p] (x : F) :
    sin (if p then x + turn else x) = sin x := by
  split
  · exact polar.sin_turn x
  · rfl

theorem cos_wrapped (p : Prop) [Decidable p] (x : F) :
    cos (if p then x + turn else x) = cos x := by
  split
  · exact polar.cos_turn x
  · rfl

theorem sqrt_pos {x : F} (positive : 0 < x) : 0 < sqrt x := by
  refine lt_of_le_of_ne (polar.sqrt_nonneg x positive.le) fun zero => ?_
  have square := polar.sqrt_mul_self x positive.le
  rw [← zero, mul_zero] at square
  exact positive.ne square

variable [IsStrictOrderedRing F]

theorem spherical (v : Vec3 F) :
    sqrt (v.x * v.x + v.y * v.y + v.z * v.z) *
        (cos (atan2 v.y v.x) * cos (atan2 v.z (sqrt (v.x * v.x + v.y * v.y)))) = v.x ∧
      sqrt (v.x * v.x + v.y * v.y + v.z * v.z) *
        (sin (atan2 v.y v.x) * cos (atan2 v.z (sqrt (v.x * v.x + v.y * v.y)))) = v.y ∧
      sqrt (v.x * v.x + v.y * v.y + v.z * v.z) *
        sin (atan2 v.z (sqrt (v.x * v.x + v.y * v.y))) = v.z := by
  have square := polar.sqrt_mul_self (v.x * v.x + v.y * v.y)
    (add_nonneg (mul_self_nonneg _) (mul_self_nonneg _))
  have plane := polar.polar_cos (sqrt (v.x * v.x + v.y * v.y)) v.z
  have height := polar.polar_sin (sqrt (v.x * v.x + v.y * v.y)) v.z
  rw [square] at plane height
  refine ⟨?_, ?_, height⟩
  · rw [mul_left_comm, plane, mul_comm]
    exact polar.polar_cos v.x v.y
  · rw [mul_left_comm, plane, mul_comm]
    exact polar.polar_sin v.x v.y

end PolarAngles

end

theorem realPolar {half : ℝ} (nonzero : half ≠ 0) :
    PolarAngles Real.sqrt (fun x => Real.sin (x * (Real.pi / half)))
      (fun x => Real.cos (x * (Real.pi / half)))
      (fun y x => Complex.arg ⟨x, y⟩ * (half / Real.pi)) (2 * half) := by
  have turn : ∀ x : ℝ, (x + 2 * half) * (Real.pi / half) = x * (Real.pi / half) + 2 * Real.pi := by
    intro x
    field_simp
  have angle : ∀ x y : ℝ,
      Complex.arg ⟨x, y⟩ * (half / Real.pi) * (Real.pi / half) = Complex.arg ⟨x, y⟩ := by
    intro x y
    field_simp
  have radius : ∀ x y : ℝ, √(x * x + y * y) = ‖(⟨x, y⟩ : ℂ)‖ := fun x y => by
    rw [Complex.norm_def, Complex.normSq_mk]
  refine ⟨fun x _ => Real.sqrt_nonneg x, fun x nonneg => Real.mul_self_sqrt nonneg, fun x => ?_,
    fun x => ?_, fun x => ?_, fun x y => ?_, fun x y => ?_⟩
  · rw [← sq, ← sq, Real.sin_sq_add_cos_sq]
  · rw [turn, Real.sin_add_two_pi]
  · rw [turn, Real.cos_add_two_pi]
  · rw [angle, radius, Complex.norm_mul_cos_arg]
  · rw [angle, radius, Complex.norm_mul_sin_arg]

end MilkyWay.Foundation
