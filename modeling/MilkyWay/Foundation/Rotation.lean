import Mathlib.Analysis.SpecialFunctions.Trigonometric.Arctan
import MilkyWay.Foundation.Cube

/-! Rotations about the vertical axis, and the rotation of a point in polar
coordinates. -/

namespace MilkyWay.Foundation

open Real

/-- The rotation about the third axis by an angle. -/
noncomputable def rotateZ (θ : ℝ) (v : Vec3 ℝ) : Vec3 ℝ :=
  ⟨cos θ * v.x - sin θ * v.y, sin θ * v.x + cos θ * v.y, v.z⟩

@[simp] theorem rotateZ_z (θ : ℝ) (v : Vec3 ℝ) : (rotateZ θ v).z = v.z := rfl

theorem rotateZ_neg (θ : ℝ) (v : Vec3 ℝ) :
    rotateZ (-θ) v = ⟨cos θ * v.x + sin θ * v.y, cos θ * v.y - sin θ * v.x, v.z⟩ := by
  simp only [rotateZ, cos_neg, sin_neg]
  ext <;> ring

theorem signed_sqrt {x : ℝ} (nonzero : x ≠ 0) (y : ℝ) :
    (if x < 0 then -√(x * x + y * y) else √(x * x + y * y)) = x * √(1 + (y / x) ^ 2) := by
  have radius : √(x * x + y * y) = |x| * √(1 + (y / x) ^ 2) := by
    rw [← sqrt_sq_eq_abs, ← sqrt_mul (sq_nonneg x)]
    congr 1
    field_simp
  rw [radius]
  split
  · rw [abs_of_neg ‹_›]
    ring
  · rw [abs_of_nonneg (not_lt.mp ‹_›)]

theorem polar_rotated {x : ℝ} (nonzero : x ≠ 0) (y θ : ℝ) :
    x * √(1 + (y / x) ^ 2) * cos (arctan (y / x) - θ) = cos θ * x + sin θ * y ∧
      x * √(1 + (y / x) ^ 2) * sin (arctan (y / x) - θ) = cos θ * y - sin θ * x := by
  have positive : √(1 + (y / x) ^ 2) ≠ 0 := (sqrt_pos.mpr (by positivity)).ne'
  rw [cos_sub, sin_sub, cos_arctan, sin_arctan]
  constructor
  · field_simp
  · field_simp

end MilkyWay.Foundation
