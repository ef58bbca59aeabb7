import Mathlib.LinearAlgebra.UnitaryGroup
import Mathlib.LinearAlgebra.Matrix.Determinant.Basic
import MilkyWay.Foundation.Cube

/-! Matrices of three rows that act on vectors. An orthogonal one keeps products, so that it
keeps lengths and no two vectors have one image. The matrix of a quaternion of length one is
a rotation, and that about the cross product of two unit vectors takes one to the other. -/

namespace MilkyWay.Foundation

open Matrix

variable {R : Type*}

namespace Vec3

def dot [Add R] [Mul R] (v w : Vec3 R) : R := v.x * w.x + v.y * w.y + v.z * w.z

def cross [Sub R] [Mul R] (v w : Vec3 R) : Vec3 R :=
  ⟨v.y * w.z - v.z * w.y, v.z * w.x - v.x * w.z, v.x * w.y - v.y * w.x⟩

theorem normSq_nonneg [CommRing R] [LinearOrder R] [IsStrictOrderedRing R] (v : Vec3 R) :
    0 ≤ v.normSq :=
  add_nonneg (add_nonneg (mul_self_nonneg _) (mul_self_nonneg _)) (mul_self_nonneg _)

theorem normSq_eq_zero [CommRing R] [LinearOrder R] [IsStrictOrderedRing R] {v : Vec3 R} :
    v.normSq = 0 ↔ v = 0 := by
  constructor
  · intro zero
    have x := mul_self_nonneg v.x
    have y := mul_self_nonneg v.y
    have z := mul_self_nonneg v.z
    rw [normSq] at zero
    ext
    · exact mul_self_eq_zero.mp (by linarith)
    · exact mul_self_eq_zero.mp (by linarith)
    · exact mul_self_eq_zero.mp (by linarith)
  · rintro rfl
    simp [normSq]

variable [CommRing R]

theorem normSq_cross (v w : Vec3 R) :
    (cross v w).normSq = v.normSq * w.normSq - dot v w ^ 2 := by
  simp only [normSq, cross, dot]
  ring

theorem cross_cross_self (v w : Vec3 R) :
    cross (cross v w) v = v.normSq • w - dot v w • v := by
  ext <;> simp only [normSq, cross, dot, sub_x, sub_y, sub_z, smul_x, smul_y, smul_z] <;> ring

theorem dot_cross_self (v w : Vec3 R) : dot (cross v w) v = 0 := by
  simp only [cross, dot]
  ring

theorem normSq_sub (v w : Vec3 R) : (v - w).normSq = v.normSq + w.normSq - 2 * dot v w := by
  simp only [normSq, dot, sub_x, sub_y, sub_z]
  ring

end Vec3

structure Mat3 (R : Type*) where
  r0 : Vec3 R
  r1 : Vec3 R
  r2 : Vec3 R

namespace Mat3

def apply [Add R] [Mul R] (m : Mat3 R) (v : Vec3 R) : Vec3 R :=
  ⟨m.r0.dot v, m.r1.dot v, m.r2.dot v⟩

def toMatrix (m : Mat3 R) : Matrix (Fin 3) (Fin 3) R :=
  !![m.r0.x, m.r0.y, m.r0.z; m.r1.x, m.r1.y, m.r1.z; m.r2.x, m.r2.y, m.r2.z]

section
variable [CommRing R] {m : Mat3 R}

structure Orthonormal (m : Mat3 R) : Prop where
  xx : m.r0.x * m.r0.x + m.r1.x * m.r1.x + m.r2.x * m.r2.x = 1
  yy : m.r0.y * m.r0.y + m.r1.y * m.r1.y + m.r2.y * m.r2.y = 1
  zz : m.r0.z * m.r0.z + m.r1.z * m.r1.z + m.r2.z * m.r2.z = 1
  xy : m.r0.x * m.r0.y + m.r1.x * m.r1.y + m.r2.x * m.r2.y = 0
  xz : m.r0.x * m.r0.z + m.r1.x * m.r1.z + m.r2.x * m.r2.z = 0
  yz : m.r0.y * m.r0.z + m.r1.y * m.r1.z + m.r2.y * m.r2.z = 0

theorem Orthonormal.mem_orthogonalGroup (h : m.Orthonormal) :
    m.toMatrix ∈ orthogonalGroup (Fin 3) R := by
  have transposed : m.toMatrixᵀ =
      !![m.r0.x, m.r1.x, m.r2.x; m.r0.y, m.r1.y, m.r2.y; m.r0.z, m.r1.z, m.r2.z] := by
    ext i j
    fin_cases i <;> fin_cases j <;> rfl
  have yx : m.r0.y * m.r0.x + m.r1.y * m.r1.x + m.r2.y * m.r2.x = 0 := by linear_combination h.xy
  have zx : m.r0.z * m.r0.x + m.r1.z * m.r1.x + m.r2.z * m.r2.x = 0 := by linear_combination h.xz
  have zy : m.r0.z * m.r0.y + m.r1.z * m.r1.y + m.r2.z * m.r2.y = 0 := by linear_combination h.yz
  rw [mem_orthogonalGroup_iff', transposed, toMatrix, mul_fin_three, h.xx, h.yy, h.zz, h.xy, h.xz,
    h.yz, yx, zx, zy, one_fin_three]

theorem det_toMatrix (m : Mat3 R) : m.toMatrix.det =
    m.r0.x * m.r1.y * m.r2.z - m.r0.x * m.r1.z * m.r2.y - m.r0.y * m.r1.x * m.r2.z +
      m.r0.y * m.r1.z * m.r2.x + m.r0.z * m.r1.x * m.r2.y - m.r0.z * m.r1.y * m.r2.x :=
  det_fin_three _

theorem Orthonormal.dot_apply (h : m.Orthonormal) (v w : Vec3 R) :
    (m.apply v).dot (m.apply w) = v.dot w := by
  simp only [apply, Vec3.dot]
  linear_combination v.x * w.x * h.xx + v.y * w.y * h.yy + v.z * w.z * h.zz +
    (v.x * w.y + v.y * w.x) * h.xy + (v.x * w.z + v.z * w.x) * h.xz +
    (v.y * w.z + v.z * w.y) * h.yz

theorem Orthonormal.normSq_apply (h : m.Orthonormal) (v : Vec3 R) :
    (m.apply v).normSq = v.normSq := h.dot_apply v v

theorem apply_sub (m : Mat3 R) (v w : Vec3 R) : m.apply (v - w) = m.apply v - m.apply w := by
  ext <;> simp only [apply, Vec3.dot, Vec3.sub_x, Vec3.sub_y, Vec3.sub_z] <;> ring

theorem apply_smul (m : Mat3 R) (a : R) (v : Vec3 R) : m.apply (a • v) = a • m.apply v := by
  ext <;> simp only [apply, Vec3.dot, Vec3.smul_x, Vec3.smul_y, Vec3.smul_z] <;> ring

theorem Orthonormal.injective [LinearOrder R] [IsStrictOrderedRing R] (h : m.Orthonormal) :
    Function.Injective m.apply := by
  intro v w same
  have zero : (v - w).normSq = 0 := by
    rw [← h.normSq_apply, apply_sub, same, sub_self]
    exact Vec3.normSq_eq_zero.mpr rfl
  exact sub_eq_zero.mp (Vec3.normSq_eq_zero.mp zero)

/-! ## Quaternions -/

open Numerals in
def ofQuaternion (q : Vec3 R) (w : R) : Mat3 R :=
  ⟨⟨1 - 2 * (q.y * q.y + q.z * q.z), 2 * (q.x * q.y - q.z * w), 2 * (q.x * q.z + q.y * w)⟩,
    ⟨2 * (q.x * q.y + q.z * w), 1 - 2 * (q.x * q.x + q.z * q.z), 2 * (q.y * q.z - q.x * w)⟩,
    ⟨2 * (q.x * q.z - q.y * w), 2 * (q.y * q.z + q.x * w), 1 - 2 * (q.x * q.x + q.y * q.y)⟩⟩

variable {q : Vec3 R} {w : R}

theorem ofQuaternion_orthonormal (unit : q.normSq + w * w = 1) :
    (ofQuaternion q w).Orthonormal := by
  rw [Vec3.normSq] at unit
  constructor <;> simp only [ofQuaternion]
  · linear_combination 4 * (q.y * q.y + q.z * q.z) * unit
  · linear_combination 4 * (q.x * q.x + q.z * q.z) * unit
  · linear_combination 4 * (q.x * q.x + q.y * q.y) * unit
  · linear_combination -4 * q.x * q.y * unit
  · linear_combination -4 * q.x * q.z * unit
  · linear_combination -4 * q.y * q.z * unit

theorem det_ofQuaternion (unit : q.normSq + w * w = 1) : (ofQuaternion q w).toMatrix.det = 1 := by
  rw [Vec3.normSq] at unit
  rw [det_toMatrix]
  simp only [ofQuaternion]
  linear_combination 4 * (q.x * q.x + q.y * q.y + q.z * q.z) * unit

theorem ofQuaternion_mem (unit : q.normSq + w * w = 1) :
    (ofQuaternion q w).toMatrix ∈ specialOrthogonalGroup (Fin 3) R :=
  mem_specialOrthogonalGroup_iff.mpr
    ⟨(ofQuaternion_orthonormal unit).mem_orthogonalGroup, det_ofQuaternion unit⟩

theorem apply_ofQuaternion (q : Vec3 R) (w : R) (v : Vec3 R) :
    (ofQuaternion q w).apply v =
      v + (2 * w) • Vec3.cross q v + (2 * q.dot v) • q - (2 * q.normSq) • v := by
  ext <;> simp only [apply, ofQuaternion, Vec3.dot, Vec3.cross, Vec3.normSq, Vec3.add_x,
    Vec3.add_y, Vec3.add_z, Vec3.sub_x, Vec3.sub_y, Vec3.sub_z, Vec3.smul_x, Vec3.smul_y,
    Vec3.smul_z] <;> ring

theorem apply_ofQuaternion_cross {f t : Vec3 R} {k : R} (unit : f.normSq = 1)
    (half : 2 * w * k = 1) (angle : 1 - 2 * (k • Vec3.cross f t).normSq = f.dot t) :
    (ofQuaternion (k • Vec3.cross f t) w).apply f = t := by
  have axis : (k • Vec3.cross f t).dot f = 0 := by
    have right := Vec3.dot_cross_self f t
    simp only [Vec3.dot, Vec3.smul_x, Vec3.smul_y, Vec3.smul_z] at right ⊢
    linear_combination k * right
  have turned : (2 * w) • Vec3.cross (k • Vec3.cross f t) f = t - f.dot t • f := by
    have triple := Vec3.cross_cross_self f t
    rw [unit, one_smul] at triple
    have pulled : Vec3.cross (k • Vec3.cross f t) f = k • Vec3.cross (Vec3.cross f t) f := by
      ext <;> simp only [Vec3.cross, Vec3.smul_x, Vec3.smul_y, Vec3.smul_z] <;> ring
    rw [pulled, triple, smul_smul, half, one_smul]
  rw [apply_ofQuaternion, axis, turned, mul_zero, zero_smul, add_zero, ← angle, sub_smul, one_smul]
  abel

end

end Mat3

end MilkyWay.Foundation
