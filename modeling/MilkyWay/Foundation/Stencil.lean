import Mathlib.Analysis.SpecialFunctions.Integrals.Basic
import MilkyWay.Foundation.Cube

/-! Derivatives by differences over five points. The stencils of reciprocals are known in
closed form, and with them those of the functions whose integrals over reciprocals are. -/

namespace MilkyWay.Foundation

open Numerals in
def stencil (h : ℝ) (f : ℝ → ℝ) (x : ℝ) : ℝ :=
  f (x - 2 * h) - 8 * f (x - h) + 8 * f (x + h) - f (x + 2 * h)

open Numerals in
def stencil₂ (h : ℝ) (f : ℝ → ℝ) (x : ℝ) : ℝ :=
  -f (x + 2 * h) + 16 * f (x + h) - 30 * f x + 16 * f (x - h) - f (x - 2 * h)

variable {h x : ℝ} {f g : ℝ → ℝ}

theorem stencil_const_mul (h : ℝ) (f : ℝ → ℝ) (x k : ℝ) :
    stencil h (fun y => k * f y) x = k * stencil h f x := by
  simp only [stencil]
  ring

theorem stencil₂_const_mul (h : ℝ) (f : ℝ → ℝ) (x k : ℝ) :
    stencil₂ h (fun y => k * f y) x = k * stencil₂ h f x := by
  simp only [stencil₂]
  ring

theorem stencil₂_line_mul (h : ℝ) (f : ℝ → ℝ) (x c : ℝ) :
    stencil₂ h (fun y => (c + y) * f y) x = (c + x) * stencil₂ h f x + 2 * h * stencil h f x := by
  simp only [stencil, stencil₂]
  ring

theorem stencil_line_mul (h : ℝ) (f : ℝ → ℝ) (x c : ℝ) :
    stencil h (fun y => (c + y) * f y) x = (c + x) * stencil h f x +
      2 * h * (4 * (f (x - h) + f (x + h)) - (f (x - 2 * h) + f (x + 2 * h))) := by
  simp only [stencil]
  ring

theorem stencil_sign {c : ℝ} (positive : 0 < c + x) (falls : stencil h f x < 0)
    (falls' : stencil h g x < 0) (concave : stencil₂ h (fun y => (c + y) * f y) x ≤ 0)
    (convex : 0 < stencil₂ h (fun y => (c + y) * g y) x) :
    stencil₂ h g x * stencil h f x - stencil h g x * stencil₂ h f x < 0 := by
  rw [stencil₂_line_mul] at concave convex
  have first := mul_neg_of_neg_of_pos falls convex
  have second := mul_nonneg_of_nonpos_of_nonpos falls'.le concave
  have scaled : (c + x) * (stencil₂ h g x * stencil h f x - stencil h g x * stencil₂ h f x) < 0 :=
    by linarith
  exact neg_of_mul_neg_right scaled positive.le

/-! ## Reciprocals -/

open Numerals in
noncomputable def reciprocalFactor (d u : ℝ) : ℝ :=
  (u ^ 2 - 5 * d ^ 2) / ((u ^ 2 - d ^ 2) * (u ^ 2 - 4 * d ^ 2))

theorem stencil_reciprocal (c s : ℝ) (wide : 2 * |s * h| < c + s * x) :
    stencil h (fun y => (c + s * y)⁻¹) x =
      -(12 * (s * h) * reciprocalFactor (s * h) (c + s * x)) ∧
    stencil₂ h (fun y => (c + s * y)⁻¹) x =
      24 * (s * h) ^ 2 * reciprocalFactor (s * h) (c + s * x) / (c + s * x) := by
  have points : c + s * (x - 2 * h) = c + s * x - 2 * (s * h) ∧
      c + s * (x - h) = c + s * x - s * h ∧ c + s * (x + h) = c + s * x + s * h ∧
      c + s * (x + 2 * h) = c + s * x + 2 * (s * h) := by
    refine ⟨?_, ?_, ?_, ?_⟩ <;> ring
  obtain ⟨left₂, left, right, right₂⟩ := points
  have below := neg_abs_le (s * h)
  have above := le_abs_self (s * h)
  simp only [stencil, stencil₂, left₂, left, right, right₂, reciprocalFactor]
  generalize s * h = d at *
  generalize c + s * x = u at *
  have nonneg := abs_nonneg d
  have factor : u ^ 2 - d ^ 2 = (u - d) * (u + d) := by ring
  have factor₂ : u ^ 2 - 4 * d ^ 2 = (u - 2 * d) * (u + 2 * d) := by ring
  have u₀ : u ≠ 0 := by linarith
  have u₁ : u - d ≠ 0 := by linarith
  have u₂ : u + d ≠ 0 := by linarith
  have u₃ : u - 2 * d ≠ 0 := by linarith
  have u₄ : u + 2 * d ≠ 0 := by linarith
  rw [factor, factor₂]
  constructor
  · field_simp
    ring
  · field_simp
    ring

theorem reciprocalFactor_pos {d u : ℝ} (nonneg : 0 ≤ d) (wide : 5 / 2 * d < u) :
    0 < reciprocalFactor d u := by
  have u_pos : 0 < u := by linarith
  have square : (5 / 2 * d) ^ 2 < u ^ 2 := pow_lt_pow_left₀ wide (by linarith) two_ne_zero
  have squares := sq_nonneg d
  unfold reciprocalFactor
  apply div_pos
  · linarith
  · apply mul_pos <;> linarith

theorem reciprocalFactor_anti {d u v : ℝ} (nonneg : 0 ≤ d) (wide : 3 * d < u) (le : u ≤ v) :
    reciprocalFactor d v ≤ reciprocalFactor d u := by
  have square : (3 * d) ^ 2 < u ^ 2 := pow_lt_pow_left₀ wide (by linarith) two_ne_zero
  have squares : u ^ 2 ≤ v ^ 2 := pow_le_pow_left₀ (by linarith) le 2
  have d_sq := sq_nonneg d
  unfold reciprocalFactor
  generalize u ^ 2 = u₂ at *
  generalize v ^ 2 = v₂ at *
  rw [mul_pow] at square
  generalize d ^ 2 = e at *
  rw [div_le_div_iff₀ (mul_pos (by linarith) (by linarith)) (mul_pos (by linarith) (by linarith))]
  have product : 2 * e * (2 * e) ≤ (u₂ - 5 * e) * (v₂ - 5 * e) :=
    mul_le_mul (by linarith) (by linarith) (by linarith) (by linarith)
  have grown := mul_nonneg (sub_nonneg.mpr squares) (sub_nonneg.mpr product)
  linear_combination grown

/-! ## Integrals -/

section
variable {φ : ℝ → ℝ → ℝ}
  (integrable : ∀ y, |y - x| ≤ 2 * h →
    IntervalIntegrable (fun s => φ s y) MeasureTheory.volume 0 1)

theorem stencil_near (step : 0 ≤ h) :
    |x - 2 * h - x| ≤ 2 * h ∧ |x - h - x| ≤ 2 * h ∧ |x - x| ≤ 2 * h ∧ |x + h - x| ≤ 2 * h ∧
      |x + 2 * h - x| ≤ 2 * h := by
  simp only [abs_le]
  refine ⟨⟨?_, ?_⟩, ⟨?_, ?_⟩, ⟨?_, ?_⟩, ⟨?_, ?_⟩, ⟨?_, ?_⟩⟩ <;> linarith

include integrable

theorem stencil_integrable (step : 0 ≤ h) :
    IntervalIntegrable (fun s => stencil h (φ s) x) MeasureTheory.volume 0 1 := by
  obtain ⟨left₂, left, -, right, right₂⟩ := stencil_near (x := x) step
  exact (((integrable _ left₂).sub ((integrable _ left).const_mul 8)).add
    ((integrable _ right).const_mul 8)).sub (integrable _ right₂)

theorem stencil_integral (step : 0 ≤ h)
    (integral : ∀ y, |y - x| ≤ 2 * h → f y = ∫ s in (0 : ℝ)..1, φ s y) :
    stencil h f x = ∫ s in (0 : ℝ)..1, stencil h (φ s) x ∧
      stencil₂ h f x = ∫ s in (0 : ℝ)..1, stencil₂ h (φ s) x := by
  obtain ⟨left₂, left, mid, right, right₂⟩ := stencil_near (x := x) step
  have i₁ := integrable _ left₂
  have i₂ := (integrable _ left).const_mul 8
  have i₂' := (integrable _ left).const_mul 16
  have i₃ := (integrable _ mid).const_mul 30
  have i₄ := (integrable _ right).const_mul 8
  have i₄' := (integrable _ right).const_mul 16
  have i₅ := integrable _ right₂
  have i₅' : IntervalIntegrable (fun s => -φ s (x + 2 * h)) MeasureTheory.volume 0 1 := i₅.neg
  simp only [stencil, stencil₂, integral _ left₂, integral _ left, integral _ mid,
    integral _ right, integral _ right₂]
  constructor
  · rw [intervalIntegral.integral_sub ((i₁.sub i₂).add i₄) i₅,
      intervalIntegral.integral_add (i₁.sub i₂) i₄, intervalIntegral.integral_sub i₁ i₂,
      intervalIntegral.integral_const_mul, intervalIntegral.integral_const_mul]
  · rw [intervalIntegral.integral_sub (((i₅'.add i₄').sub i₃).add i₂') i₁,
      intervalIntegral.integral_add ((i₅'.add i₄').sub i₃) i₂',
      intervalIntegral.integral_sub (i₅'.add i₄') i₃, intervalIntegral.integral_add i₅' i₄',
      intervalIntegral.integral_neg, intervalIntegral.integral_const_mul,
      intervalIntegral.integral_const_mul, intervalIntegral.integral_const_mul]

end

theorem log_div_eq_integral {y : ℝ} (positive : 0 < y) :
    Real.log (1 + y) / y = ∫ s in (0 : ℝ)..1, (1 + s * y)⁻¹ := by
  have substituted := intervalIntegral.integral_comp_add_mul (a := 0) (b := 1)
    (fun u : ℝ => u⁻¹) positive.ne' 1
  have inside : ∀ s : ℝ, (1 + s * y)⁻¹ = (1 + y * s)⁻¹ := fun s => by rw [mul_comm]
  simp only [inside]
  rw [substituted, integral_inv_of_pos (by linarith) (by linarith)]
  simp [div_eq_inv_mul]

theorem reciprocal_integrable {y : ℝ} (nonneg : 0 ≤ y) :
    IntervalIntegrable (fun s : ℝ => (1 + s * y)⁻¹) MeasureTheory.volume 0 1 := by
  apply ContinuousOn.intervalIntegrable
  rw [Set.uIcc_of_le zero_le_one]
  refine ContinuousOn.inv₀ (by fun_prop) fun s mem => ?_
  have product := mul_nonneg mem.1 nonneg
  linarith

theorem stencil_share {s : ℝ} (nonneg : 0 ≤ s) (le_one : s ≤ 1) (step : 0 < h)
    (small : h < 2 / 5) (far : 0 < x) :
    0 < reciprocalFactor (s * h) (1 + s * x) ∧ 0 < 1 + s * x ∧
    stencil h (fun y => (1 + s * y)⁻¹) x = -(12 * (s * h) * reciprocalFactor (s * h) (1 + s * x)) ∧
    stencil₂ h (fun y => (1 + s * y)⁻¹) x =
      24 * (s * h) ^ 2 * reciprocalFactor (s * h) (1 + s * x) / (1 + s * x) := by
  have product := mul_nonneg nonneg far.le
  have shorter := mul_le_of_le_one_left step.le le_one
  have shift := mul_nonneg nonneg step.le
  obtain ⟨first, second⟩ := stencil_reciprocal (h := h) (x := x) 1 s (by
    rw [abs_of_nonneg shift]
    linarith)
  exact ⟨reciprocalFactor_pos shift (by linarith), by linarith, first, second⟩

variable (step : 0 < h) (small : h < 2 / 5) (far : 2 * h < x)
include step small far

theorem stencil_log_div : stencil h (fun y => Real.log (1 + y) / y) x < 0 := by
  have near {y : ℝ} (close : |y - x| ≤ 2 * h) : 0 < y := by
    have bound := (abs_le.mp close).1
    linarith
  have integrable (y : ℝ) (close : |y - x| ≤ 2 * h) := reciprocal_integrable (near close).le
  rw [(stencil_integral integrable step.le fun y close => log_div_eq_integral (near close)).1]
  have negative : 0 < ∫ s in (0 : ℝ)..1, -stencil h (fun y => (1 + s * y)⁻¹) x := by
    apply intervalIntegral.intervalIntegral_pos_of_pos_on
      (stencil_integrable integrable step.le).neg
    · intro s mem
      obtain ⟨factor, -, first, -⟩ := stencil_share mem.1.le mem.2.le step small (by linarith)
      have shift := mul_pos mem.1 step
      change 0 < -stencil h (fun y => (1 + s * y)⁻¹) x
      rw [first, neg_neg]
      positivity
    · exact one_pos
  rw [intervalIntegral.integral_neg] at negative
  linarith

theorem stencil₂_line_mul_log_div :
    stencil₂ h (fun y => (1 + y) * (Real.log (1 + y) / y)) x ≤ 0 := by
  have near {y : ℝ} (close : |y - x| ≤ 2 * h) : 0 < y := by
    have bound := (abs_le.mp close).1
    linarith
  rw [(stencil_integral (φ := fun s y => (1 + y) * (1 + s * y)⁻¹)
    (fun y close => (reciprocal_integrable (near close).le).const_mul _) step.le
    fun y close => by
      rw [log_div_eq_integral (near close), intervalIntegral.integral_const_mul]).2]
  have nonneg : 0 ≤ ∫ s in (0 : ℝ)..1, -stencil₂ h (fun y => (1 + y) * (1 + s * y)⁻¹) x := by
    apply intervalIntegral.integral_nonneg zero_le_one
    intro s mem
    obtain ⟨factor, positive, first, second⟩ := stencil_share mem.1 mem.2 step small
      (by linarith)
    have value : -stencil₂ h (fun y => (1 + y) * (1 + s * y)⁻¹) x = 24 * h ^ 2 * s * (1 - s) *
        reciprocalFactor (s * h) (1 + s * x) / (1 + s * x) := by
      rw [stencil₂_line_mul, first, second]
      generalize reciprocalFactor (s * h) (1 + s * x) = k
      obtain ⟨u, same⟩ : ∃ u, 1 + s * x = u := ⟨_, rfl⟩
      have nonzero : u ≠ 0 := same ▸ positive.ne'
      rw [same]
      field_simp
      rw [← same]
      ring
    have s_nonneg := mem.1
    have rest : 0 ≤ 1 - s := by linarith [mem.2]
    rw [value]
    positivity
  rw [intervalIntegral.integral_neg] at nonneg
  linarith

end MilkyWay.Foundation
