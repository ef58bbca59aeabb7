import MilkyWay.NBody.DwarfPotential
import MilkyWay.NBody.PotentialAgreement

/-! What the generator of a dwarf galaxy sets up for a component before it draws from it:
the radius and the density of its halo, the bound of the distances, the mass within the
bound, and the greatest value of the distribution of distances. -/

namespace MilkyWay.NBody

open Foundation

section
variable {R : Type} [Add R] [Sub R] [Mul R] [Div R] [OfScientific R]

def pcrit : R := 0.000679087369829744220469326744094105320596648627735869652

def vol_pcrit : R := 0.568910904587397184785763397846734505212216314432372653620

/-- The radius and the density of the halo with the mass of the component. -/
def set_p0 (L : DwarfLibm R) (comp : Dwarf R) : Dwarf R :=
  let mass := comp.mass
  let rscale := comp.scaleLength
  let r200 := L.cbrt (mass / vol_pcrit)
  let c := r200 / rscale
  let term := L.log (1.0 + c) - c / (1.0 + c)
  let p0 := 200.0 * cube c * pcrit / (3.0 * term)
  { comp with r200 := r200, p0 := p0 }

/-- The mass is reset to what lies within the bound. -/
def get_extra_nfw_mass (L : DwarfLibm R) (comp : Dwarf R) (bound : R) : Dwarf R :=
  let rs := comp.scaleLength
  let r := bound
  let m := 4.0 * L.M_PI * comp.p0 * cube rs * (L.log ((rs + r) / rs) - r / (rs + r))
  { comp with mass := m }

/-- The component to sample from and the bound of the distances, which other kinds do
not have. -/
def boundComponent (L : DwarfLibm R) (comp : Dwarf R) (rscale_l rscale_d : R) :
    Option (Dwarf R × R) :=
  match comp.type with
  | .plummer => some (comp, 50.0 * (rscale_l + rscale_d))
  | .nfw =>
    let bound := 5.0 * comp.r200
    some (get_extra_nfw_mass L comp bound, bound)
  | .general_hernquist => some (comp, 50.0 * (rscale_l + rscale_d))
  | .einasto | .invalid => none

def peakRadius (L : DwarfLibm R) (comp : Dwarf R) : Option R :=
  let rscale := comp.scaleLength
  match comp.type with
  | .plummer => some (L.sqrt (2.0 / 3.0) * rscale)
  | .nfw => some rscale
  | .general_hernquist => some (rscale / 2.0)
  | .einasto | .invalid => none

def rho_max (L : DwarfLibm R) (comp : Dwarf R) : Option R := do
  let peak ← peakRadius L comp
  let density ← get_density L comp peak
  return sqr peak * density

end

/-! ## The peak of the distribution of distances -/

variable {L : DwarfLibm ℝ} {comp : Dwarf ℝ} {r : ℝ}

theorem plummer_peak {a : ℝ} (scaled : 0 < a) (r : ℝ) :
    r ^ 2 / √(r ^ 2 + a ^ 2) ^ 5 ≤ 2 / 3 * a ^ 2 / √(2 / 3 * a ^ 2 + a ^ 2) ^ 5 := by
  have root : 0 < √(r ^ 2 + a ^ 2) := Real.sqrt_pos.mpr (by positivity)
  have root' : 0 < √(2 / 3 * a ^ 2 + a ^ 2) := Real.sqrt_pos.mpr (by positivity)
  have square : √(r ^ 2 + a ^ 2) ^ 2 = r ^ 2 + a ^ 2 := Real.sq_sqrt (by positivity)
  have square' : √(2 / 3 * a ^ 2 + a ^ 2) ^ 2 = 2 / 3 * a ^ 2 + a ^ 2 :=
    Real.sq_sqrt (by positivity)
  have swap (q : ℝ) : (q ^ 5) ^ 2 = (q ^ 2) ^ 5 := by ring
  rw [div_le_div_iff₀ (pow_pos root 5) (pow_pos root' 5),
    ← pow_le_pow_iff_left₀ (by positivity) (by positivity) two_ne_zero, mul_pow, mul_pow,
    swap, swap, square, square']
  have remainder : 0 ≤ (r ^ 2 - 2 / 3 * a ^ 2) ^ 2 * (a ^ 4 *
      (a ^ 6 + 8 * a ^ 4 * r ^ 2 + 76 / 27 * a ^ 2 * r ^ 4 + 4 / 9 * r ^ 6)) := by positivity
  linear_combination remainder

theorem nfw_peak {a : ℝ} (scaled : 0 < a) (positive : 0 < r) :
    r / (a + r) ^ 2 ≤ a / (a + a) ^ 2 := by
  rw [div_le_div_iff₀ (by positivity) (by positivity)]
  have square := mul_nonneg scaled.le (sq_nonneg (r - a))
  linear_combination square

theorem gen_hern_peak {a : ℝ} (scaled : 0 < a) (positive : 0 < r) :
    r / (r + a) ^ 3 ≤ a / 2 / (a / 2 + a) ^ 3 := by
  rw [div_le_div_iff₀ (by positivity) (by positivity)]
  have square := mul_nonneg (mul_nonneg scaled.le (sq_nonneg (2 * r - a)))
    (add_pos positive (mul_pos four_pos scaled)).le
  linear_combination square / 8

theorem rho_max_peak (real : RealDwarfLibm L) (supported : comp.type.Supported)
    (mass : comp.type ≠ .nfw → 0 < comp.mass) (scaled : 0 < comp.scaleLength)
    (dense : comp.type = .nfw → 0 < comp.p0) :
    ∃ greatest, rho_max L comp = some greatest ∧ 0 < greatest ∧
      ∀ r, 0 < r → ∃ ρ, get_density L comp r = some ρ ∧ r * r * ρ ≤ greatest := by
  have pi := real.M_PI
  unfold rho_max peakRadius get_density
  obtain kind | kind | kind := supported <;> rw [kind]
  · replace mass := mass (by simp [kind])
    have peak : sqr (√(2.0 / 3.0) * comp.scaleLength) = 2 / 3 * comp.scaleLength ^ 2 := by
      have square : √(2.0 / 3.0) ^ 2 = (2 / 3 : ℝ) := by
        rw [Real.sq_sqrt (by norm_num)]
        norm_num
      rw [sqr]
      linear_combination comp.scaleLength ^ 2 * square
    have shape (r : ℝ) : r ^ 2 * plummer_den L comp r = 3 / (4 * L.M_PI) *
        (comp.mass * comp.scaleLength ^ 2) * (r ^ 2 / √(r ^ 2 + comp.scaleLength ^ 2) ^ 5) := by
      rw [plummer_den_eq real scaled]
      ring
    have factor : 0 < 3 / (4 * L.M_PI) * (comp.mass * comp.scaleLength ^ 2) := by positivity
    refine ⟨_, rfl, ?_, fun r positive => ⟨_, rfl, ?_⟩⟩
    · rw [real.sqrt, sqr, ← sq, shape]
      positivity
    · rw [real.sqrt, sqr, ← sq, ← sq, shape, shape]
      rw [sqr, ← sq] at peak
      rw [peak]
      exact mul_le_mul_of_nonneg_left (plummer_peak scaled r) factor.le
  · replace dense := dense kind
    have shape {r : ℝ} (positive : 0 < r) : r ^ 2 * nfw_den comp r =
        comp.p0 * comp.scaleLength ^ 3 * (r / (comp.scaleLength + r) ^ 2) := by
      rw [nfw_den_eq scaled]
      field_simp
    have factor : 0 < comp.p0 * comp.scaleLength ^ 3 := by positivity
    refine ⟨_, rfl, ?_, fun r positive => ⟨_, rfl, ?_⟩⟩
    · rw [sqr, ← sq, shape scaled]
      positivity
    · rw [sqr, ← sq, ← sq, shape scaled, shape positive]
      exact mul_le_mul_of_nonneg_left (nfw_peak scaled positive) factor.le
  · replace mass := mass (by simp [kind])
    have shape {r : ℝ} (positive : 0 < r) : r ^ 2 * gen_hern_den L comp r =
        comp.mass * comp.scaleLength / (2 * L.M_PI) * (r / (r + comp.scaleLength) ^ 3) := by
      rw [gen_hern_den_eq real]
      field_simp
    have factor : 0 < comp.mass * comp.scaleLength / (2 * L.M_PI) := by positivity
    have half : comp.scaleLength / 2.0 = comp.scaleLength / 2 := by norm_num
    refine ⟨_, rfl, ?_, fun r positive => ⟨_, rfl, ?_⟩⟩
    · rw [half, sqr, ← sq, shape (half_pos scaled)]
      positivity
    · rw [half, sqr, ← sq, ← sq, shape (half_pos scaled), shape positive]
      exact mul_le_mul_of_nonneg_left (gen_hern_peak scaled positive) factor.le

theorem log_excess_pos {c : ℝ} (positive : 0 < c) : 0 < Real.log (1 + c) - c / (1 + c) := by
  have inverse := Real.log_lt_sub_one_of_pos (x := (1 + c)⁻¹) (by positivity)
    (inv_ne_one.mpr (by linarith))
  have share : c / (1 + c) = 1 - (1 + c)⁻¹ := by
    field_simp
    ring
  rw [Real.log_inv] at inverse
  linarith

theorem set_p0_pos (real : RealDwarfLibm L) (mass : 0 < comp.mass)
    (scaled : 0 < comp.scaleLength) : 0 < (set_p0 L comp).p0 := by
  have volume : (0 : ℝ) < vol_pcrit := by
    rw [vol_pcrit]
    norm_num
  have radius : 0 < L.cbrt (comp.mass / vol_pcrit) := by
    have third := div_pos mass volume
    rw [← real.cbrt (comp.mass / vol_pcrit), cube, ← sq, ← pow_succ] at third
    exact (Odd.pow_pos_iff (by decide)).mp third
  have concentration := div_pos radius scaled
  have excess := log_excess_pos concentration
  have one : (1.0 : ℝ) = 1 := by norm_num
  simp only [set_p0, real.log, one, cube, pcrit]
  positivity

theorem boundComponent_kept (supported : comp.type.Supported) (rscale_l rscale_d : ℝ) :
    ∃ comp' bound, boundComponent L comp rscale_l rscale_d = some (comp', bound) ∧
      comp'.type = comp.type ∧ comp'.scaleLength = comp.scaleLength ∧ comp'.p0 = comp.p0 ∧
      (comp.type ≠ .nfw → comp' = comp) := by
  unfold boundComponent
  obtain kind | kind | kind := supported <;> rw [kind]
  · exact ⟨_, _, rfl, kind, rfl, rfl, fun _ => rfl⟩
  · exact ⟨_, _, rfl, kind, rfl, rfl, fun other => absurd rfl other⟩
  · exact ⟨_, _, rfl, kind, rfl, rfl, fun _ => rfl⟩

/-- No distance, whatever the bound, is drawn with a ratio above one. -/
theorem rho_max_bounds (real : RealDwarfLibm L) (supported : comp.type.Supported)
    (mass : 0 < comp.mass) (scaled : 0 < comp.scaleLength) (rscale_l rscale_d : ℝ) :
    ∃ comp' bound greatest,
      boundComponent L (set_p0 L comp) rscale_l rscale_d = some (comp', bound) ∧
      rho_max L comp' = some greatest ∧
      ∀ r, 0 < r → ∃ ρ, get_density L comp' r = some ρ ∧ r * r * ρ ≤ greatest ∧
        r * r * ρ / greatest ≤ 1 := by
  have supported' : (set_p0 L comp).type.Supported := supported
  obtain ⟨comp', bound, result, kind, scale, density, same⟩ :=
    boundComponent_kept (L := L) supported' rscale_l rscale_d
  obtain ⟨greatest, found, positive, peak⟩ := rho_max_peak real
    (kind ▸ supported') (fun other => by rw [same (kind ▸ other)]; exact mass)
    (scale ▸ scaled) (fun _ => density ▸ set_p0_pos real mass scaled)
  refine ⟨comp', bound, greatest, result, found, fun r far => ?_⟩
  obtain ⟨ρ, value, below⟩ := peak r far
  exact ⟨ρ, value, below, div_le_one_of_le₀ below positive.le⟩

theorem rho_max_bounds_nfw :
    ∃ comp' bound greatest,
      boundComponent realDwarfLibm (set_p0 realDwarfLibm ⟨.nfw, 1, 1, 0, 0, 0⟩) 1 1 =
        some (comp', bound) ∧
      rho_max realDwarfLibm comp' = some greatest ∧
      ∀ r, 0 < r → ∃ ρ, get_density realDwarfLibm comp' r = some ρ ∧ r * r * ρ ≤ greatest ∧
        r * r * ρ / greatest ≤ 1 :=
  rho_max_bounds realDwarfLibm_real (.inr (.inl rfl)) one_pos
    one_pos 1 1

end MilkyWay.NBody
