import MilkyWay.Foundation.Gradient
import MilkyWay.NBody.Densities
import MilkyWay.NBody.BarRotation

/-! The components that are spheres: the divergence of the acceleration is the density,
but for the constant factor with the program's value of pi. The flux through a sphere is
differentiated for each kind. -/

namespace MilkyWay.NBody

open Foundation

noncomputable def programPi : ℝ := 3.1415926535

theorem programPi_eq : (3.1415926535 : ℝ) = programPi := rfl

theorem programPi_pos : 0 < programPi := by
  rw [programPi]
  norm_num

open Foundation.Numerals in
def PoissonAt (acc : Vec3 ℝ → Vec3 ℝ) (ρ : ℝ) (p : Vec3 ℝ) : Prop :=
  HasDivergence acc (-4 * programPi * ρ) p

structure RealLogs (L : LogLibm ℝ) : Prop where
  powers : RealPowers L.toLibm
  log (x : ℝ) : L.log x = Real.log x

variable {L : LogLibm ℝ} {p : Vec3 ℝ} {M a r : ℝ}

/-! ## The kinds that are both bulges and halos -/

theorem hernquist_flux (scaled : 0 < a) (positive : 0 < r) :
    HasDerivAt (fun s => s ^ 3 * (-M / (s * sqr (a + s))))
      (-4 * programPi * (M / (2 * programPi * a ^ 3) * a ^ 4 / (r * (r + a) ^ 3)) * r ^ 2) r := by
  have pi := programPi_pos
  have line : HasDerivAt (fun s : ℝ => a + s) 1 r := (hasDerivAt_id r).const_add a
  have sum : a + r ≠ 0 := (add_pos scaled positive).ne'
  have flux : HasDerivAt (fun s => -M * (s ^ 2 / (a + s) ^ 2)) _ r :=
    ((hasDerivAt_pow 2 r).fun_div (line.fun_pow 2) (pow_ne_zero 2 sum)).const_mul _
  refine (flux.congr_deriv ?_).congr_of_eventuallyEq ?_
  · rw [add_comm r a]
    field_simp
    norm_num
    ring
  · filter_upwards [lt_mem_nhds positive] with s far
    rw [sqr]
    field_simp

theorem decimals : (1.0 : ℝ) = 1 ∧ (2.0 : ℝ) = 2 ∧ (3.0 : ℝ) = 3 ∧ (4.0 : ℝ) = 4 := by
  norm_num

namespace RealPowers
variable {K : Libm ℝ} (powers : RealPowers K)
include powers

theorem four (x : ℝ) : K.pow x 4.0 = x ^ 4 := by
  rw [powers.pow, show (4.0 : ℝ) = (4 : ℕ) by norm_num, Real.rpow_natCast]

theorem fiveHalves {x : ℝ} (nonneg : 0 ≤ x) :
    K.pow x 2.5 = √x ^ 5 ∧ K.pow x (-2.5) = (√x ^ 5)⁻¹ := by
  have power : x ^ (2.5 : ℝ) = √x ^ 5 := by
    rw [Real.sqrt_eq_rpow, ← Real.rpow_natCast, ← Real.rpow_mul nonneg]
    norm_num
  rw [powers.pow, powers.pow, Real.rpow_neg nonneg, power]
  exact ⟨rfl, rfl⟩

end RealPowers

theorem hernquistSpherical_poisson (powers : RealPowers L.toLibm) {sph : Spherical ℝ}
    (scaled : 0 < sph.scale) (far : 0 < p.norm) :
    PoissonAt (fun q => hernquistSphericalAccel sph q q.norm)
      (hernquistSphericalDensity L.toLibm sph p.norm) p := by
  have divisor : p.norm * L.pow (p.norm + sph.scale) 3.0 ≠ 0 := by
    rw [powers.three, cube]
    positivity
  refine HasDivergence.central (c := fun s => -sph.mass / (s * sqr (sph.scale + s))) far
    ((hernquist_flux scaled far).congr_deriv ?_)
  rw [hernquistSphericalDensity, if_neg (by simpa using divisor)]
  simp only [powers.three, powers.four]
  simp only [cube, decimals, programPi]
  ring

theorem hernquistHalo_poisson (powers : RealPowers L.toLibm) {h : Halo ℝ}
    (scaled : 0 < h.scaleLength) (far : 0 < p.norm) :
    PoissonAt (fun q => hernquistHaloAccel h q q.norm)
      (hernquistHaloDensity L.toLibm h p.norm) p := by
  have divisor : p.norm * L.pow (p.norm + h.scaleLength) 3.0 ≠ 0 := by
    rw [powers.three, cube]
    positivity
  have divisor' : 2.0 * 3.1415926535 * L.pow h.scaleLength 3.0 ≠ 0 := by
    rw [powers.three, cube]
    positivity
  refine HasDivergence.central (c := fun s => -h.mass / (s * sqr (h.scaleLength + s))) far
    ((hernquist_flux scaled far).congr_deriv ?_)
  rw [hernquistHaloDensity, if_neg (by
    rw [Bool.or_eq_true, beq_iff_eq, beq_iff_eq]
    exact not_or.mpr ⟨divisor, divisor'⟩)]
  simp only [powers.three, powers.four]
  simp only [cube, decimals, programPi]
  ring

theorem plummer_flux (scaled : 0 < a) (positive : 0 < r) :
    HasDerivAt (fun s => s ^ 3 * (-M / √(s ^ 2 + a ^ 2) ^ 3))
      (-4 * programPi * (3 * M / (4 * programPi * a ^ 3) * (√(1 + (r / a) ^ 2) ^ 5)⁻¹) * r ^ 2)
      r := by
  have pi := programPi_pos
  have root : 0 < √(r ^ 2 + a ^ 2) := Real.sqrt_pos.mpr (by positivity)
  have flux : HasDerivAt (fun s => -M * (s ^ 3 / √(s ^ 2 + a ^ 2) ^ 3)) _ r :=
    ((hasDerivAt_pow 3 r).fun_div ((hasDerivAt_softened a positive).fun_pow 3)
      (pow_ne_zero 3 root.ne')).const_mul _
  refine (flux.congr_deriv ?_).congr_of_eventuallyEq (.of_eq ?_)
  · have softened : √(1 + (r / a) ^ 2) = √(r ^ 2 + a ^ 2) / a := by
      rw [← Real.sqrt_sq scaled.le, ← Real.sqrt_div' _ (sq_nonneg a), Real.sqrt_sq scaled.le]
      congr 1
      field_simp
      ring
    have square := Real.sq_sqrt (show 0 ≤ r ^ 2 + a ^ 2 by positivity)
    rw [softened]
    generalize √(r ^ 2 + a ^ 2) = q at *
    field_simp
    norm_num
    linear_combination 3 * r ^ 2 * q ^ 2 * M * square
  · funext s
    ring

theorem plummerDensity_eq (powers : RealPowers L.toLibm) (scaled : 0 < a) (M r : ℝ) :
    plummerDensity L.toLibm a M r =
      3 * M / (4 * programPi * a ^ 3) * (√(1 + (r / a) ^ 2) ^ 5)⁻¹ := by
  have nonneg : 0 ≤ 1 + r / a * (r / a) := add_nonneg zero_le_one (mul_self_nonneg _)
  rw [plummerDensity, if_neg (by simpa using scaled.ne')]
  simp only [powers.three, powers.two]
  simp only [cube, sqr, decimals, (powers.fiveHalves nonneg).2, programPi]
  ring_nf

theorem plummerSpherical_poisson (powers : RealPowers L.toLibm) {sph : Spherical ℝ}
    (scaled : 0 < sph.scale) (far : 0 < p.norm) :
    PoissonAt (fun q => plummerSphericalAccel L.toLibm sph q q.norm)
      (plummerSphericalDensity L.toLibm sph p.norm) p := by
  have field : (fun q => plummerSphericalAccel L.toLibm sph q q.norm) =
      fun q : Vec3 ℝ => (-sph.mass / √(q.norm ^ 2 + sph.scale ^ 2) ^ 3) • q := by
    funext q
    rw [plummerSphericalAccel, powers.three, powers.sqrt, cube, sqr, sqr, ← sq, ← sq, add_comm]
    ring_nf
  rw [field, plummerSphericalDensity, plummerDensity_eq powers scaled]
  exact HasDivergence.central far (plummer_flux scaled far)

theorem plummerHalo_poisson (powers : RealPowers L.toLibm) {h : Halo ℝ}
    (scaled : 0 < h.scaleLength) (far : 0 < p.norm) :
    PoissonAt (fun q => plummerHaloAccel L.toLibm h q q.norm)
      (plummerHaloDensity L.toLibm h p.norm) p := by
  have field : (fun q => plummerHaloAccel L.toLibm h q q.norm) =
      fun q : Vec3 ℝ => (-h.mass / √(q.norm ^ 2 + h.scaleLength ^ 2) ^ 3) • q := by
    funext q
    rw [plummerHaloAccel, powers.sqrt, cube, sqr, sqr, ← sq, ← sq, add_comm]
    ring_nf
  rw [field, plummerHaloDensity, plummerDensity_eq powers scaled]
  exact HasDivergence.central far (plummer_flux scaled far)

/-! ## The other halos -/

theorem nfw_flux (scaled : 0 < a) (positive : 0 < r) :
    HasDerivAt (fun s => s ^ 3 * (-M / sqr s * (Real.log ((a + s) / a) / s - 1 / (a + s))))
      (-M / (r * (a + r) ^ 2) * r ^ 2) r := by
  have line : HasDerivAt (fun s : ℝ => a + s) 1 r := (hasDerivAt_id r).const_add a
  have sum : a + r ≠ 0 := (add_pos scaled positive).ne'
  have inner : HasDerivAt (fun s => Real.log ((a + s) / a)) (1 / (a + r)) r := by
    refine ((line.div_const a).log (div_ne_zero sum scaled.ne')).congr_deriv ?_
    field_simp
  have flux : HasDerivAt (fun s => -M * (Real.log ((a + s) / a) - s / (a + s))) _ r :=
    (inner.sub ((hasDerivAt_id r).fun_div line sum)).const_mul _
  refine (flux.congr_deriv ?_).congr_of_eventuallyEq ?_
  · simp only [id]
    field_simp
    ring
  · filter_upwards [lt_mem_nhds positive] with s far
    rw [sqr]
    field_simp

theorem nfwHalo_poisson (real : RealLogs L) {h : Halo ℝ} (scaled : 0 < h.scaleLength)
    (far : 0 < p.norm) :
    PoissonAt (fun q => nfwHaloAccel L h q q.norm) (NFWHaloDensity L.toLibm h p.norm) p := by
  refine HasDivergence.central (c := fun s => -(sqr h.vhalo * h.scaleLength / 0.2162165954) /
    sqr s * (L.log ((h.scaleLength + s) / h.scaleLength) / s - 1.0 / (h.scaleLength + s))) far ?_
  simp only [real.log, decimals]
  refine (nfw_flux scaled far).congr_deriv ?_
  rw [NFWHaloDensity, if_neg (by simpa using far.ne')]
  simp only [real.powers.two]
  simp only [sqr, decimals, programPi]
  field_simp

theorem nfwMassHalo_poisson (real : RealLogs L) {h : Halo ℝ} (scaled : 0 < h.scaleLength)
    (far : 0 < p.norm) :
    PoissonAt (fun q => NFWMHaloAccel L h q q.norm) (NFWMHaloDensity h p.norm) p := by
  refine HasDivergence.central (c := fun s => -h.mass / sqr s *
    (L.log ((h.scaleLength + s) / h.scaleLength) / s - 1.0 / (h.scaleLength + s))) far ?_
  simp only [real.log, decimals]
  refine (nfw_flux scaled far).congr_deriv ?_
  rw [NFWMHaloDensity, if_neg (by simpa using far.ne')]
  simp only [decimals, programPi]
  field_simp

theorem norm_beq_zero (far : 0 < p.norm) : ¬(p.norm == 0.0) = true := by
  rw [beq_iff_eq]
  norm_num
  exact far.ne'

theorem near_lt_norm (far : 0 < p.norm) {bound : ℝ} (below : p.norm < bound) :
    Near (fun q => q.norm < bound) p :=
  (hasGradient_norm far).near (Iio_mem_nhds below)

theorem near_norm_lt (far : 0 < p.norm) {bound : ℝ} (above : bound < p.norm) :
    Near (fun q => bound < q.norm) p :=
  (hasGradient_norm far).near (Ioi_mem_nhds above)

theorem enclosed_flux (k : ℝ) (positive : 0 < r) :
    HasDerivAt (fun s => s ^ 3 * (k / s ^ 3)) 0 r := by
  refine (hasDerivAt_const r k).congr_of_eventuallyEq ?_
  filter_upwards [lt_mem_nhds positive] with s far
  field_simp

theorem allenSantillan_flux (b : ℝ) (scaled : 0 < a) (positive : 0 < r) :
    HasDerivAt (fun s => s ^ 3 * (-(M / (a * s)) * (s / a) ^ b / (1 + (s / a) ^ b) / s))
      (-(M * ((r / a) ^ b * ((r / a) ^ b + b + 1)) / a / (r * r * (1 + (r / a) ^ b) ^ 2)) *
        r ^ 2) r := by
  have ratio : 0 < r / a := div_pos positive scaled
  have power : HasDerivAt (fun s => (s / a) ^ b) (b * (r / a) ^ b / r) r := by
    refine (((hasDerivAt_id r).div_const a).rpow_const (.inl ratio.ne')).congr_deriv ?_
    rw [Real.rpow_sub_one (by exact ratio.ne')]
    simp only [id]
    field_simp
  have positive' : 0 < (r / a) ^ b := Real.rpow_pos_of_pos ratio b
  have flux : HasDerivAt (fun s => -(M / a) * (s * (s / a) ^ b / (1 + (s / a) ^ b))) _ r :=
    (((hasDerivAt_id r).fun_mul power).fun_div (power.const_add 1)
      (add_pos one_pos positive').ne').const_mul _
  refine (flux.congr_deriv ?_).congr_of_eventuallyEq ?_
  · simp only [id]
    generalize (r / a) ^ b = u at *
    field_simp
    ring
  · filter_upwards [lt_mem_nhds positive] with s far
    field_simp

theorem allenSantillanHalo_poisson (powers : RealPowers L.toLibm) {h : Halo ℝ}
    (scaled : 0 < h.scaleLength) (far : 0 < p.norm) (off : p.norm ≠ h.lambda) :
    PoissonAt (fun q => ASHaloAccel L.toLibm h q q.norm)
      (allenSantillanHaloDensity L.toLibm h p.norm) p := by
  rw [allenSantillanHaloDensity, if_neg (norm_beq_zero far)]
  obtain inside | outside := lt_or_gt_of_ne off
  · rw [if_neg (not_lt.mpr inside.le)]
    have field : HasDivergence (fun q : Vec3 ℝ => (-(h.mass / (h.scaleLength * q.norm)) *
        (q.norm / h.scaleLength) ^ (h.gamma - 1) /
          (1 + (q.norm / h.scaleLength) ^ (h.gamma - 1)) / q.norm) • q) _ p :=
      HasDivergence.central far (allenSantillan_flux (h.gamma - 1) scaled far)
    have density : -4 * programPi * (h.mass * (L.pow (p.norm / h.scaleLength) (h.gamma - 1.0) *
        (L.pow (p.norm / h.scaleLength) (h.gamma - 1.0) + (h.gamma - 1.0) + 1.0)) /
          h.scaleLength / (p.norm * p.norm *
            L.pow (1.0 + L.pow (p.norm / h.scaleLength) (h.gamma - 1.0)) 2.0) / 4.0 /
              3.1415926535) =
        -(h.mass * ((p.norm / h.scaleLength) ^ (h.gamma - 1) *
          ((p.norm / h.scaleLength) ^ (h.gamma - 1) + (h.gamma - 1) + 1)) / h.scaleLength /
            (p.norm * p.norm * (1 + (p.norm / h.scaleLength) ^ (h.gamma - 1)) ^ 2)) := by
      have pi := programPi_pos.ne'
      rw [powers.two, powers.pow, sqr]
      simp only [decimals]
      rw [programPi_eq]
      field_simp
    rw [PoissonAt, density]
    refine field.congr ((near_lt_norm far inside).mono fun q below => ?_)
    rw [ASHaloAccel, if_pos below]
    simp only [powers.pow, decimals]
  · rw [if_pos outside]
    have field := HasDivergence.central (c := fun s => -h.mass *
      (L.pow (h.lambda / h.scaleLength) h.gamma /
        (1.0 + L.pow (h.lambda / h.scaleLength) (h.gamma - 1.0))) / s ^ 3) (d := 0) far
      ((enclosed_flux _ far).congr_deriv (by ring))
    have none : -4 * programPi * 0.0 = 0 := by norm_num
    rw [PoissonAt, none]
    refine field.congr ((near_norm_lt far outside).mono fun q above => ?_)
    rw [ASHaloAccel, if_neg (not_lt.mpr above.le), powers.two, sqr]
    congr 1
    ring

theorem wilkinsonEvans_flux (scaled : 0 < a) (positive : 0 < r) :
    HasDerivAt (fun s => s ^ 3 * (-M / s * (a + √(s ^ 2 + a ^ 2)) /
        (s ^ 2 + a ^ 2 + a * √(s ^ 2 + a ^ 2)) / s))
      (-(M * a * a / (r * r * √(r ^ 2 + a ^ 2) ^ 3)) * r ^ 2) r := by
  have root (s : ℝ) : 0 < √(s ^ 2 + a ^ 2) := Real.sqrt_pos.mpr (by positivity)
  have square (s : ℝ) := Real.sq_sqrt (show 0 ≤ s ^ 2 + a ^ 2 by positivity)
  have flux : HasDerivAt (fun s => -M * (s / √(s ^ 2 + a ^ 2))) _ r :=
    ((hasDerivAt_id r).fun_div (hasDerivAt_softened a positive) (root r).ne').const_mul _
  refine (flux.congr_deriv ?_).congr_of_eventuallyEq ?_
  · have far := root r
    have radius := square r
    simp only [id]
    generalize √(r ^ 2 + a ^ 2) = q at *
    field_simp
    linear_combination -M * radius
  · filter_upwards [lt_mem_nhds positive] with s far
    have near := root s
    have radius := square s
    generalize √(s ^ 2 + a ^ 2) = q at *
    have sum : s ^ 2 + a ^ 2 + a * q = q * (a + q) := by linear_combination -radius
    rw [sum]
    field_simp

theorem wilkinsonEvansHalo_poisson (powers : RealPowers L.toLibm) {h : Halo ℝ}
    (scaled : 0 < h.scaleLength) (far : 0 < p.norm) :
    PoissonAt (fun q => WEHaloAccel L.toLibm h q q.norm)
      (wilkinsonEvansHaloDensity L.toLibm h p.norm) p := by
  have sum (s : ℝ) : sqr h.scaleLength + sqr s = s ^ 2 + h.scaleLength ^ 2 := by
    simp only [sqr]
    ring
  have field : (fun q => WEHaloAccel L.toLibm h q q.norm) = fun q : Vec3 ℝ =>
      (-h.mass / q.norm * (h.scaleLength + √(q.norm ^ 2 + h.scaleLength ^ 2)) /
        (q.norm ^ 2 + h.scaleLength ^ 2 +
          h.scaleLength * √(q.norm ^ 2 + h.scaleLength ^ 2)) / q.norm) • q := by
    funext q
    simp only [WEHaloAccel, powers.sqrt, sum]
  have nonneg : 0 ≤ p.norm * p.norm + h.scaleLength * h.scaleLength :=
    add_nonneg (mul_self_nonneg _) (mul_self_nonneg _)
  have pi := programPi_pos
  rw [field, wilkinsonEvansHaloDensity, if_neg (norm_beq_zero far), powers.threeHalves nonneg,
    powers.sqrt, cube_sqrt nonneg, ← sq, ← sq]
  refine HasDivergence.central far ((wilkinsonEvans_flux scaled far).congr_deriv ?_)
  simp only [decimals]
  rw [programPi_eq]
  field_simp

theorem ninkovic_flux (ρ c : ℝ) (scaled : 0 < a) (positive : 0 < r) :
    HasDerivAt (fun s => s ^ 3 * (-(4 * programPi / 3 * ρ * cube a *
        (Real.log (1 + cube (s / a)) - cube (s / a) / c)) / cube s))
      (-4 * programPi * (ρ * (1 / (1 + cube (r / a)) - 1 / c)) * r ^ 2) r := by
  have cubed : HasDerivAt (fun s => cube (s / a)) (3 * r ^ 2 / a ^ 3) r := by
    have shape : (fun s => cube (s / a)) = fun s => s ^ 3 / a ^ 3 := by
      funext s
      rw [cube]
      ring
    rw [shape]
    exact ((hasDerivAt_pow 3 r).div_const _).congr_deriv (by simp)
  have above : 0 < 1 + cube (r / a) := by
    rw [cube]
    positivity
  have flux : HasDerivAt (fun s => -(4 * programPi / 3 * ρ * cube a) *
      (Real.log (1 + cube (s / a)) - cube (s / a) / c)) _ r :=
    (((cubed.const_add 1).log above.ne').sub (cubed.div_const c)).const_mul _
  refine (flux.congr_deriv ?_).congr_of_eventuallyEq ?_
  · have divisor := above.ne'
    generalize 1 + cube (r / a) = q at *
    rw [cube]
    field_simp
  · filter_upwards [lt_mem_nhds positive] with s far
    have nonzero : cube s = s ^ 3 := by
      rw [cube]
      ring
    rw [nonzero]
    field_simp

theorem ninkovicHaloDensity_eq (powers : RealPowers L.toLibm) (h : Halo ℝ) (r : ℝ) :
    ninkovicHaloDensity L.toLibm h r = max (h.rho0 * (1 / (1 + cube (r / h.scaleLength)) -
      1 / (1 + cube (h.lambda / h.scaleLength)))) 0 := by
  rw [ninkovicHaloDensity]
  simp only [powers.three]
  simp only [decimals]
  norm_num
  split
  · next negative => exact (max_eq_right negative.le).symm
  · next nonneg => exact (max_eq_left (not_lt.mp nonneg)).symm

theorem ninkovic_bracket {x y : ℝ} (scaled : 0 < a) (positive : 0 < x) (lt : x < y) :
    1 / (1 + cube (y / a)) < 1 / (1 + cube (x / a)) := by
  have ratio := div_lt_div_of_pos_right lt scaled
  have power := pow_lt_pow_left₀ ratio (div_pos positive scaled).le three_ne_zero
  have above : 0 < 1 + cube (x / a) := by
    rw [cube]
    positivity
  refine one_div_lt_one_div_of_lt above ?_
  simp only [cube, ← sq, ← pow_succ]
  linarith

theorem ninkovicHalo_poisson (real : RealLogs L) {h : Halo ℝ} (scaled : 0 < h.scaleLength)
    (wide : 0 < h.lambda) (dense : 0 ≤ h.rho0) (far : 0 < p.norm) (off : p.norm ≠ h.lambda) :
    PoissonAt (fun q => ninkovicHaloAccel L h q q.norm)
      (ninkovicHaloDensity L.toLibm h p.norm) p := by
  rw [PoissonAt, ninkovicHaloDensity_eq real.powers]
  obtain inside | outside := lt_or_gt_of_ne off
  · have bracket := ninkovic_bracket scaled far inside
    rw [max_eq_left (mul_nonneg dense (sub_pos.mpr bracket).le)]
    have field := HasDivergence.central far (ninkovic_flux h.rho0
      (1 + cube (h.lambda / h.scaleLength)) scaled far)
    refine field.congr ((near_lt_norm far inside).mono fun q below => ?_)
    rw [ninkovicHaloAccel, if_neg (not_lt.mpr below.le)]
    simp only [real.log, decimals, programPi]
  · have bracket := ninkovic_bracket scaled wide outside
    rw [max_eq_right (mul_nonpos_of_nonneg_of_nonpos dense (sub_neg.mpr bracket).le), mul_zero]
    have field := HasDivergence.central (c := fun s => -(4.0 * 3.1415926535 / 3.0 * h.rho0 *
      cube h.scaleLength * (L.log (1.0 + cube (h.lambda / h.scaleLength)) -
        cube (h.lambda / h.scaleLength) / (1.0 + cube (h.lambda / h.scaleLength)))) / s ^ 3)
      (d := 0) far ((enclosed_flux _ far).congr_deriv (by ring))
    refine field.congr ((near_norm_lt far outside).mono fun q above => ?_)
    have cubed : q.norm ^ 3 = cube q.norm := pow_three' _
    rw [ninkovicHaloAccel, if_pos above, cubed]

end MilkyWay.NBody
