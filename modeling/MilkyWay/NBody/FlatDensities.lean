import MilkyWay.NBody.CentralDensities

/-! The components that are not spheres: the flattened disk, the halos of a logarithm and
the bar that orbits. The gradients of the coordinates of the acceleration are summed up to
the density. -/

namespace MilkyWay.NBody

open Foundation

variable {L : LogLibm ℝ} {p : Vec3 ℝ}

/-! ## The flattened disk -/

noncomputable def softHeight (b : ℝ) (p : Vec3 ℝ) : ℝ := √(p.z ^ 2 + b ^ 2)

theorem softHeight_pos {b : ℝ} (scaled : 0 < b) (p : Vec3 ℝ) : 0 < softHeight b p :=
  Real.sqrt_pos.mpr (by positivity)

theorem softHeight_sq (b : ℝ) (p : Vec3 ℝ) : softHeight b p ^ 2 = p.z ^ 2 + b ^ 2 :=
  Real.sq_sqrt (by positivity)

theorem hasGradient_softHeight {b : ℝ} (scaled : 0 < b) (p : Vec3 ℝ) :
    HasGradient (softHeight b) ⟨0, 0, p.z / softHeight b p⟩ p := by
  refine (((hasGradient_z p).sq.add (hasGradient_const (b ^ 2) p)).sqrt
    (by positivity)).congr_grad ?_
  have nonzero := (softHeight_pos scaled p).ne'
  ext
  · simp
  · simp
  · simp only [Vec3.smul_z, Vec3.add_z, Vec3.zero_z]
    change (2 * softHeight b p)⁻¹ * _ = _
    field_simp
    ring

noncomputable def diskDistance (a b : ℝ) (p : Vec3 ℝ) : ℝ :=
  √(p.x ^ 2 + p.y ^ 2 + (a + softHeight b p) ^ 2)

theorem diskDistance_sq (a b : ℝ) (p : Vec3 ℝ) :
    diskDistance a b p ^ 2 = p.x ^ 2 + p.y ^ 2 + (a + softHeight b p) ^ 2 :=
  Real.sq_sqrt (by positivity)

section
variable {a b : ℝ} (scaled : 0 < a) (high : 0 < b)
include scaled high

theorem diskDistance_pos (p : Vec3 ℝ) : 0 < diskDistance a b p := by
  have positive := softHeight_pos high p
  exact Real.sqrt_pos.mpr (by positivity)

theorem hasGradient_diskDistance (p : Vec3 ℝ) :
    HasGradient (diskDistance a b) ⟨p.x / diskDistance a b p, p.y / diskDistance a b p,
      (a + softHeight b p) * p.z / (softHeight b p * diskDistance a b p)⟩ p := by
  have height := softHeight_pos high p
  have nonzero := (diskDistance_pos scaled high p).ne'
  refine ((((hasGradient_x p).sq.add (hasGradient_y p).sq).add
    ((hasGradient_const a p).add (hasGradient_softHeight high p)).sq).sqrt
      (by positivity)).congr_grad ?_
  ext
  · simp only [Vec3.smul_x, Vec3.add_x, Vec3.zero_x]
    change (2 * diskDistance a b p)⁻¹ * _ = _
    field_simp
    ring
  · simp only [Vec3.smul_y, Vec3.add_y, Vec3.zero_y]
    change (2 * diskDistance a b p)⁻¹ * _ = _
    field_simp
    ring
  · simp only [Vec3.smul_z, Vec3.add_z, Vec3.zero_z]
    change (2 * diskDistance a b p)⁻¹ * _ = _
    field_simp
    ring

theorem disk_divergence (M : ℝ) (p : Vec3 ℝ) :
    HasDivergence (fun q => ⟨-M * (q.x * (diskDistance a b q ^ 3)⁻¹),
        -M * (q.y * (diskDistance a b q ^ 3)⁻¹),
        -M * (q.z * (a + softHeight b q) * (softHeight b q)⁻¹ * (diskDistance a b q ^ 3)⁻¹)⟩)
      (-(M * b ^ 2 * (a * (p.x ^ 2 + p.y ^ 2) + (a + 3 * softHeight b p) *
        (a + softHeight b p) ^ 2)) / (diskDistance a b p ^ 5 * softHeight b p ^ 3)) p := by
  have height := (softHeight_pos high p).ne'
  have distance := (diskDistance_pos scaled high p).ne'
  have inverse := (hasGradient_diskDistance scaled high p).invCube distance
  have soft := hasGradient_softHeight high p
  refine HasDivergence.of_gradients
    (((hasGradient_x p).mul inverse).const_mul (-M))
    (((hasGradient_y p).mul inverse).const_mul (-M))
    (((((hasGradient_z p).mul ((hasGradient_const a p).add soft)).mul (soft.inv height)).mul
      inverse).const_mul (-M)) ?_
  have square := diskDistance_sq a b p
  have square' := softHeight_sq b p
  simp only [Vec3.add_x, Vec3.add_y, Vec3.add_z, Vec3.smul_x, Vec3.smul_y, Vec3.smul_z,
    Vec3.zero_z]
  generalize diskDistance a b p = T at *
  generalize softHeight b p = s at *
  field_simp
  linear_combination -M * (3 * s ^ 3 + (s ^ 2 - p.z ^ 2) * a) * square -
    M * (a * (p.x ^ 2 + p.y ^ 2) + (a + s) ^ 2 * (a + 3 * s)) * square'

end

section
variable (powers : RealPowers L.toLibm) {disk : Disk ℝ} (scaled : 0 < disk.scaleLength)
  (high : 0 < disk.scaleHeight)
include powers

theorem miyamotoNagai_height (b : ℝ) (q : Vec3 ℝ) :
    L.pow (L.pow q.z 2.0 + L.pow b 2.0) 0.5 = softHeight b q := by
  rw [powers.two, powers.two, powers.half, powers.sqrt, sqr, sqr, ← sq, ← sq, softHeight]

include scaled high

theorem miyamotoNagaiDiskAccel_eq : miyamotoNagaiDiskAccel L.toLibm disk = fun q =>
    ⟨-disk.mass * (q.x * (diskDistance disk.scaleLength disk.scaleHeight q ^ 3)⁻¹),
      -disk.mass * (q.y * (diskDistance disk.scaleLength disk.scaleHeight q ^ 3)⁻¹),
      -disk.mass * (q.z * (disk.scaleLength + softHeight disk.scaleHeight q) *
        (softHeight disk.scaleHeight q)⁻¹ *
          (diskDistance disk.scaleLength disk.scaleHeight q ^ 3)⁻¹)⟩ := by
  funext q
  have distance : sqr q.x + sqr q.y +
      sqr (disk.scaleLength + softHeight disk.scaleHeight q) =
        diskDistance disk.scaleLength disk.scaleHeight q ^ 2 := by
    rw [diskDistance_sq]
    simp only [sqr]
    ring
  have far := (diskDistance_pos scaled high q).le
  have power : L.pow (diskDistance disk.scaleLength disk.scaleHeight q ^ 2) 1.5 =
      diskDistance disk.scaleLength disk.scaleHeight q ^ 3 := by
    rw [powers.threeHalves (sq_nonneg _), powers.sqrt, cube_sqrt (sq_nonneg _),
      Real.sqrt_sq far]
  simp only [miyamotoNagaiDiskAccel, miyamotoNagai_height powers]
  simp only [powers.two, distance, power]
  ext
  · ring
  · ring
  · simp only [mul_inv, div_eq_mul_inv]
    ring

theorem miyamotoNagaiDiskDensity_eq (p : Vec3 ℝ) :
    miyamotoNagaiDiskDensity L.toLibm disk p = disk.mass * disk.scaleHeight ^ 2 *
      (disk.scaleLength * (p.x ^ 2 + p.y ^ 2) +
        (disk.scaleLength + 3 * softHeight disk.scaleHeight p) *
          (disk.scaleLength + softHeight disk.scaleHeight p) ^ 2) /
      (4 * programPi * diskDistance disk.scaleLength disk.scaleHeight p ^ 5 *
        softHeight disk.scaleHeight p ^ 3) := by
  have far := diskDistance_pos scaled high p
  have soft := softHeight_pos high p
  have circle : √(sqr p.x + sqr p.y) * √(sqr p.x + sqr p.y) = p.x ^ 2 + p.y ^ 2 := by
    have nonneg : 0 ≤ sqr p.x + sqr p.y := add_nonneg (mul_self_nonneg _) (mul_self_nonneg _)
    rw [Real.mul_self_sqrt nonneg, sqr, sqr, sq, sq]
  have power : L.pow (p.x ^ 2 + p.y ^ 2 +
      (disk.scaleLength + softHeight disk.scaleHeight p) *
        (disk.scaleLength + softHeight disk.scaleHeight p)) 2.5 =
          diskDistance disk.scaleLength disk.scaleHeight p ^ 5 := by
    rw [← sq, (powers.fiveHalves (by positivity)).1, diskDistance]
  have divisor : 4.0 * 3.1415926535 * diskDistance disk.scaleLength disk.scaleHeight p ^ 5 *
      cube (softHeight disk.scaleHeight p) ≠ 0 := by
    rw [cube]
    positivity
  simp only [miyamotoNagaiDiskDensity, miyamotoNagai_height powers]
  simp only [powers.half, powers.sqrt, powers.two, powers.three, circle, power]
  rw [if_neg (by simpa only [beq_iff_eq] using divisor)]
  simp only [mul_assoc, circle]
  simp only [sqr, cube, decimals, programPi]
  ring

theorem miyamotoNagai_poisson (p : Vec3 ℝ) :
    PoissonAt (miyamotoNagaiDiskAccel L.toLibm disk)
      (miyamotoNagaiDiskDensity L.toLibm disk p) p := by
  have pi := programPi_pos
  rw [PoissonAt, miyamotoNagaiDiskAccel_eq powers scaled high,
    miyamotoNagaiDiskDensity_eq powers scaled high]
  convert disk_divergence scaled high disk.mass p using 1
  field_simp

end

/-! ## The halos of the logarithm of a form -/

def haloForm (a c₁ c₂ c₃ c₄ : ℝ) (p : Vec3 ℝ) : ℝ :=
  a + c₁ * p.x ^ 2 + c₂ * p.y ^ 2 + c₃ * (p.x * p.y) + c₄ * p.z ^ 2

section
variable {a c₁ c₂ c₃ c₄ : ℝ}

theorem hasGradient_haloForm (p : Vec3 ℝ) : HasGradient (haloForm a c₁ c₂ c₃ c₄)
    ⟨2 * c₁ * p.x + c₃ * p.y, 2 * c₂ * p.y + c₃ * p.x, 2 * c₄ * p.z⟩ p := by
  refine (((((hasGradient_const a p).add ((hasGradient_x p).sq.const_mul c₁)).add
    ((hasGradient_y p).sq.const_mul c₂)).add
    (((hasGradient_x p).mul (hasGradient_y p)).const_mul c₃)).add
    ((hasGradient_z p).sq.const_mul c₄)).congr_grad ?_
  ext <;> simp <;> ring

theorem haloForm_divergence (k : ℝ) (nonzero : haloForm a c₁ c₂ c₃ c₄ p ≠ 0) :
    HasDivergence (fun q => ⟨k * ((2 * c₁ * q.x + c₃ * q.y) * (haloForm a c₁ c₂ c₃ c₄ q)⁻¹),
        k * ((2 * c₂ * q.y + c₃ * q.x) * (haloForm a c₁ c₂ c₃ c₄ q)⁻¹),
        k * (2 * c₄ * q.z * (haloForm a c₁ c₂ c₃ c₄ q)⁻¹)⟩)
      (k * ((2 * c₁ + 2 * c₂ + 2 * c₄) * haloForm a c₁ c₂ c₃ c₄ p -
        (2 * c₁ * p.x + c₃ * p.y) ^ 2 - (2 * c₂ * p.y + c₃ * p.x) ^ 2 - (2 * c₄ * p.z) ^ 2) /
          haloForm a c₁ c₂ c₃ c₄ p ^ 2) p := by
  have inverse := (hasGradient_haloForm (a := a) (p := p)).inv nonzero
  refine HasDivergence.of_gradients
    (((((hasGradient_x p).const_mul (2 * c₁)).add ((hasGradient_y p).const_mul c₃)).mul
      inverse).const_mul k)
    (((((hasGradient_y p).const_mul (2 * c₂)).add ((hasGradient_x p).const_mul c₃)).mul
      inverse).const_mul k)
    ((((hasGradient_z p).const_mul (2 * c₄)).mul inverse).const_mul k) ?_
  simp only [Vec3.add_x, Vec3.add_y, Vec3.add_z, Vec3.smul_x, Vec3.smul_y, Vec3.smul_z]
  generalize haloForm a c₁ c₂ c₃ c₄ p = D at *
  field_simp
  ring

end

theorem logHalo_poisson (powers : RealPowers L.toLibm) {h : Halo ℝ} (scaled : 0 < h.scaleLength)
    (flat : h.flattenZ ≠ 0) (p : Vec3 ℝ) :
    PoissonAt (logHaloAccel L.toLibm h) (logarithmicHaloDensity L.toLibm h p) p := by
  let form := haloForm (h.scaleLength ^ 2) 1 1 0 (1 / h.flattenZ ^ 2)
  have form_eq (q : Vec3 ℝ) : form q = h.scaleLength ^ 2 + q.x ^ 2 + q.y ^ 2 +
      (q.z / h.flattenZ) ^ 2 := by
    simp only [form, haloForm]
    ring
  have positive (q : Vec3 ℝ) : 0 < form q := by
    rw [form_eq]
    positivity
  have pi := programPi_pos
  have field : logHaloAccel L.toLibm h = fun q =>
      ⟨-h.vhalo ^ 2 * ((2 * 1 * q.x + 0 * q.y) * (form q)⁻¹),
        -h.vhalo ^ 2 * ((2 * 1 * q.y + 0 * q.x) * (form q)⁻¹),
        -h.vhalo ^ 2 * (2 * (1 / h.flattenZ ^ 2) * q.z * (form q)⁻¹)⟩ := by
    funext q
    have denom : L.pow h.scaleLength 2.0 + L.pow q.x 2.0 + L.pow q.y 2.0 +
        L.pow (q.z / h.flattenZ) 2.0 = form q := by
      rw [form_eq]
      simp only [powers.two, sqr, sq]
    have two : (-2.0 : ℝ) = -2 := by norm_num
    simp only [logHaloAccel, denom, two]
    ext
    · ring
    · ring
    · ring
  have density : -4 * programPi * logarithmicHaloDensity L.toLibm h p =
      -h.vhalo ^ 2 * ((2 * 1 + 2 * 1 + 2 * (1 / h.flattenZ ^ 2)) * form p -
        (2 * 1 * p.x + 0 * p.y) ^ 2 - (2 * 1 * p.y + 0 * p.x) ^ 2 -
          (2 * (1 / h.flattenZ ^ 2) * p.z) ^ 2) / form p ^ 2 := by
    have denom : L.pow p.x 2.0 + L.pow p.y 2.0 + h.scaleLength * h.scaleLength +
        L.pow (p.z / h.flattenZ) 2.0 = form p := by
      rw [form_eq]
      simp only [powers.two, sqr]
      ring
    have nonzero := (positive p).ne'
    have value := form_eq p
    simp only [logarithmicHaloDensity, denom]
    simp only [powers.two]
    simp only [sqr, decimals]
    rw [programPi_eq]
    generalize form p = D at *
    field_simp
    field_simp at value
    linear_combination 4 * h.vhalo ^ 2 * (1 + 2 * h.flattenZ ^ 2) * value
  rw [PoissonAt, field, density]
  exact haloForm_divergence _ (positive p).ne'

noncomputable def triaxialForm (h : Halo ℝ) : Vec3 ℝ → ℝ :=
  haloForm (h.scaleLength ^ 2) h.c1 h.c2 h.c3 (1 / h.flattenZ ^ 2)

theorem triaxialForm_accel (h : Halo ℝ) (q : Vec3 ℝ) :
    sqr q.z / sqr h.flattenZ + (sqr h.scaleLength + h.c1 * sqr q.x + h.c3 * q.x * q.y +
      h.c2 * sqr q.y) = triaxialForm h q := by
  simp only [triaxialForm, haloForm, sqr]
  ring

theorem triaxialForm_height {h : Halo ℝ} (flat : h.flattenZ ≠ 0) (q : Vec3 ℝ) :
    sqr h.flattenZ * (sqr h.scaleLength + h.c1 * sqr q.x + h.c3 * q.x * q.y +
      h.c2 * sqr q.y) + sqr q.z = h.flattenZ ^ 2 * triaxialForm h q := by
  rw [← triaxialForm_accel]
  simp only [sqr]
  field_simp
  ring

theorem triaxialForm_density (powers : RealPowers L.toLibm) (h : Halo ℝ) (q : Vec3 ℝ) :
    h.scaleLength * h.scaleLength + h.c1 * L.pow q.x 2.0 + h.c2 * L.pow q.y 2.0 +
      h.c3 * q.x * q.y + L.pow q.z 2.0 / h.flattenZ / h.flattenZ = triaxialForm h q := by
  simp only [powers.two, triaxialForm, haloForm, sqr]
  ring

theorem triaxialHalo_poisson (powers : RealPowers L.toLibm) {h : Halo ℝ}
    (flat : h.flattenZ ≠ 0) (nonzero : triaxialForm h p ≠ 0) :
    PoissonAt (triaxialHaloAccel h) (triaxialHaloDensity L.toLibm h p) p := by
  have pi := programPi_pos
  have field : triaxialHaloAccel h = fun q =>
      ⟨-h.vhalo ^ 2 * ((2 * h.c1 * q.x + h.c3 * q.y) * (triaxialForm h q)⁻¹),
        -h.vhalo ^ 2 * ((2 * h.c2 * q.y + h.c3 * q.x) * (triaxialForm h q)⁻¹),
        -h.vhalo ^ 2 * (2 * (1 / h.flattenZ ^ 2) * q.z * (triaxialForm h q)⁻¹)⟩ := by
    funext q
    simp only [triaxialHaloAccel, triaxialForm_accel, triaxialForm_height flat]
    simp only [decimals, sqr]
    ext
    · ring
    · ring
    · field_simp
  have density : -4 * programPi * triaxialHaloDensity L.toLibm h p =
      -h.vhalo ^ 2 * ((2 * h.c1 + 2 * h.c2 + 2 * (1 / h.flattenZ ^ 2)) * triaxialForm h p -
        (2 * h.c1 * p.x + h.c3 * p.y) ^ 2 - (2 * h.c2 * p.y + h.c3 * p.x) ^ 2 -
          (2 * (1 / h.flattenZ ^ 2) * p.z) ^ 2) / triaxialForm h p ^ 2 := by
    simp only [triaxialHaloDensity, triaxialForm_density powers]
    simp only [powers.two]
    simp only [sqr, decimals]
    rw [programPi_eq]
    generalize triaxialForm h p = D at *
    field_simp
  rw [PoissonAt, field, density]
  exact haloForm_divergence _ nonzero

theorem triaxialForm_pos {K : Libm ℝ} {M_PI : ℝ} {h : Halo ℝ} (cos : ∀ x, K.cos x = Real.cos x)
    (sin : ∀ x, K.sin x = Real.sin x) (triaxial : h.type = .triaxial)
    (checked : checkHaloConstants K M_PI h = some h) (scaled : 0 < h.scaleLength)
    (flatX : h.flattenX ≠ 0) (flatY : h.flattenY ≠ 0) (p : Vec3 ℝ) : 0 < triaxialForm h p := by
  have constants := checked
  unfold checkHaloConstants at constants
  rw [triaxial] at constants
  have same := Option.some.inj constants
  have c1 := congrArg Halo.c1 same
  have c2 := congrArg Halo.c2 same
  have c3 := congrArg Halo.c3 same
  simp only [cos, sin, decimals, Real.sin_two_mul] at c1 c2 c3
  generalize h.triaxAngle * M_PI / 180.0 = φ at *
  have form : triaxialForm h p = h.scaleLength ^ 2 +
      ((Real.cos φ * p.x + Real.sin φ * p.y) / h.flattenX) ^ 2 +
      ((Real.sin φ * p.x - Real.cos φ * p.y) / h.flattenY) ^ 2 + (p.z / h.flattenZ) ^ 2 := by
    simp only [triaxialForm, haloForm]
    rw [← c1, ← c2, ← c3]
    simp only [sqr]
    by_cases flat : h.flattenZ = 0
    · simp only [flat]
      field_simp
      ring
    · field_simp
      ring
  rw [form]
  positivity

/-! ## The bar -/

/-- The force of the end at `-s` of a needle, softened across it; that of the bar is the
difference of its ends. -/
noncomputable def needleForce (s : ℝ) (p : Vec3 ℝ) : Vec3 ℝ :=
  ⟨(barEnd s p)⁻¹, -1 * (p.y * (s + p.x) * (barAcross p)⁻¹ * (barEnd s p)⁻¹),
    -1 * (p.z * (1.4 + softHeight 1 p) * (softHeight 1 p)⁻¹ * (s + p.x) * (barAcross p)⁻¹ *
      (barEnd s p)⁻¹)⟩

theorem barAcross_softHeight (p : Vec3 ℝ) :
    barAcross p = p.y ^ 2 + (1.4 + softHeight 1 p) ^ 2 := by
  rw [barAcross, softHeight, one_pow]

theorem hasGradient_barAcross (p : Vec3 ℝ) : HasGradient barAcross
    ⟨0, 2 * p.y, 2 * (1.4 + softHeight 1 p) * (p.z / softHeight 1 p)⟩ p := by
  have shape : barAcross = fun q => q.y ^ 2 + (1.4 + softHeight 1 q) ^ 2 :=
    funext barAcross_softHeight
  rw [shape]
  refine ((hasGradient_y p).sq.add
    ((hasGradient_const 1.4 p).add (hasGradient_softHeight one_pos p)).sq).congr_grad ?_
  ext <;> simp

theorem barEnd_sq (s : ℝ) (p : Vec3 ℝ) : barEnd s p ^ 2 = (s + p.x) ^ 2 + barAcross p :=
  Real.sq_sqrt (add_nonneg (sq_nonneg _) (barAcross_pos p).le)

theorem hasGradient_barEnd (s : ℝ) (p : Vec3 ℝ) : HasGradient (barEnd s)
    ⟨(s + p.x) / barEnd s p, p.y / barEnd s p,
      (1.4 + softHeight 1 p) * (p.z / softHeight 1 p) / barEnd s p⟩ p := by
  have nonzero := (barEnd_pos s p).ne'
  refine ((((hasGradient_const s p).add (hasGradient_x p)).sq.add
    (hasGradient_barAcross p)).sqrt
      (add_pos_of_nonneg_of_pos (sq_nonneg _) (barAcross_pos p))).congr_grad ?_
  have root : √((s + p.x) ^ 2 + barAcross p) = barEnd s p := rfl
  ext
  · simp only [Vec3.smul_x, Vec3.add_x, Vec3.zero_x, root]
    field_simp
    ring
  · simp only [Vec3.smul_y, Vec3.add_y, Vec3.zero_y, root]
    field_simp
    ring
  · simp only [Vec3.smul_z, Vec3.add_z, Vec3.zero_z, root]
    field_simp
    ring

theorem needleForce_gradients (s : ℝ) (p : Vec3 ℝ) : HasGradients (needleForce s)
    (-((s + p.x) * (3 * (1.4 * p.y ^ 2 + (1.4 + 3 * softHeight 1 p) *
        (1.4 + softHeight 1 p) ^ 2) * barAcross p +
      (2 * (1.4 * p.y ^ 2 + (1.4 + 3 * softHeight 1 p) * (1.4 + softHeight 1 p) ^ 2) +
        1.4 * barAcross p) * (s + p.x) ^ 2)) /
      (3 * barAcross p ^ 2 * softHeight 1 p ^ 3 * barEnd s p ^ 3)) p := by
  have height := (softHeight_pos one_pos p).ne'
  have across := (barAcross_pos p).ne'
  have far := (barEnd_pos s p).ne'
  have soft := hasGradient_softHeight one_pos p
  have line := (hasGradient_const s p).add (hasGradient_x p)
  have inverse := (hasGradient_barEnd s p).inv far
  have inverse' := (hasGradient_barAcross p).inv across
  refine ⟨_, _, _, inverse,
    ((((hasGradient_y p).mul line).mul inverse').mul inverse).const_mul (-1),
    (((((((hasGradient_z p).mul ((hasGradient_const 1.4 p).add soft)).mul
      (soft.inv height)).mul line).mul inverse').mul inverse).const_mul (-1)), ?_⟩
  have square := barEnd_sq s p
  have square' := softHeight_sq 1 p
  have square'' := barAcross_softHeight p
  simp only [Vec3.add_y, Vec3.add_z, Vec3.smul_x, Vec3.smul_y, Vec3.smul_z, Vec3.zero_y,
    Vec3.zero_z]
  rw [one_pow] at square'
  clear inverse inverse' line soft
  generalize barEnd s p = T at *
  generalize softHeight 1 p = c at *
  generalize barAcross p = S at *
  generalize (1.4 : ℝ) = b at *
  field_simp
  linear_combination -(s + p.x) * (3 * (b * S + 2 * c * (b + c) ^ 2) * square +
    3 * (b * S * T ^ 2 + 2 * T ^ 2 * (b + c) ^ 2 * c + S * (b + c) ^ 2 * c) * square' +
    (3 * c ^ 3 * (2 * T ^ 2 + S) + b * (3 * S + 2 * (s + p.x) ^ 2)) * square'')

theorem barForce_eq {disk : Disk ℝ} (scaled : disk.scaleLength ≠ 0) (q : Vec3 ℝ) :
    barForce disk q = (disk.mass / (2 * disk.scaleLength)) •
      (needleForce disk.scaleLength q - needleForce (-disk.scaleLength) q) := by
  have plus := barEnd_sq disk.scaleLength q
  have minus := barEnd_sq (-disk.scaleLength) q
  have far := barEnd_pos disk.scaleLength q
  have far' := barEnd_pos (-disk.scaleLength) q
  have across := (barAcross_pos q).ne'
  have soft := (softHeight_pos one_pos q).ne'
  have height : √(q.z ^ 2 + 1) = softHeight 1 q := by rw [softHeight, one_pow]
  have sum := (add_pos far far').ne'
  simp only [barForce, barPull, needleForce, height]
  generalize barEnd disk.scaleLength q = T at *
  generalize barEnd (-disk.scaleLength) q = T' at *
  generalize barAcross q = S at *
  generalize softHeight 1 q = c at *
  have squares : T ^ 2 - T' ^ 2 = 4 * disk.scaleLength * q.x := by
    rw [plus, minus]
    ring
  ext
  · simp only [Vec3.smul_x, Vec3.sub_x]
    field_simp
    linear_combination disk.mass * squares
  · simp only [Vec3.smul_y, Vec3.sub_y]
    field_simp
    linear_combination -disk.mass * q.y * q.x * squares
  · simp only [Vec3.smul_z, Vec3.sub_z]
    field_simp
    linear_combination -disk.mass * q.z * q.x * (1.4 + c) * squares

theorem barForce_gradients {disk : Disk ℝ} (scaled : disk.scaleLength ≠ 0) (q : Vec3 ℝ) :
    HasGradients (barForce disk) (-4 * programPi * barDensity disk q) q := by
  have pi := programPi_pos
  have far := (barEnd_pos disk.scaleLength q).ne'
  have far' := (barEnd_pos (-disk.scaleLength) q).ne'
  have across := (barAcross_pos q).ne'
  have soft := (softHeight_pos one_pos q).ne'
  have height : √(q.z ^ 2 + 1) = softHeight 1 q := by rw [softHeight, one_pow]
  have ends := ((needleForce_gradients disk.scaleLength q).sub
    (needleForce_gradients (-disk.scaleLength) q)).smul (disk.mass / (2 * disk.scaleLength))
  rw [← funext (barForce_eq scaled)] at ends
  refine ends.congr_sum ?_
  simp only [barDensity, height]
  rw [show (3.1415926535 : ℝ) = programPi from rfl]
  generalize barEnd disk.scaleLength q = T at *
  generalize barEnd (-disk.scaleLength) q = T' at *
  generalize barAcross q = S at *
  generalize softHeight 1 q = c at *
  field_simp
  ring

theorem bar_poisson {disk : Disk ℝ} {time : ℝ} (scaled : disk.scaleLength ≠ 0)
    (side : p.x ≠ 0) (off : (rotateZ (-barAngle disk time) p).y ≠ 0) :
    PoissonAt (fun q => orbitingBarAccel realLibm.toLibm disk q time)
      (orbitingBarDensity realLibm.toLibm disk p time) p := by
  have across : HasGradient (fun q => (rotateZ (-barAngle disk time) q).y) _ p :=
    ((hasGradient_x p).const_mul _).add ((hasGradient_y p).const_mul _)
  rw [PoissonAt, orbitingBarDensity_rotated side]
  refine (HasDivergence.rotated (barForce_gradients scaled _)).congr ?_
  have near := ((hasGradient_x p).near (isOpen_ne.mem_nhds side)).and
    (across.near (isOpen_ne.mem_nhds off))
  exact near.mono fun q away => orbitingBarAccel_rotated away.1 away.2

end MilkyWay.NBody
