import MilkyWay.NBody.BarRotation
import MilkyWay.NBody.Densities

/-! The divisors in the formulas of the external potential. The formulas are evaluated on
numbers that trace their divisions, with the parameters given and the position either given
or free; each kind of component divides soundly exactly where some of its divisors are not
zero. At a height of zero a free position leaves the parameters alone. -/

namespace MilkyWay.NBody

open Foundation Foundation.Traced

section
variable {R : Type}

def LogLibm.traced (L : LogLibm R) : LogLibm (Traced R) :=
  { L.toLibm.traced with log := .map L.log }

def BesselLibm.traced [Zero R] [DecidableEq R] [Div R] (L : BesselLibm R) :
    BesselLibm (Traced R) :=
  let table := fun (f : R → R → R → R) (k radius scale : Traced R) =>
    let lim := radius / scale
    (⟨f k.value radius.value scale.value, k.given || lim.given, k.free || lim.free,
      k.sound && lim.sound⟩ : Traced R)
  { L.toLogLibm.traced with
    sinh := .map L.sinh
    cosh := .map L.cosh
    besselJ0 := .map L.besselJ0
    besselJ1 := .map L.besselJ1
    besselJ2 := .map L.besselJ2
    besselI0 := .map L.besselI0
    besselI1 := .map L.besselI1
    besselK0 := .map L.besselK0
    besselK1 := .map L.besselK1
    besselJ0_zero := fun n => .ofConstant (L.besselJ0_zero n)
    besselJ1_zero := fun n => .ofConstant (L.besselJ1_zero n)
    aExp := table L.aExp
    bExp := table L.bExp }

def Spherical.map {S : Type} (f : R → S) (s : Spherical R) : Spherical S :=
  ⟨s.type, f s.mass, f s.scale⟩

def Halo.map {S : Type} (f : R → S) (h : Halo R) : Halo S :=
  ⟨h.type, f h.vhalo, f h.scaleLength, f h.flattenZ, f h.flattenY, f h.flattenX, f h.triaxAngle,
    f h.c1, f h.c2, f h.c3, f h.mass, f h.gamma, f h.lambda, f h.rho0⟩

def Potential.map {S : Type} (f : R → S) (p : Potential R) : Potential S :=
  ⟨p.sphere.map f, p.disk.map f, p.disk2.map f, p.halo.map f⟩

end

variable {L : LogLibm ℝ} {g : Bool} {pos : Vec3 ℝ} {r : ℝ}

theorem realLibm_sq (x : ℝ) : realLibm.pow x 2.0 = x ^ 2 := by
  rw [realLibm_powers.two, sqr, sq]

theorem realLibm_cube (x : ℝ) : realLibm.pow x 3.0 = x ^ 3 := by
  rw [realLibm_powers.three, cube]
  ring

theorem soundVec_smul {c : Traced ℝ} {v : Vec3 (Traced ℝ)} (point : SoundVec v) :
    SoundVec (c • v) ↔ c.sound = true := by
  change ((c.sound && v.x.sound) = true ∧ (c.sound && v.y.sound) = true ∧
    (c.sound && v.z.sound) = true) ↔ _
  simp [point.1, point.2.1, point.2.2]

theorem soundVec_traced (g : Bool) (pos : Vec3 ℝ) : SoundVec (Vec3.traced g pos) := ⟨rfl, rfl, rfl⟩

noncomputable def Vec3.freed (pos : Vec3 ℝ) : Vec3 (Traced ℝ) :=
  ⟨.ofInput false pos.x, .ofInput false pos.y, ⟨pos.z, false, decide (pos.z ≠ 0), true⟩⟩

theorem soundVec_freed (pos : Vec3 ℝ) : SoundVec (Vec3.freed pos) := ⟨rfl, rfl, rfl⟩

theorem limitedRadius_traced (K : Libm ℝ) (g : Bool) (pos : Vec3 ℝ) :
    limitedRadius K.traced (Vec3.traced g pos) = .ofInput g (limitedRadius K pos) := by
  have one : ∀ (p : Prop) [Decidable p], (truth p : Traced ℝ) = .ofConstant (truth p) := by
    intro p _
    unfold truth
    split <;> rfl
  simp only [limitedRadius, one]
  cases g <;> rfl

theorem limitedRadius_freed (K : Libm ℝ) (pos : Vec3 ℝ) :
    limitedRadius K.traced (Vec3.freed pos) = .ofInput false (limitedRadius K pos) := by
  have square : mw_sqrv (Vec3.freed pos) = mw_sqrv (Vec3.traced false pos) := by
    simp [mw_sqrv, Vec3.freed, Vec3.traced, map₂, ofInput]
  rw [limitedRadius, square]
  exact limitedRadius_traced K false pos

/-! ## The accelerations -/

theorem hernquistSphericalAccel_sound {sph : Spherical ℝ} {v : Vec3 (Traced ℝ)}
    (point : SoundVec v) :
    SoundVec (hernquistSphericalAccel (sph.map .ofGiven) v (.ofInput g r)) ↔
      (g = true → r * sqr (sph.scale + r) ≠ 0) := by
  rw [hernquistSphericalAccel, soundVec_smul point]
  cases g <;> simp [Spherical.map, sqr]

theorem plummerSphericalAccel_sound {sph : Spherical ℝ} {v : Vec3 (Traced ℝ)}
    (point : SoundVec v) :
    SoundVec (plummerSphericalAccel L.traced.toLibm (sph.map .ofGiven) v
      (.ofInput g r)) ↔ (g = true → L.pow (L.sqrt (sqr sph.scale + sqr r)) 3.0 ≠ 0) := by
  rw [plummerSphericalAccel, soundVec_smul point]
  cases g <;> simp [Spherical.map, sqr, LogLibm.traced, Libm.traced]

theorem miyamotoNagaiDiskAccel_sound {disk : Disk ℝ} :
    SoundVec (miyamotoNagaiDiskAccel L.traced.toLibm (disk.map .ofGiven) (Vec3.traced g pos)) ↔
      (g = true → L.pow (L.pow pos.z 2.0 + L.pow disk.scaleHeight 2.0) 0.5 ≠ 0 ∧
        L.pow (L.pow pos.x 2.0 + L.pow pos.y 2.0 + L.pow (disk.scaleLength +
          L.pow (L.pow pos.z 2.0 + L.pow disk.scaleHeight 2.0) 0.5) 2.0) 1.5 ≠ 0) := by
  cases g
  · simp [SoundVec, miyamotoNagaiDiskAccel, LogLibm.traced, Libm.traced, Disk.map, Vec3.traced]
  · simp only [SoundVec, miyamotoNagaiDiskAccel]
    simp [LogLibm.traced, Libm.traced, Disk.map, Vec3.traced]

theorem miyamotoNagaiDiskAccel_freed {disk : Disk ℝ} :
    SoundVec (miyamotoNagaiDiskAccel realLibm.traced.toLibm (disk.map .ofGiven)
      (Vec3.freed pos)) ↔ (pos.z = 0 → disk.scaleHeight ≠ 0) := by
  have height : realLibm.pow (realLibm.pow pos.z 2.0 + realLibm.pow disk.scaleHeight 2.0) 0.5 = 0 ↔
      pos.z = 0 ∧ disk.scaleHeight = 0 := by
    rw [realLibm_sq, realLibm_sq]
    change (pos.z ^ 2 + disk.scaleHeight ^ 2) ^ (0.5 : ℝ) = 0 ↔ _
    rw [Real.rpow_eq_zero (by positivity) (by norm_num)]
    constructor
    · intro sum
      have z := sq_nonneg pos.z
      have b := sq_nonneg disk.scaleHeight
      exact ⟨pow_eq_zero_iff two_ne_zero |>.mp (by linarith),
        pow_eq_zero_iff two_ne_zero |>.mp (by linarith)⟩
    · rintro ⟨z, b⟩
      rw [z, b]
      norm_num
  simp only [SoundVec, miyamotoNagaiDiskAccel]
  simp [LogLibm.traced, Libm.traced, Disk.map, Vec3.freed, height]
  tauto

theorem logHaloAccel_sound {h : Halo ℝ} :
    SoundVec (logHaloAccel L.traced.toLibm (h.map .ofGiven) (Vec3.traced g pos)) ↔
      h.flattenZ ≠ 0 ∧ (g = true → L.pow h.scaleLength 2.0 + L.pow pos.x 2.0 +
        L.pow pos.y 2.0 + L.pow (pos.z / h.flattenZ) 2.0 ≠ 0) := by
  cases g
  · simp [SoundVec, logHaloAccel, LogLibm.traced, Libm.traced, Halo.map, Vec3.traced]
  · simp [SoundVec, logHaloAccel, LogLibm.traced, Libm.traced, Halo.map, Vec3.traced]
    tauto

theorem logHaloAccel_freed {h : Halo ℝ} :
    SoundVec (logHaloAccel L.traced.toLibm (h.map .ofGiven) (Vec3.freed pos)) ↔
      h.flattenZ ≠ 0 := by
  simp [SoundVec, logHaloAccel, LogLibm.traced, Libm.traced, Halo.map, Vec3.freed]

theorem nfwHaloAccel_sound {h : Halo ℝ} {v : Vec3 (Traced ℝ)}
    (point : SoundVec v) :
    SoundVec (nfwHaloAccel L.traced (h.map .ofGiven) v (.ofInput g r)) ↔
      h.scaleLength ≠ 0 ∧ (g = true → r ≠ 0 ∧ h.scaleLength + r ≠ 0) := by
  rw [nfwHaloAccel, soundVec_smul point]
  cases g
  · simp [LogLibm.traced, Libm.traced, Halo.map, sqr]
  · simp [LogLibm.traced, Libm.traced, Halo.map, sqr]
    tauto

theorem NFWMHaloAccel_sound {h : Halo ℝ} {v : Vec3 (Traced ℝ)}
    (point : SoundVec v) :
    SoundVec (NFWMHaloAccel L.traced (h.map .ofGiven) v (.ofInput g r)) ↔
      h.scaleLength ≠ 0 ∧ (g = true → r ≠ 0 ∧ h.scaleLength + r ≠ 0) := by
  rw [NFWMHaloAccel, soundVec_smul point]
  cases g
  · simp [LogLibm.traced, Libm.traced, Halo.map, sqr]
  · simp [LogLibm.traced, Libm.traced, Halo.map, sqr]
    tauto

theorem triaxialHaloAccel_sound {h : Halo ℝ} :
    SoundVec (triaxialHaloAccel (h.map .ofGiven) (Vec3.traced g pos)) ↔
      h.flattenZ ≠ 0 ∧ (g = true → sqr pos.z / sqr h.flattenZ + (sqr h.scaleLength +
        h.c1 * sqr pos.x + h.c3 * pos.x * pos.y + h.c2 * sqr pos.y) ≠ 0 ∧
        sqr h.flattenZ * (sqr h.scaleLength + h.c1 * sqr pos.x + h.c3 * pos.x * pos.y +
          h.c2 * sqr pos.y) + sqr pos.z ≠ 0) := by
  cases g
  · simp [SoundVec, triaxialHaloAccel, Halo.map, Vec3.traced, sqr]
  · simp [SoundVec, triaxialHaloAccel, Halo.map, Vec3.traced, sqr]
    tauto

theorem triaxialHaloAccel_freed {h : Halo ℝ} (wide : h.c1 ≠ 0) :
    SoundVec (triaxialHaloAccel (h.map .ofGiven) (Vec3.freed pos)) ↔ h.flattenZ ≠ 0 := by
  simp [SoundVec, triaxialHaloAccel, Halo.map, Vec3.freed, sqr, wide]
  tauto

theorem ASHaloAccel_sound {h : Halo ℝ} {v : Vec3 (Traced ℝ)}
    (point : SoundVec v) :
    SoundVec (ASHaloAccel L.traced.toLibm (h.map .ofGiven) v
      (.ofInput g r)) ↔ h.scaleLength ≠ 0 ∧
        (¬r < h.lambda → 1.0 + L.pow (h.lambda / h.scaleLength) (h.gamma - 1.0) ≠ 0) ∧
        (g = true → r ≠ 0 ∧ (r < h.lambda →
          1.0 + L.pow (r / h.scaleLength) (h.gamma - 1.0) ≠ 0) ∧
            (¬r < h.lambda → L.pow r 2.0 ≠ 0)) := by
  rw [ASHaloAccel, soundVec_smul point]
  by_cases inside : r < h.lambda
  · cases g
    · simp [LogLibm.traced, Libm.traced, Halo.map, inside]
      exact fun scaled zero => absurd (of_decide_eq_true zero) scaled
    · simp [LogLibm.traced, Libm.traced, Halo.map, inside]
      tauto
  · cases g
    · simp [LogLibm.traced, Libm.traced, Halo.map, inside]
    · simp [LogLibm.traced, Libm.traced, Halo.map, inside]
      tauto

theorem WEHaloAccel_sound {h : Halo ℝ} {v : Vec3 (Traced ℝ)}
    (point : SoundVec v) :
    SoundVec (WEHaloAccel L.traced.toLibm (h.map .ofGiven) v
      (.ofInput g r)) ↔ (g = true → r ≠ 0 ∧ sqr h.scaleLength + sqr r +
        h.scaleLength * L.sqrt (sqr h.scaleLength + sqr r) ≠ 0) := by
  rw [WEHaloAccel, soundVec_smul point]
  cases g
  · simp [LogLibm.traced, Libm.traced, Halo.map, sqr]
  · simp [LogLibm.traced, Libm.traced, Halo.map, sqr]
    tauto

theorem plummerHaloAccel_sound {h : Halo ℝ} {v : Vec3 (Traced ℝ)}
    (point : SoundVec v) :
    SoundVec (plummerHaloAccel L.traced.toLibm (h.map .ofGiven) v
      (.ofInput g r)) ↔ (g = true → L.sqrt (sqr h.scaleLength + sqr r) ≠ 0) := by
  rw [plummerHaloAccel, soundVec_smul point]
  cases g <;> simp [LogLibm.traced, Libm.traced, Halo.map, sqr, cube]

theorem hernquistHaloAccel_sound {h : Halo ℝ} {v : Vec3 (Traced ℝ)}
    (point : SoundVec v) :
    SoundVec (hernquistHaloAccel (h.map .ofGiven) v (.ofInput g r)) ↔
      (g = true → r * sqr (h.scaleLength + r) ≠ 0) := by
  rw [hernquistHaloAccel, soundVec_smul point]
  cases g <;> simp [Halo.map, sqr]

theorem ninkovicHaloAccel_sound {h : Halo ℝ} {v : Vec3 (Traced ℝ)}
    (point : SoundVec v) :
    SoundVec (ninkovicHaloAccel L.traced (h.map .ofGiven) v (.ofInput g r)) ↔
      h.scaleLength ≠ 0 ∧ 1.0 + cube (h.lambda / h.scaleLength) ≠ 0 ∧ (g = true → r ≠ 0) := by
  rw [ninkovicHaloAccel, soundVec_smul point]
  by_cases outside : h.lambda < r
  · cases g <;> simp [LogLibm.traced, Libm.traced, Halo.map, cube, outside, and_assoc]
  · cases g <;> simp [LogLibm.traced, Libm.traced, Halo.map, cube, outside, and_assoc]

/-! ## The Freeman disk at a free position -/

theorem lnfact_safe (n : ℕ) : Safe (lnfact L.traced n) :=
  List.foldlRecOn _ _ (.ofConstant _) fun _ safe _ _ => safe.add ((Safe.ofConstant _).map _)

theorem binom_safe (n k : ℕ) : Safe (binom L.traced n k) :=
  (((lnfact_safe n).sub (lnfact_safe k)).sub (lnfact_safe (n - k))).map _

theorem power_safe {x y : Traced ℝ} (base : Safe x) (exponent : Safe y) :
    Safe (L.traced.pow x y) := base.map₂ exponent _

theorem minusOne_safe : Safe (-1.0 : Traced ℝ) := (Safe.ofConstant _).neg

theorem leg_pol_safe {x : Traced ℝ} (safe : Safe x) (l : ℕ) : Safe (leg_pol L.traced x l) := by
  refine .ite (.ite ?_ (.ofConstant _)) ?_
  · exact (power_safe minusOne_safe (.ofConstant _)).mul
      ((((lnfact_safe _).sub ((Safe.ofConstant _).mul (lnfact_safe _))).sub
        ((Safe.ofConstant _).mul ((Safe.ofConstant _).map _))).map _)
  · refine List.foldlRecOn _ _ (.ofConstant _) fun _ sum m _ => sum.add ?_
    exact ((((power_safe minusOne_safe (.ofConstant _)).mul
      (power_safe safe (.ofConstant _))).div
        (power_safe (.ofConstant _) (.ofConstant _))).mul (binom_safe _ _)).mul (binom_safe _ _)

theorem leg_pol_derv_safe {x : Traced ℝ} (safe : Safe x) (l : ℕ) :
    Safe (leg_pol_derv L.traced x l) := by
  refine List.foldlRecOn _ _ (.ofConstant _) fun _ sum m _ => sum.add ?_
  exact (((((power_safe minusOne_safe (.ofConstant _)).mul
    (power_safe safe (.ofConstant _))).div
      (power_safe (.ofConstant _) (.ofConstant _))).mul (binom_safe _ _)).mul
        (binom_safe _ _)).mul (.ofConstant _)

theorem lower_gamma_safe {x : Traced ℝ} (safe : Safe x) (n : ℕ) :
    Safe (lower_gamma L.traced n x) := by
  refine ((lnfact_safe _).map _).mul ((Safe.ofConstant _).sub ((safe.neg.map _).mul ?_))
  exact List.foldlRecOn _ _ (.ofConstant _) fun _ sum k _ =>
    sum.add ((power_safe safe (.ofConstant _)).div ((lnfact_safe _).map _))

theorem GenExpIntegral_safe {x : Traced ℝ} (safe : Safe x) (n : ℕ) :
    Safe (GenExpIntegral L.traced n x) := by
  refine (safe.neg.map _).div ?_
  exact List.foldrRecOn _ _ (safe.add (.ofConstant _)) fun _ tail i _ =>
    safe.add ((Safe.ofConstant _).div ((Safe.ofConstant _).add ((Safe.ofConstant _).div tail)))

theorem freemanSums_safe {scl r costheta sintheta : Traced ℝ} (inner : Safe (r / scl))
    (outer : Safe (scl / r)) (cosine : Safe costheta) (sine : Safe sintheta) :
    Safe (freemanSums L.traced (leg_pol_derv L.traced) scl r costheta sintheta).1 ∧
      Safe (freemanSums L.traced (leg_pol_derv L.traced) scl r costheta sintheta).2 := by
  refine List.foldlRecOn _ _ (motive := fun sums : Traced ℝ × Traced ℝ =>
    Safe sums.1 ∧ Safe sums.2) ⟨.ofConstant _, .ofConstant _⟩ fun sums safe l _ => ?_
  have a_r : Safe (if 0 < l then GenExpIntegral L.traced (2 * l) (r / scl) else 0.0) :=
    .ite (GenExpIntegral_safe inner _) (.ofConstant _)
  have b_r := (power_safe (L := L) outer (.ofConstant ((2 * l + 2 : ℕ) : ℝ))).mul
    (lower_gamma_safe (L := L) inner (2 * l + 2))
  have p0 : Safe (leg_pol L.traced 0.0 (2 * l)) := leg_pol_safe (.ofConstant _) _
  have pcos : Safe (leg_pol L.traced costheta (2 * l)) := leg_pol_safe cosine _
  refine ⟨safe.1.add ((p0.mul pcos).mul (((Safe.ofConstant _).mul a_r).sub
    ((Safe.ofConstant _).mul b_r))), .ite ?_ safe.2⟩
  exact safe.2.sub (((p0.mul (a_r.add b_r)).mul sine).mul (leg_pol_derv_safe cosine _))

theorem freemanDiskAccel_sound {disk : Disk ℝ} :
    SoundVec (freemanDiskAccel L.traced (disk.map .ofGiven) (Vec3.freed pos)
      (.ofInput false r)) ↔ disk.scaleLength ≠ 0 := by
  have projected : Safe (L.traced.sqrt (sqr (ofInput false pos.x) + sqr (ofInput false pos.y))) :=
    (((Safe.ofFree _).mul (.ofFree _)).add ((Safe.ofFree _).mul (.ofFree _))).map _
  have high : Safe (⟨pos.z, false, decide (pos.z ≠ 0), true⟩ : Traced ℝ) := ⟨rfl, nofun⟩
  simp only [freemanDiskAccel, freemanParts, Vec3.freed, Disk.map]
  generalize L.traced.sqrt (sqr (ofInput false pos.x) + sqr (ofInput false pos.y)) = r_proj at *
  constructor
  · -- the sums are divided by the square of the length
    rintro ⟨first, -, -⟩
    simp [sqr] at first
    exact first.1.2
  · intro scaled
    have inner : Safe (ofInput false r / ofGiven disk.scaleLength) :=
      .of_free (by simpa using scaled) rfl
    have outer : Safe (ofGiven disk.scaleLength / ofInput false r) := .of_free (by simp) rfl
    obtain ⟨first, second⟩ := freemanSums_safe (L := L) inner outer
      (high.div (.ofFree r)) (projected.div (.ofFree r))
    generalize freemanSums L.traced (leg_pol_derv L.traced) (ofGiven disk.scaleLength)
      (ofInput false r) (⟨pos.z, false, decide (pos.z ≠ 0), true⟩ / ofInput false r)
        (r_proj / ofInput false r) = sums at *
    simp [SoundVec, sqr, scaled, first.sound, second.sound, projected.sound]
    exact fun given rests => absurd (projected.free given) (by simp [rests])

/-! ## The exponential disks at a free position -/

section
variable {B : BesselLibm ℝ} {disk : Disk ℝ}

theorem doubleExponentialPieces_sound {a b R z : Traced ℝ} (radial : a.sound = true)
    (vertical : b.sound = true) (far : R.sound = true) (free : R.free = true)
    (high : z.sound = true) (n : ℕ) :
    (doubleExponentialPieces B.traced a b R z n).1.sound = true ∧
      (doubleExponentialPieces B.traced a b R z n).2.sound = true := by
  simp [doubleExponentialPieces, ogataPoint, BesselLibm.traced, LogLibm.traced, Libm.traced,
    mw_abs, radial, vertical, far, free, high]

theorem doubleExponentialDiskAccel_sound (scaled : disk.scaleLength ≠ 0)
    (high : disk.scaleHeight ≠ 0) :
    SoundVec (doubleExponentialDiskAccel B.traced (disk.map .ofGiven)
      (Vec3.freed pos)) := by
  have radial : (1.0 / ofGiven disk.scaleLength).sound = true := by simpa using scaled
  have vertical : (1.0 / ofGiven disk.scaleHeight).sound = true := by simpa using high
  obtain ⟨first, second⟩ := sound_foldl_pair (l := List.range 150) (s := (0.0, 0.0))
    (doubleExponentialPieces_sound (B := B) (z := ⟨pos.z, false, decide (pos.z ≠ 0), true⟩)
      (R := B.traced.sqrt (sqr (ofInput false pos.x) + sqr (ofInput false pos.y)))
      radial vertical rfl rfl rfl) ⟨rfl, rfl⟩
  simp only [doubleExponentialDiskAccel, Vec3.freed, Disk.map]
  generalize List.foldl _ _ _ = pieces at *
  generalize 1.0 / ofGiven disk.scaleLength = a at *
  simp [SoundVec, mw_abs, BesselLibm.traced, LogLibm.traced, Libm.traced, sqr, first, second,
    radial, high]

theorem sechIntegrands_sound {k radius Rd z zd : Traced ℝ} (wave : k.sound = true)
    (free : k.free = true) (far : radius.sound = true) (high : z.sound = true)
    (scaled : (radius / Rd).sound = true) (thick : zd.sound = true)
    (thick' : zd.isGivenZero = false) :
    (RSechIntegrand B.traced k radius Rd z zd).sound = true ∧
      (ZSechIntegrand B.traced k radius Rd z zd).sound = true := by
  simp at scaled
  simp [RSechIntegrand, ZSechIntegrand, BesselLibm.traced, LogLibm.traced, Libm.traced, sqr, wave,
    free, far, high, scaled, thick]
  exact ⟨fun _ given rests zero => absurd thick' (by simp [given, rests, zero]), scaled.2.2⟩

theorem sechIntegral_sound {radius : Traced ℝ} {integrand : Traced ℝ → Traced ℝ}
    (far : radius.sound = true) (free : radius.free = true)
    (sound : ∀ k, k.sound = true → k.free = true → (integrand k).sound = true) :
    (sechIntegral radius integrand).sound = true := by
  have rule : ∀ wp ∈ (roundedQuadrature : List (Traced ℝ × Traced ℝ)),
      wp.1.sound = true ∧ wp.2.sound = true := by
    simp [roundedQuadrature]
  refine sound_foldl_add (fun k _ => sound_foldl_add (fun wp mem => ?_) rfl) rfl
  have value := sound ((60.0 / radius - 0.0) / (15.0 * 1.0) * wp.2 / 2.0 + 0.0 +
    ((k : Traced ℝ) * 1.0 + 0.5) * ((60.0 / radius - 0.0) / (15.0 * 1.0)))
  simp [far, free, rule wp mem] at value ⊢
  exact value

theorem sech2ExponentialDiskAccel_sound (scaled : disk.scaleLength ≠ 0)
    (high : disk.scaleHeight ≠ 0) :
    SoundVec (sech2ExponentialDiskAccel B.traced (disk.map .ofGiven)
      (Vec3.freed pos)) := by
  have far : (B.traced.sqrt (sqr (ofInput false pos.x) + sqr (ofInput false pos.y))).sound =
      true := rfl
  have free : (B.traced.sqrt (sqr (ofInput false pos.x) + sqr (ofInput false pos.y))).free =
      true := rfl
  have height : (⟨pos.z, false, decide (pos.z ≠ 0), true⟩ : Traced ℝ).sound = true := rfl
  simp only [sech2ExponentialDiskAccel, Vec3.freed, Disk.map]
  generalize (⟨pos.z, false, decide (pos.z ≠ 0), true⟩ : Traced ℝ) = z at *
  generalize B.traced.sqrt (sqr (ofInput false pos.x) + sqr (ofInput false pos.y)) = radius at *
  have ratio : (radius / ofGiven disk.scaleLength).sound = true := by simpa [far] using scaled
  have integrands (k : Traced ℝ) (wave : k.sound = true) (varies : k.free = true) :=
    sechIntegrands_sound (B := B) wave varies far
      height ratio (sound_ofGiven disk.scaleHeight) (by simp [high])
  have first := sechIntegral_sound far free fun k wave varies => (integrands k wave varies).1
  have second := sechIntegral_sound far free fun k wave varies => (integrands k wave varies).2
  simp [SoundVec, first, second, far, free]

end

/-! ## The densities -/

theorem hernquistSphericalDensity_sound {sph : Spherical ℝ}
    (scaled : L.pow sph.scale 3.0 ≠ 0) :
    (hernquistSphericalDensity L.traced.toLibm (sph.map .ofGiven) (.ofInput g r)).sound =
      true := by
  simp only [hernquistSphericalDensity, Traced.sound_ite]
  split
  · rfl
  · next guard =>
    simp [LogLibm.traced, Libm.traced, Spherical.map, scaled] at guard ⊢
    have decimal : ¬(2.0 : ℝ) = 0 ∧ ¬(3.1415926535 : ℝ) = 0 := by norm_num
    exact ⟨decimal, fun _ => guard⟩

theorem plummerDensity_sound {a M : ℝ} (cubes : ∀ x, L.pow x 3.0 = x ^ 3) :
    (plummerDensity L.traced.toLibm (.ofGiven a) (.ofGiven M) (.ofInput g r)).sound =
      true := by
  simp only [plummerDensity, Traced.sound_ite]
  split
  · rfl
  · next scaled =>
    simp at scaled
    simp [LogLibm.traced, Libm.traced, cubes, scaled]
    norm_num

theorem miyamotoNagaiDiskDensity_sound {disk : Disk ℝ} :
    (miyamotoNagaiDiskDensity L.traced.toLibm (disk.map .ofGiven)
      (Vec3.traced g pos)).sound = true := by
  simp only [miyamotoNagaiDiskDensity, Traced.sound_ite]
  split
  · rfl
  · next guard =>
    simp [LogLibm.traced, Libm.traced, Disk.map, Vec3.traced] at guard ⊢
    tauto

theorem miyamotoNagaiDiskDensity_freed {disk : Disk ℝ} :
    (miyamotoNagaiDiskDensity L.traced.toLibm (disk.map .ofGiven) (Vec3.freed pos)).sound =
      true := by
  simp only [miyamotoNagaiDiskDensity, Traced.sound_ite]
  split
  · rfl
  · next guard =>
    simp [LogLibm.traced, Libm.traced, Disk.map, Vec3.freed] at guard ⊢
    tauto

theorem doubleExponentialDiskDensity_sound {disk : Disk ℝ} (squares : ∀ x, L.pow x 2.0 = x ^ 2) :
    (doubleExponentialDiskDensity L.traced.toLibm (disk.map .ofGiven)
      (Vec3.freed pos)).sound = true ↔ disk.scaleLength ≠ 0 ∧ disk.scaleHeight ≠ 0 := by
  simp [doubleExponentialDiskDensity, LogLibm.traced, Libm.traced, Disk.map, Vec3.freed, squares,
    mw_abs]
  norm_num
  tauto

theorem sech2ExponentialDiskDensity_sound {B : BesselLibm ℝ} {disk : Disk ℝ}
    (squares : ∀ x, B.pow x 2.0 = x ^ 2) (cosh : ∀ x, 0 < B.cosh x) :
    (sech2ExponentialDiskDensity B.traced (disk.map .ofGiven)
      (Vec3.freed pos)).sound = true ↔ disk.scaleLength ≠ 0 ∧ disk.scaleHeight ≠ 0 := by
  simp [sech2ExponentialDiskDensity, BesselLibm.traced, LogLibm.traced, Libm.traced, Disk.map,
    Vec3.freed, squares, (cosh _).ne']
  norm_num
  tauto

theorem orbitingBarDensity_sound {disk : Disk ℝ} {time : ℝ} :
    (orbitingBarDensity realLibm.toLibm.traced (disk.map .ofGiven) (Vec3.traced g pos)
      (.ofInput g time)).sound = true ↔ disk.scaleLength ≠ 0 ∧ (g = true → pos.x ≠ 0) := by
  simp only [orbitingBarDensity, barAngle_traced, barPlane_traced]
  generalize barPlane realLibm.toLibm pos (barAngle disk time) = xy
  let p : Vec3 ℝ := ⟨xy.1, xy.2, pos.z⟩
  have across : sqr xy.2 + sqr (1.4 + √(pos.z ^ 2 + 1)) = barAcross p := by
    simp only [barAcross, sqr, p]
    ring
  have ends (s : ℝ) : realLibm.pow (barAcross p + sqr s) 1.5 ≠ 0 :=
    (Real.rpow_pos_of_pos (add_pos_of_pos_of_nonneg (barAcross_pos p) (mul_self_nonneg s)) _).ne'
  have height : √(pos.z ^ 2 + 1) ≠ 0 := by positivity
  cases g
  · simp [Libm.traced, Disk.map, Vec3.traced]
  · simp [Libm.traced, Disk.map, Vec3.traced, realLibm_powers.two, realLibm_powers.three,
      realLibm_powers.sqrt, softened_eq, across, ends]
    simp only [sqr, cube, mul_eq_zero, (barAcross_pos p).ne', height]
    tauto

theorem barPlane_freed (pos : Vec3 ℝ) (θ : Traced ℝ) :
    barPlane realLibm.toLibm.traced (Vec3.freed pos) θ =
      barPlane realLibm.toLibm.traced (Vec3.traced false pos) θ := rfl

theorem orbitingBarAccel_freed {disk : Disk ℝ} {time : ℝ} :
    SoundVec (orbitingBarAccel realLibm.toLibm.traced (disk.map .ofGiven) (Vec3.freed pos)
      (.ofInput false time)) := by
  simp only [SoundVec, orbitingBarAccel, barAngle_traced, barPlane_freed, barPlane_traced]
  simp [Libm.traced, Disk.map, Vec3.freed]

theorem orbitingBarDensity_freed {disk : Disk ℝ} {time : ℝ} :
    (orbitingBarDensity realLibm.toLibm.traced (disk.map .ofGiven) (Vec3.freed pos)
      (.ofInput false time)).sound = true ↔ disk.scaleLength ≠ 0 := by
  simp only [orbitingBarDensity, barAngle_traced, barPlane_freed, barPlane_traced]
  simp [Libm.traced, Disk.map, Vec3.freed]

theorem logarithmicHaloDensity_sound {h : Halo ℝ} :
    (logarithmicHaloDensity L.traced.toLibm (h.map .ofGiven) (Vec3.traced g pos)).sound =
      true ↔ h.flattenZ ≠ 0 ∧ (g = true → L.pow (L.pow pos.x 2.0 + L.pow pos.y 2.0 +
        h.scaleLength * h.scaleLength + L.pow (pos.z / h.flattenZ) 2.0) 2.0 ≠ 0) := by
  cases g
  · simp [logarithmicHaloDensity, LogLibm.traced, Libm.traced, Halo.map, Vec3.traced]
    exact fun flat zero => absurd zero flat
  · simp [logarithmicHaloDensity, LogLibm.traced, Libm.traced, Halo.map, Vec3.traced]

theorem logarithmicHaloDensity_freed {h : Halo ℝ} :
    (logarithmicHaloDensity L.traced.toLibm (h.map .ofGiven) (Vec3.freed pos)).sound = true ↔
      h.flattenZ ≠ 0 := by
  simp [logarithmicHaloDensity, LogLibm.traced, Libm.traced, Halo.map, Vec3.freed]
  exact fun flat zero => absurd zero flat

theorem NFWHaloDensity_sound {h : Halo ℝ} (far : r ≠ 0) :
    (NFWHaloDensity L.traced.toLibm (h.map .ofGiven) (.ofInput g r)).sound = true ↔
      h.scaleLength ≠ 0 ∧ (g = true → L.pow (1.0 + r / h.scaleLength) 2.0 ≠ 0) := by
  cases g
  · simp [NFWHaloDensity, LogLibm.traced, Libm.traced, Halo.map, far]
  · simp [NFWHaloDensity, LogLibm.traced, Libm.traced, Halo.map, far]

theorem triaxialHaloDensity_sound {h : Halo ℝ} :
    (triaxialHaloDensity L.traced.toLibm (h.map .ofGiven) (Vec3.traced g pos)).sound =
      true ↔ h.flattenZ ≠ 0 ∧ (g = true → h.scaleLength * h.scaleLength +
        h.c1 * L.pow pos.x 2.0 + h.c2 * L.pow pos.y 2.0 + h.c3 * pos.x * pos.y +
          L.pow pos.z 2.0 / h.flattenZ / h.flattenZ ≠ 0) := by
  cases g
  · simp [triaxialHaloDensity, LogLibm.traced, Libm.traced, Halo.map, Vec3.traced]
  · simp [triaxialHaloDensity, LogLibm.traced, Libm.traced, Halo.map, Vec3.traced]

theorem triaxialHaloDensity_freed {h : Halo ℝ} (wide : h.c1 ≠ 0) :
    (triaxialHaloDensity L.traced.toLibm (h.map .ofGiven) (Vec3.freed pos)).sound = true ↔
      h.flattenZ ≠ 0 := by
  simp [triaxialHaloDensity, LogLibm.traced, Libm.traced, Halo.map, Vec3.freed, wide]

theorem hernquistHaloDensity_sound {h : Halo ℝ} :
    (hernquistHaloDensity L.traced.toLibm (h.map .ofGiven) (.ofInput g r)).sound = true := by
  simp only [hernquistHaloDensity, Traced.sound_ite]
  split
  · rfl
  · next guard =>
    simp [LogLibm.traced, Libm.traced, Halo.map] at guard ⊢
    exact ⟨guard.2, fun _ => guard.1⟩

theorem NFWMHaloDensity_sound {h : Halo ℝ} (off : g = true → h.scaleLength + r ≠ 0) :
    (NFWMHaloDensity (h.map Traced.ofGiven) (Traced.ofInput g r)).sound = true := by
  simp only [NFWMHaloDensity, Traced.sound_ite]
  split
  · rfl
  · next guard =>
    simp at guard
    cases g
    · simp [Halo.map]
    · simp [Halo.map, guard, off rfl]
      norm_num

theorem allenSantillanHaloDensity_sound {h : Halo ℝ} (scaled : h.scaleLength ≠ 0)
    (off : g = true → L.pow (1.0 + L.pow (r / h.scaleLength) (h.gamma - 1.0)) 2.0 ≠ 0) :
    (allenSantillanHaloDensity L.traced.toLibm (h.map .ofGiven) (.ofInput g r)).sound =
      true := by
  simp only [allenSantillanHaloDensity, Traced.sound_ite]
  split
  · rfl
  · next guard =>
    split
    · rfl
    · norm_num at guard
      cases g
      · simp [LogLibm.traced, Libm.traced, Halo.map, scaled]
      · simp [LogLibm.traced, Libm.traced, Halo.map, scaled, guard, off rfl]

theorem wilkinsonEvansHaloDensity_sound {h : Halo ℝ}
    (off : g = true → L.pow (r * r + h.scaleLength * h.scaleLength) 1.5 ≠ 0) :
    (wilkinsonEvansHaloDensity L.traced.toLibm (h.map .ofGiven) (.ofInput g r)).sound =
      true := by
  simp only [wilkinsonEvansHaloDensity, Traced.sound_ite]
  split
  · rfl
  · next guard =>
    norm_num at guard
    cases g
    · simp [LogLibm.traced, Libm.traced, Halo.map]
    · simp [LogLibm.traced, Libm.traced, Halo.map, guard, off rfl]

theorem ninkovicHaloDensity_sound {h : Halo ℝ} (scaled : h.scaleLength ≠ 0)
    (limited : 1.0 + L.pow (h.lambda / h.scaleLength) 3.0 ≠ 0)
    (off : g = true → 1.0 + L.pow (r / h.scaleLength) 3.0 ≠ 0) :
    (ninkovicHaloDensity L.traced.toLibm (h.map .ofGiven) (.ofInput g r)).sound = true := by
  simp only [ninkovicHaloDensity, Traced.sound_ite]
  split
  · rfl
  · simp [LogLibm.traced, Libm.traced, Halo.map, scaled, limited]
    exact off

end MilkyWay.NBody
