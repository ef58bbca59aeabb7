import MilkyWay.Foundation.Rotation
import MilkyWay.Foundation.Traced
import MilkyWay.NBody.PotentialAgreement

/-! The bar that orbits: its acceleration is the force in the frame of the bar, rotated
with the bar. The program divides by the first coordinate of the point to find its angle,
and by the second one in the frame of the bar, which cancels. Where one of these is zero
the acceleration is not defined. -/

namespace MilkyWay.NBody

open Foundation

section
variable {R : Type}

def Libm.traced (L : Libm R) : Libm (Traced R) where
  sqrt := .map L.sqrt
  exp := .map L.exp
  atan := .map L.atan
  cos := .map L.cos
  sin := .map L.sin
  erf := .map L.erf
  pow := .map₂ L.pow

def Disk.map {S : Type} (f : R → S) (disk : Disk R) : Disk S :=
  ⟨disk.type, f disk.mass, f disk.scaleLength, f disk.scaleHeight, f disk.patternSpeed,
    f disk.startAngle⟩

def Vec3.traced (given : Bool) (v : Vec3 R) : Vec3 (Traced R) :=
  ⟨.ofInput given v.x, .ofInput given v.y, .ofInput given v.z⟩

def SoundVec (v : Vec3 (Traced R)) : Prop :=
  v.x.sound = true ∧ v.y.sound = true ∧ v.z.sound = true

end

noncomputable def barAcross (p : Vec3 ℝ) : ℝ := p.y ^ 2 + (1.4 + √(p.z ^ 2 + 1)) ^ 2

noncomputable def barEnd (s : ℝ) (p : Vec3 ℝ) : ℝ := √((s + p.x) ^ 2 + barAcross p)

open Foundation.Numerals in
noncomputable def barPull (a : ℝ) (p : Vec3 ℝ) : ℝ :=
  -1 / 2 / barEnd a p / barEnd (-a) p *
    (barEnd a p + barEnd (-a) p - 4 * p.x ^ 2 / (barEnd a p + barEnd (-a) p)) / barAcross p

open Foundation.Numerals in
noncomputable def barForce (disk : Disk ℝ) (p : Vec3 ℝ) : Vec3 ℝ :=
  let a := disk.scaleLength
  let zc := √(p.z ^ 2 + 1)
  disk.mass • ⟨-2 * p.x / barEnd a p / barEnd (-a) p / (barEnd a p + barEnd (-a) p),
    p.y * barPull a p, p.z * barPull a p * (1.4 + zc) / zc⟩

open Foundation.Numerals in
noncomputable def barDensity (disk : Disk ℝ) (p : Vec3 ℝ) : ℝ :=
  let a := disk.scaleLength
  let zc := √(p.z ^ 2 + 1)
  let bigA := 1.4 * p.y ^ 2 + (1.4 + 3 * zc) * (1.4 + zc) ^ 2
  let bigC := barAcross p
  let side := fun s => s * (3 * bigA * bigC + (2 * bigA + 1.4 * bigC) * s ^ 2)
  disk.mass * (1 / 24 / 3.1415926535 / a / bigC ^ 2 / zc ^ 3 *
    (side (p.x + a) / barEnd a p ^ 3 - side (p.x - a) / barEnd (-a) p ^ 3))

/-- The acceleration does not divide by zero, it is the rotated force at the point rotated
back, as the density is that at this point, and both depend on the time by the angle alone. -/
structure BarEquivariant (disk : Disk ℝ) (pos : Vec3 ℝ) (time : ℝ) : Prop where
  defined : SoundVec (orbitingBarAccel realLibm.toLibm.traced (disk.map .ofGiven)
    (Vec3.traced true pos) (.ofInput true time))
  rotated : orbitingBarAccel realLibm.toLibm disk pos time =
    rotateZ (barAngle disk time) (barForce disk (rotateZ (-barAngle disk time) pos))
  density : orbitingBarDensity realLibm.toLibm disk pos time =
    barDensity disk (rotateZ (-barAngle disk time) pos)
  angle (disk' : Disk ℝ) (time' : ℝ) : disk'.mass = disk.mass →
    disk'.scaleLength = disk.scaleLength → barAngle disk' time' = barAngle disk time →
      orbitingBarAccel realLibm.toLibm disk' pos time' =
          orbitingBarAccel realLibm.toLibm disk pos time ∧
        orbitingBarDensity realLibm.toLibm disk' pos time' =
          orbitingBarDensity realLibm.toLibm disk pos time

variable {disk : Disk ℝ} {pos : Vec3 ℝ} {time : ℝ}

theorem barAcross_pos (p : Vec3 ℝ) : 0 < barAcross p := by
  unfold barAcross
  positivity

theorem barEnd_pos (s : ℝ) (p : Vec3 ℝ) : 0 < barEnd s p :=
  Real.sqrt_pos.mpr (add_pos_of_nonneg_of_pos (sq_nonneg _) (barAcross_pos p))

theorem barPlane_eq (side : pos.x ≠ 0) (θ : ℝ) :
    barPlane realLibm.toLibm pos θ = ((rotateZ (-θ) pos).x, (rotateZ (-θ) pos).y) := by
  have radius := signed_sqrt side pos.y
  obtain ⟨first, second⟩ := polar_rotated side pos.y θ
  rw [rotateZ_neg]
  simp only [barPlane, realLibm]
  rw [← first, ← second, ← radius]
  norm_num

theorem orbitingBarAccel_angle {disk' : Disk ℝ} {time' : ℝ} (mass : disk'.mass = disk.mass)
    (scaleLength : disk'.scaleLength = disk.scaleLength)
    (angle : barAngle disk' time' = barAngle disk time) :
    orbitingBarAccel realLibm.toLibm disk' pos time' =
        orbitingBarAccel realLibm.toLibm disk pos time ∧
      orbitingBarDensity realLibm.toLibm disk' pos time' =
        orbitingBarDensity realLibm.toLibm disk pos time := by
  constructor
  · simp only [orbitingBarAccel, mass, scaleLength, angle]
  · simp only [orbitingBarDensity, mass, scaleLength, angle]

theorem softened_eq (z : ℝ) : √(sqr z + sqr 1.0) = √(z ^ 2 + 1) := by
  congr 1
  norm_num [sqr]
  ring

theorem barAcross_eq (p : Vec3 ℝ) :
    sqr p.y + sqr (1.4 + √(sqr 1.0 + sqr p.z)) = barAcross p ∧
      sqr p.y + sqr (1.4 + √(sqr p.z + sqr 1.0)) = barAcross p := by
  rw [add_comm (sqr 1.0), softened_eq, barAcross]
  constructor <;> (simp only [sqr]; ring)

theorem barEnd_eq (a : ℝ) (p : Vec3 ℝ) :
    √(sqr (a + p.x) + barAcross p) = barEnd a p ∧
      √(sqr (a - p.x) + barAcross p) = barEnd (-a) p := by
  constructor
  · rw [barEnd, sqr, sq]
  · rw [barEnd, sqr]
    congr 2
    ring

theorem orbitingBarAccel_rotated (side : pos.x ≠ 0)
    (off : (rotateZ (-barAngle disk time) pos).y ≠ 0) :
    orbitingBarAccel realLibm.toLibm disk pos time =
      rotateZ (barAngle disk time) (barForce disk (rotateZ (-barAngle disk time) pos)) := by
  have height : pos.z = (rotateZ (-barAngle disk time) pos).z := rfl
  simp only [orbitingBarAccel, barPlane_eq side, realLibm_powers.two, realLibm_powers.sqrt, height]
  generalize rotateZ (-barAngle disk time) pos = p at *
  have pull : -p.y / 2.0 / barEnd disk.scaleLength p / barEnd (-disk.scaleLength) p *
      (barEnd disk.scaleLength p + barEnd (-disk.scaleLength) p -
        4.0 * sqr p.x / (barEnd disk.scaleLength p + barEnd (-disk.scaleLength) p)) /
          barAcross p = p.y * barPull disk.scaleLength p := by
    rw [barPull, sqr, ← sq]
    norm_num
    ring
  have two : (-2.0 : ℝ) = -2 := by norm_num
  simp only [barAcross_eq, barEnd_eq, pull]
  simp only [softened_eq, two, barForce, rotateZ]
  ext
  · simp only [Vec3.smul_x, Vec3.smul_y, realLibm]
    ring
  · simp only [Vec3.smul_x, Vec3.smul_y, realLibm]
    ring
  · simp only [Vec3.smul_z]
    field_simp

theorem cube_sqrt {x : ℝ} (nonneg : 0 ≤ x) : √(cube x) = √x ^ 3 := by
  have square : cube x = (√x ^ 3) ^ 2 := by
    rw [← pow_mul, mul_comm 3 2, pow_mul, Real.sq_sqrt nonneg, cube]
    ring
  rw [square, Real.sqrt_sq (pow_nonneg (Real.sqrt_nonneg x) 3)]

theorem orbitingBarDensity_rotated (side : pos.x ≠ 0) :
    orbitingBarDensity realLibm.toLibm disk pos time =
      barDensity disk (rotateZ (-barAngle disk time) pos) := by
  have height : pos.z = (rotateZ (-barAngle disk time) pos).z := rfl
  simp only [orbitingBarDensity, barPlane_eq side, realLibm_powers.two, realLibm_powers.three,
    realLibm_powers.sqrt, height]
  generalize rotateZ (-barAngle disk time) pos = p
  have across : sqr p.y + sqr (1.4 + √(p.z ^ 2 + 1)) = barAcross p := by
    simp only [barAcross, sqr]
    ring
  have ends (s : ℝ) : realLibm.pow (barAcross p + sqr (p.x + s)) 1.5 = barEnd s p ^ 3 := by
    have nonneg : 0 ≤ barAcross p + sqr (p.x + s) :=
      add_nonneg (barAcross_pos p).le (mul_self_nonneg _)
    rw [realLibm_powers.threeHalves nonneg, realLibm_powers.sqrt, cube_sqrt nonneg, barEnd]
    congr 2
    rw [sqr]
    ring
  have left := ends disk.scaleLength
  have right := ends (-disk.scaleLength)
  rw [← sub_eq_add_neg] at right
  simp only [softened_eq, across, left, right, barDensity]
  norm_num [sqr, cube]
  ring

theorem barAngle_traced (g : Bool) (disk : Disk ℝ) (time : ℝ) :
    barAngle (disk.map Traced.ofGiven) (Traced.ofInput g time) =
      ⟨barAngle disk time, true, !g && decide (disk.patternSpeed ≠ 0), true⟩ := by
  cases g
  · by_cases rests : disk.patternSpeed = 0
    · simp [barAngle, Disk.map, Traced.map₂, rests]
    · simp [barAngle, Disk.map, Traced.map₂, rests]
  · rfl

theorem barPlane_traced (g turns : Bool) (pos : Vec3 ℝ) (θ : ℝ) :
    barPlane realLibm.toLibm.traced (Vec3.traced g pos) ⟨θ, true, !g && turns, true⟩ =
      (⟨(barPlane realLibm.toLibm pos θ).1, true, !g,
          (Traced.ofInput g pos.y / Traced.ofInput g pos.x).sound⟩,
        ⟨(barPlane realLibm.toLibm pos θ).2, true, !g,
          (Traced.ofInput g pos.y / Traced.ofInput g pos.x).sound⟩) := by
  have same : (Vec3.traced g pos).x < 0 ↔ pos.x < 0 := Iff.rfl
  unfold barPlane
  by_cases left : pos.x < 0
  · simp only [if_pos (same.mpr left), if_pos left]
    refine Prod.ext (Traced.ext rfl ?_ ?_ ?_) (Traced.ext rfl ?_ ?_ ?_) <;>
      cases g <;> cases turns <;> simp [Vec3.traced, Libm.traced]
  · simp only [if_neg (left ∘ same.mp), if_neg left]
    refine Prod.ext (Traced.ext rfl ?_ ?_ ?_) (Traced.ext rfl ?_ ?_ ?_) <;>
      cases g <;> cases turns <;> simp [Vec3.traced, Libm.traced]

theorem orbitingBarAccel_sound (g : Bool) :
    SoundVec (orbitingBarAccel realLibm.toLibm.traced (disk.map .ofGiven)
      (Vec3.traced g pos) (.ofInput g time)) ↔
    (g = true → pos.x ≠ 0 ∧ (barPlane realLibm.toLibm pos (barAngle disk time)).2 ≠ 0) := by
  simp only [SoundVec, orbitingBarAccel, barAngle_traced, barPlane_traced]
  generalize barPlane realLibm.toLibm pos (barAngle disk time) = xy
  -- the divisors beside the two coordinates
  let p : Vec3 ℝ := ⟨xy.1, xy.2, pos.z⟩
  obtain ⟨across, across'⟩ := barAcross_eq p
  obtain ⟨left, right⟩ := barEnd_eq disk.scaleLength p
  have softened : √(sqr pos.z + sqr 1.0) ≠ 0 := by
    rw [softened_eq]
    positivity
  have ends := (add_pos (barEnd_pos disk.scaleLength p) (barEnd_pos (-disk.scaleLength) p)).ne'
  simp only [p] at across across' left right
  cases g
  · simp [Libm.traced, Disk.map, Vec3.traced]
  · simp [Libm.traced, Disk.map, Vec3.traced, realLibm_powers.two, realLibm_powers.sqrt, across,
      across', left, right, softened, ends, (barEnd_pos _ _).ne', (barAcross_pos _).ne', p]

end MilkyWay.NBody
