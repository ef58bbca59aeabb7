import MilkyWay.NBody.Tree

/-! The external potential: the acceleration of a point at a time, the density there
and the friction on the satellite. Only the bar that orbits reads the time. -/

namespace MilkyWay.NBody

open Foundation

/-- Functions of the mathematical library. -/
structure Libm (R : Type) where
  sqrt : R → R
  exp : R → R
  atan : R → R
  cos : R → R
  sin : R → R
  erf : R → R
  pow : R → R → R

/-- The accelerations and densities of the components that rest, for the kinds that
have one, and the acceleration that a script computes with whether it failed. -/
structure Components (R : Type) where
  diskAccel : DiskType → Disk R → Vec3 R → R → Vec3 R
  haloAccel : HaloType → Halo R → Vec3 R → R → Vec3 R
  sphericalAccel : SphericalType → Spherical R → Vec3 R → R → Vec3 R
  diskDensity : DiskType → Disk R → Vec3 R → R
  haloDensity : HaloType → Halo R → Vec3 R → R → R
  sphericalDensity : SphericalType → Spherical R → R → R
  closure : Vec3 R → Vec3 R × Bool

section
variable {R : Type} [Zero R] [Add R] [Neg R] [Sub R] [Mul R] [Div R] [OfScientific R] [BEq R]
  [LT R] [DecidableLT R] [LE R] [DecidableLE R]

def mw_dotv (a b : Vec3 R) : R := a.z * b.z + (a.y * b.y + a.x * b.x)

def truth (p : Prop) [Decidable p] : R := if p then 1.0 else 0.0

def limitedRadius (L : Libm R) (pos : Vec3 R) : R :=
  let limit := L.pow 2.0 (-8.0)
  let absv := L.sqrt (mw_sqrv pos)
  truth (absv ≤ limit) * limit + truth (limit < absv) * absv

/-- The angle of the bar at a time. -/
def barAngle (disk : Disk R) (time : R) : R :=
  disk.patternSpeed * time * -1.0 + disk.startAngle

def barPlane (L : Libm R) (pos : Vec3 R) (curAngle : R) : R × R :=
  let Radi := L.sqrt (pos.x * pos.x + pos.y * pos.y)
  let Phi := L.atan (pos.y / pos.x) - curAngle
  let Radi := if pos.x < 0 then Radi * -1.0 else Radi
  (Radi * L.cos Phi, Radi * L.sin Phi)

def orbitingBarAccel (L : Libm R) (disk : Disk R) (pos : Vec3 R) (time : R) : Vec3 R :=
  let amp := disk.mass
  let a := disk.scaleLength
  let b := 1.4
  let c := 1.0
  let curAngle := barAngle disk time
  let (x, y) := barPlane L pos curAngle
  let z := pos.z
  let secondpart := L.pow y 2.0 + L.pow (b + L.sqrt (L.pow c 2.0 + L.pow z 2.0)) 2.0
  let Tp := L.sqrt (L.pow (a + x) 2.0 + secondpart)
  let Tm := L.sqrt (L.pow (a - x) 2.0 + secondpart)
  let zc := L.sqrt (L.pow z 2.0 + L.pow c 2.0)
  let forceX := -2.0 * x / Tp / Tm / (Tp + Tm)
  let forceY := -y / 2.0 / Tp / Tm * (Tp + Tm - 4.0 * L.pow x 2.0 / (Tp + Tm)) /
    (L.pow y 2.0 + L.pow (b + zc) 2.0)
  let forceZ := forceY * z / y * (b + zc) / zc
  let cp := L.cos curAngle
  let sp := L.sin curAngle
  ⟨(cp * forceX - sp * forceY) * amp, (sp * forceX + cp * forceY) * amp, forceZ * amp⟩

def diskAccel (K : Components R) (disk : Disk R) (pos : Vec3 R) (r : R) : Option (Vec3 R) :=
  match disk.type with
  | .none => some 0
  | .orbitingBar => none
  | .invalid => none
  | type => some (K.diskAccel type disk pos r)

def disk2Accel (L : Libm R) (K : Components R) (disk : Disk R) (pos : Vec3 R) (r time : R) :
    Option (Vec3 R) :=
  match disk.type with
  | .orbitingBar => some (orbitingBarAccel L disk pos time)
  | _ => diskAccel K disk pos r

def haloAccel (K : Components R) (halo : Halo R) (pos : Vec3 R) (r : R) : Option (Vec3 R) :=
  match halo.type with
  | .none => some 0
  | .invalid => none
  | type => some (K.haloAccel type halo pos r)

def sphericalAccel (K : Components R) (sphere : Spherical R) (pos : Vec3 R) (r : R) :
    Option (Vec3 R) :=
  match sphere.type with
  | .none => some 0
  | .invalid => none
  | type => some (K.sphericalAccel type sphere pos r)

/-- The acceleration at a point; a kind of component that is not one fails. -/
def nbExtAcceleration (L : Libm R) (K : Components R) (pot : Potential R) (pos : Vec3 R)
    (time : R) : Option (Vec3 R) := do
  let r := limitedRadius L pos
  let acc ← diskAccel K pot.disk pos r
  let acc2 ← disk2Accel L K pot.disk2 pos r time
  let accHalo ← haloAccel K pot.halo pos r
  let accSphere ← sphericalAccel K pot.sphere pos r
  return acc + acc2 + accHalo + accSphere

def plummerAccel (L : Libm R) (pos pos1 : Vec3 R) (mass scale : R) : Vec3 R :=
  let v := pos1 - pos
  let dist := mw_distv L.sqrt pos pos1
  let tmp := L.sqrt (L.pow scale 2.0 + L.pow dist 2.0)
  (mass / L.pow tmp 3.0) • v

def orbitingBarDensity (L : Libm R) (disk : Disk R) (pos : Vec3 R) (time : R) : R :=
  let pi := 3.1415926535
  let a := disk.scaleLength
  let b := 1.4
  let c := 1.0
  let (x, y) := barPlane L pos (barAngle disk time)
  let z := pos.z
  let zc := L.sqrt (L.pow z 2.0 + L.pow c 2.0)
  let bzc2 := L.pow (b + zc) 2.0
  let bigA := b * L.pow y 2.0 + (b + 3.0 * zc) * bzc2
  let bigC := L.pow y 2.0 + bzc2
  let side := fun s => s * (3.0 * bigA * bigC + (2.0 * bigA + b * bigC) * L.pow s 2.0) /
    L.pow (bigC + L.pow s 2.0) 1.5
  let unscaledDens := L.pow c 2.0 / 24.0 / pi / a / L.pow bigC 2.0 / L.pow zc 3.0 *
    (side (x + a) - side (x - a))
  unscaledDens * disk.mass

def diskDensity (L : Libm R) (K : Components R) (disk : Disk R) (pos : Vec3 R) (time : R) :
    Option R :=
  match disk.type with
  | .none => some 0.0
  | .freeman => some 0.0
  | .orbitingBar => some (orbitingBarDensity L disk pos time)
  | .invalid => none
  | type => some (K.diskDensity type disk pos)

def haloDensity (K : Components R) (halo : Halo R) (pos : Vec3 R) (r : R) : Option R :=
  match halo.type with
  | .none => some 0.0
  | .caustic => some 0.0
  | .invalid => none
  | type => some (K.haloDensity type halo pos r)

def sphericalDensity (K : Components R) (sphere : Spherical R) (r : R) : Option R :=
  match sphere.type with
  | .none => some 0.0
  | .invalid => none
  | type => some (K.sphericalDensity type sphere r)

/-- The density at a point; one that comes out negative fails. -/
def nbExtDensity (L : Libm R) (K : Components R) (pot : Potential R) (pos : Vec3 R) (time : R) :
    Option R := do
  let r := limitedRadius L pos
  let sphere ← sphericalDensity K pot.sphere r
  let disk ← diskDensity L K pot.disk pos time
  let disk2 ← diskDensity L K pot.disk2 pos time
  let halo ← haloDensity K pot.halo pos r
  let density := 0.0 + sphere + disk + disk2 + halo
  if density < 0 then none else return density

/-! ## Dynamical friction -/

def quadrature : List (R × R) :=
  [(0.2369268850561891, -0.9061798459386640), (0.4786286704993665, -0.5384693101056831),
    (0.5688888888888889, 0.0), (0.4786286704993665, 0.5384693101056831),
    (0.2369268850561891, 0.9061798459386640)]

def dispIntegrand (L : Libm R) (K : Components R) (pot : Potential R) (pos : Vec3 R) (time : R) :
    Option R := do
  let acc ← nbExtAcceleration L K pot pos time
  let mag := L.pow (mw_dotv pos pos) 0.5
  let a_r := mw_abs (mw_dotv acc ((1.0 / mag) • pos))
  let rho ← nbExtDensity L K pot pos time
  return rho * a_r

/-- The velocity squared of the dispersion up to `upperlimit`, or a negative number
where there is none. -/
def velDispersion [NatCast R] (L : Libm R) (K : Components R) (pot : Potential R) (pos : Vec3 R)
    (upperlimit time : R) : Option R := do
  let dist := L.pow (mw_dotv pos pos) 0.5
  let width := (upperlimit - dist) / (10.0 * 1.0)
  let rho0 ← nbExtDensity L K pot pos time
  if width ≤ 0 ∨ rho0 == 0.0 then
    return -1.0
  let integral ← (List.range 10).foldlM (fun integral (i : ℕ) =>
    let a := dist + (i : R) * width
    let b := dist + ((i + 1 : ℕ) : R) * width
    quadrature.foldlM (fun integral wp => do
      let r := width * wp.2 / 2.0 + (a + b) / 2.0
      let f ← dispIntegrand L K pot ((r / dist) • pos) time
      return integral + wp.1 * f * width / 2.0) integral) 0.0
  return integral / rho0

def getHaloScaleLength (halo : Halo R) : R :=
  if halo.scaleLength == 0.0 then 1.0 else halo.scaleLength

def dynamicalFriction_LMC [NatCast R] (L : Libm R) (K : Components R) (pot : Potential R)
    (pos vel : Vec3 R) (mass_LMC : R) (dynaFric : Bool) (time coulomb_log : R) :
    Option (Vec3 R) := do
  if !dynaFric then
    return 0
  let pi := 3.1415926535
  let thresh := L.pow 2.0 (-8.0)
  let objectVel := L.sqrt (mw_sqrv vel)
  let objectVel := truth (thresh ≤ objectVel) * objectVel + truth (objectVel < thresh) * thresh
  let density ← nbExtDensity L K pot pos time
  let sigma2 ← velDispersion L K pot pos (50.0 * getHaloScaleLength pot.halo) time
  let X := if sigma2 ≤ 0.0 then 0.0 else objectVel / L.pow (2.0 * sigma2) 0.5
  let acc := -4.0 * pi * L.pow 1.0 2.0 * mass_LMC * coulomb_log * density /
    L.pow objectVel 2.0 * (L.erf X - 2.0 * X / L.pow pi 0.5 * L.exp (-1.0 * L.pow X 2.0))
  return ⟨acc * vel.x / objectVel, acc * vel.y / objectVel, acc * vel.z / objectVel⟩

def accelLMC [NatCast R] (L : Libm R) (K : Components R) (ctx : NBodyCtx R) (pos vel : Vec3 R)
    (barTime : R) : Option (Vec3 R) := do
  let ext ← nbExtAcceleration L K ctx.pot pos barTime
  let friction ← dynamicalFriction_LMC L K ctx.pot pos vel ctx.LMCmass ctx.LMCDynaFric barTime
    ctx.coulomb_log
  return ext + friction

/-! ## Independence of the time -/

variable {L : Libm R} {K : Components R} {pot : Potential R}

omit [BEq R] [LE R] [DecidableLE R] in
theorem disk2Accel_rests {disk : Disk R} (rests : disk.type ≠ .orbitingBar) (pos : Vec3 R)
    (r time : R) : disk2Accel L K disk pos r time = diskAccel K disk pos r := by
  unfold disk2Accel
  split
  · exact absurd ‹_› rests
  · rfl

omit [BEq R] in
theorem nbExtAcceleration_time (rests : pot.disk2.type ≠ .orbitingBar) (pos : Vec3 R)
    (time time' : R) :
    nbExtAcceleration L K pot pos time = nbExtAcceleration L K pot pos time' := by
  unfold nbExtAcceleration
  simp only [disk2Accel_rests rests]

omit [BEq R] [LE R] [DecidableLE R] in
theorem diskDensity_time {disk : Disk R} (rests : disk.type ≠ .orbitingBar) (pos : Vec3 R)
    (time time' : R) : diskDensity L K disk pos time = diskDensity L K disk pos time' := by
  unfold diskDensity
  split <;> first | rfl | exact absurd ‹_› rests

omit [BEq R] in
theorem nbExtDensity_time (rests : pot.disk.type ≠ .orbitingBar)
    (rests2 : pot.disk2.type ≠ .orbitingBar) (pos : Vec3 R) (time time' : R) :
    nbExtDensity L K pot pos time = nbExtDensity L K pot pos time' := by
  unfold nbExtDensity
  simp only [diskDensity_time rests pos time time', diskDensity_time rests2 pos time time']

omit [BEq R] in
theorem nbExtAcceleration_bar (bar : pot.disk.type = .orbitingBar) (pos : Vec3 R) (time : R) :
    nbExtAcceleration L K pot pos time = none := by
  have fails : diskAccel K pot.disk pos (limitedRadius L pos) = none := by
    unfold diskAccel
    rw [bar]
  simp only [nbExtAcceleration, fails, Option.bind_eq_bind, Option.bind_none]

theorem velDispersion_time [NatCast R] (rests : pot.disk.type ≠ .orbitingBar)
    (rests2 : pot.disk2.type ≠ .orbitingBar) (pos : Vec3 R) (upperlimit time time' : R) :
    velDispersion L K pot pos upperlimit time = velDispersion L K pot pos upperlimit time' := by
  have integrand : ∀ p, dispIntegrand L K pot p time = dispIntegrand L K pot p time' := by
    intro p
    simp only [dispIntegrand, nbExtAcceleration_time rests2 p time time',
      nbExtDensity_time rests rests2 p time time']
  simp only [velDispersion, integrand, nbExtDensity_time rests rests2 pos time time']

theorem accelLMC_time [NatCast R] {ctx : NBodyCtx R}
    (rests : ctx.pot.disk2.type ≠ .orbitingBar) (pos vel : Vec3 R) (time time' : R) :
    accelLMC L K ctx pos vel time = accelLMC L K ctx pos vel time' := by
  by_cases bar : ctx.pot.disk.type = .orbitingBar
  · simp only [accelLMC, nbExtAcceleration_bar bar, Option.bind_eq_bind, Option.bind_none]
  · simp only [accelLMC, dynamicalFriction_LMC, nbExtAcceleration_time rests pos time time',
      nbExtDensity_time bar rests pos time time', velDispersion_time bar rests pos _ time time']

end

end MilkyWay.NBody
