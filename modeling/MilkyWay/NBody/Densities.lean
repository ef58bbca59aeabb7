import MilkyWay.NBody.ExponentialDisks

/-! The densities of the kinds of components, one formula for each, beside the formulas of
their accelerations. -/

namespace MilkyWay.NBody

open Foundation

section
variable {R : Type} [Zero R] [Add R] [Neg R] [Sub R] [Mul R] [Div R] [OfScientific R] [BEq R]
  [LT R] [DecidableLT R] [LE R] [DecidableLE R] [NatCast R] [IntCast R]

/-! ## Bulges -/

def hernquistSphericalDensity (L : Libm R) (sph : Spherical R) (r : R) : R :=
  let pi := 3.1415926535
  let a := sph.scale
  if r * L.pow (r + a) 3.0 == 0 then 0
  else sph.mass / (2.0 * pi * L.pow a 3.0) * L.pow a 4.0 / (r * L.pow (r + a) 3.0)

def plummerDensity (L : Libm R) (a M r : R) : R :=
  let pi := 3.1415926535
  if a == 0 then 0
  else
    let r_a := r / a
    let rho_peak := 3.0 * M / (4.0 * pi * L.pow a 3.0)
    rho_peak * L.pow (1.0 + L.pow r_a 2.0) (-2.5)

def plummerSphericalDensity (L : Libm R) (sph : Spherical R) (r : R) : R :=
  plummerDensity L sph.scale sph.mass r

/-! ## Disks -/

def miyamotoNagaiDiskDensity (L : Libm R) (disk : Disk R) (pos : Vec3 R) : R :=
  let pi := 3.1415926535
  let a := disk.scaleLength
  let b := disk.scaleHeight
  let M := disk.mass
  let rad := L.pow (L.pow pos.x 2.0 + L.pow pos.y 2.0) 0.5
  let zp := L.pow (L.pow pos.z 2.0 + L.pow b 2.0) 0.5
  let azp := a + zp
  let numer := M * b * b * (a * rad * rad + (a + 3.0 * zp) * L.pow azp 2.0)
  let denom := 4.0 * pi * L.pow (rad * rad + azp * azp) 2.5 * L.pow zp 3.0
  if denom == 0 then 0 else numer / denom

def doubleExponentialDiskDensity (L : Libm R) (disk : Disk R) (pos : Vec3 R) : R :=
  let pi := 3.1415926535
  let M := disk.mass
  let d_r := disk.scaleLength
  let d_z := disk.scaleHeight
  let rad := L.sqrt (L.pow pos.x 2.0 + L.pow pos.y 2.0)
  M / (4.0 * pi * d_z * L.pow d_r 2.0) * L.exp (-rad / d_r) * L.exp (-mw_abs pos.z / d_z)

def sech2ExponentialDiskDensity (L : BesselLibm R) (disk : Disk R) (pos : Vec3 R) : R :=
  let pi := 3.1415926535
  let M := disk.mass
  let d_r := disk.scaleLength
  let d_z := disk.scaleHeight
  let rad := L.sqrt (L.pow pos.x 2.0 + L.pow pos.y 2.0)
  M / (4.0 * pi * d_z * d_r * d_r) * L.exp (-rad / d_r) / L.pow (L.cosh (pos.z / d_z)) 2.0

/-! ## Halos -/

def logarithmicHaloDensity (L : Libm R) (h : Halo R) (pos : Vec3 R) : R :=
  let pi := 3.1415926535
  let v := h.vhalo
  let q := h.flattenZ
  let a := h.scaleLength
  let R2 := L.pow pos.x 2.0 + L.pow pos.y 2.0
  let numer := (2.0 * q * q + 1.0) * a * a + R2 + L.pow pos.z 2.0 * (2.0 - 1.0 / q / q)
  let denom := q * q * L.pow (R2 + a * a + L.pow (pos.z / q) 2.0) 2.0
  v * v * numer / 2.0 / pi / denom

def NFWHaloDensity (L : Libm R) (h : Halo R) (r : R) : R :=
  let pi := 3.1415926535
  let a := h.scaleLength
  let v := h.vhalo
  let rho := v * v / 4.0 / pi / a / a / 0.2162165954
  if r == 0 then 0 else rho / (r / a) / L.pow (1.0 + r / a) 2.0

def triaxialHaloDensity (L : Libm R) (h : Halo R) (pos : Vec3 R) : R :=
  let pi := 3.1415926535
  let v := h.vhalo
  let q := h.flattenZ
  let a := h.scaleLength
  let D := a * a + h.c1 * L.pow pos.x 2.0 + h.c2 * L.pow pos.y 2.0 + h.c3 * pos.x * pos.y +
    L.pow pos.z 2.0 / q / q
  let num := 2.0 * h.c1 * D + 2.0 * h.c2 * D + 2.0 * D / q / q -
    L.pow (2.0 * h.c1 * pos.x + h.c3 * pos.y) 2.0 -
    L.pow (2.0 * h.c2 * pos.y + h.c3 * pos.x) 2.0 - L.pow (2.0 * pos.z / q / q) 2.0
  v * v * num / 4.0 / pi / D / D

def hernquistHaloDensity (L : Libm R) (h : Halo R) (r : R) : R :=
  let pi := 3.1415926535
  let a := h.scaleLength
  if r * L.pow (r + a) 3.0 == 0 || 2.0 * pi * L.pow a 3.0 == 0 then 0
  else h.mass / (2.0 * pi * L.pow a 3.0) * L.pow a 4.0 / (r * L.pow (r + a) 3.0)

def plummerHaloDensity (L : Libm R) (h : Halo R) (r : R) : R :=
  plummerDensity L h.scaleLength h.mass r

def NFWMHaloDensity (h : Halo R) (r : R) : R :=
  let pi := 3.1415926535
  let a := h.scaleLength
  let M := h.mass
  if r == 0 then 0 else M / (r * (a + r) * (a + r) * 4.0 * pi)

def allenSantillanHaloDensity (L : Libm R) (h : Halo R) (r : R) : R :=
  let pi := 3.1415926535
  let a := h.scaleLength
  let M := h.mass
  let lam := h.lambda
  let gam := h.gamma
  let b := gam - 1.0
  let numer := L.pow (r / a) b * (L.pow (r / a) b + b + 1.0)
  let denom := r * r * L.pow (1.0 + L.pow (r / a) b) 2.0
  if r == 0.0 then 0.0
  else if lam < r then 0.0
  else M * numer / a / denom / 4.0 / pi

def wilkinsonEvansHaloDensity (L : Libm R) (h : Halo R) (r : R) : R :=
  let pi := 3.1415926535
  let a := h.scaleLength
  let M := h.mass
  if r == 0.0 then 0.0
  else 1.0 / (4.0 * pi) * M * a * a / (r * r * L.pow (r * r + a * a) 1.5)

def ninkovicHaloDensity (L : Libm R) (h : Halo R) (r : R) : R :=
  let a := h.scaleLength
  let rho := h.rho0
  let lam := h.lambda
  let density := rho * (1.0 / (1.0 + L.pow (r / a) 3.0) - 1.0 / (1.0 + L.pow (lam / a) 3.0))
  if density < 0 then 0.0 else density

def nbDensities (L : BesselLibm R) (K : Components R) : Components R :=
  { K with
    diskDensity := fun type disk pos =>
      match type with
      | .miyamotoNagai => miyamotoNagaiDiskDensity L.toLibm disk pos
      | .doubleExponential => doubleExponentialDiskDensity L.toLibm disk pos
      | .sech2Exponential => sech2ExponentialDiskDensity L disk pos
      | .none | .freeman | .orbitingBar | .invalid => 0
    haloDensity := fun type halo pos r =>
      match type with
      | .logarithmic => logarithmicHaloDensity L.toLibm halo pos
      | .nfw => NFWHaloDensity L.toLibm halo r
      | .triaxial => triaxialHaloDensity L.toLibm halo pos
      | .allenSantillan => allenSantillanHaloDensity L.toLibm halo r
      | .wilkinsonEvans => wilkinsonEvansHaloDensity L.toLibm halo r
      | .nfwMass => NFWMHaloDensity halo r
      | .plummer => plummerHaloDensity L.toLibm halo r
      | .hernquist => hernquistHaloDensity L.toLibm halo r
      | .ninkovic => ninkovicHaloDensity L.toLibm halo r
      | .none | .caustic | .invalid => 0
    sphericalDensity := fun type sph r =>
      match type with
      | .hernquist => hernquistSphericalDensity L.toLibm sph r
      | .plummer => plummerSphericalDensity L.toLibm sph r
      | .none | .invalid => 0 }

def hostComponents (L : BesselLibm R) (causticHaloAccel : Vec3 R → R → Vec3 R)
    (K : Components R) : Components R :=
  nbComponents L.toLogLibm (hostAccels L causticHaloAccel) (nbDensities L K)

end

end MilkyWay.NBody
