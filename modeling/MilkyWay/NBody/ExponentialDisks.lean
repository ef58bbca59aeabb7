import MilkyWay.NBody.Accelerations

/-! The accelerations of the exponential disks, which the host integrates over Bessel
functions. The functions themselves and their tables belong to the library. -/

namespace MilkyWay.NBody

open Foundation

/-- The library's functions with the hyperbolic and the Bessel functions, the zeros of two
of these and the tabulated integrals. -/
structure BesselLibm (R : Type) extends LogLibm R where
  sinh : R → R
  cosh : R → R
  besselJ0 : R → R
  besselJ1 : R → R
  besselJ2 : R → R
  besselI0 : R → R
  besselI1 : R → R
  besselK0 : R → R
  besselK1 : R → R
  besselJ0_zero : ℕ → R
  besselJ1_zero : ℕ → R
  aExp : R → R → R → R
  bExp : R → R → R → R

section
variable {R : Type} [Zero R] [Add R] [Neg R] [Sub R] [Mul R] [Div R] [OfScientific R] [BEq R]
  [LT R] [DecidableLT R] [LE R] [DecidableLE R] [NatCast R] [IntCast R]

/-- A point of the quadrature along the zeros of a Bessel function, and the weight there
but for that function. -/
def ogataPoint (L : BesselLibm R) (zero : R) : R × R :=
  let pi := 3.1415926535
  let h := 0.001
  let psi_in := h * zero
  let psi := psi_in * L.sinh (pi / 2.0 * L.sinh psi_in) / L.cosh (pi / 2.0 * L.sinh psi_in)
  let psi_prime := (L.sinh (pi * L.sinh psi_in) + pi * psi_in * L.cosh psi_in) /
    (L.cosh (pi * L.sinh psi_in) + 1.0)
  (pi / h * psi, psi_prime)

def doubleExponentialPieces (L : BesselLibm R) (a b radius z : R) (n : ℕ) : R × R :=
  let pi := 3.1415926535
  let j0_zero := L.besselJ0_zero n / pi
  let j1_zero := L.besselJ1_zero n / pi
  let (j0_x, psi_prime_0) := ogataPoint L j0_zero
  let (j1_x, psi_prime_1) := ogataPoint L j1_zero
  let j0_w := 2.0 / (pi * j0_zero * L.pow (L.besselJ1 (pi * j0_zero)) 2.0) * L.besselJ0 j0_x *
    psi_prime_0
  let j1_w := 2.0 / (pi * j1_zero * L.pow (L.besselJ2 (pi * j1_zero)) 2.0) * L.besselJ1 j1_x *
    psi_prime_1
  let fun_1 := j1_x * L.pow (L.pow a 2.0 + L.pow (j1_x / radius) 2.0) (-1.5) *
    (b * L.exp (-j1_x / radius * mw_abs z) - j1_x / radius * L.exp (-b * mw_abs z)) /
      (L.pow b 2.0 - L.pow (j1_x / radius) 2.0)
  let fun_0 := L.pow (L.pow a 2.0 + L.pow (j0_x / radius) 2.0) (-1.5) * j0_x / radius *
    (L.exp (-j0_x / radius * mw_abs z) - L.exp (-b * mw_abs z)) /
      (L.pow b 2.0 - L.pow (j0_x / radius) 2.0)
  (4.0 * pi * a / L.pow radius 2.0 * fun_1 * j1_w, 4.0 * pi * a * b / radius * fun_0 * j0_w)

def doubleExponentialDiskAccel (L : BesselLibm R) (disk : Disk R) (pos : Vec3 R) : Vec3 R :=
  let pi := 3.1415926535
  let radius := L.sqrt (sqr pos.x + sqr pos.y)
  let R_hat : Vec3 R := ⟨pos.x / radius, pos.y / radius, 0.0⟩
  let Z_hat : Vec3 R := ⟨0.0, 0.0, pos.z / mw_abs pos.z⟩
  let M := disk.mass
  let a := 1.0 / disk.scaleLength
  let b := 1.0 / disk.scaleHeight
  let pieces := (List.range 150).foldl (fun (pieces : R × R) n =>
    let added := doubleExponentialPieces L a b radius pos.z n
    (pieces.1 + added.1, pieces.2 + added.2)) (0.0, 0.0)
  let R_comp := (-M * L.pow a 2.0 * b / 4.0 / pi * pieces.1) • R_hat
  let Z_comp := (-M * L.pow a 2.0 * b / 4.0 / pi * pieces.2) • Z_hat
  ⟨R_comp.x + Z_comp.x, R_comp.y + Z_comp.y, R_comp.z + Z_comp.z⟩

def RSechIntegrand (L : BesselLibm R) (k radius Rd z zd : R) : R :=
  let pi := 3.1415926535
  sqr k * zd / L.sinh (pi * k * zd / 2.0) * L.cos (k * z) *
    (L.aExp k radius Rd * L.besselK1 (k * radius) - L.bExp k radius Rd * L.besselI1 (k * radius))

def ZSechIntegrand (L : BesselLibm R) (k radius Rd z zd : R) : R :=
  let pi := 3.1415926535
  sqr k * zd / L.sinh (pi * k * zd / 2.0) * L.sin (k * z) *
    (L.aExp k radius Rd * L.besselK0 (k * radius) + L.bExp k radius Rd * L.besselI0 (k * radius))

def roundedQuadrature : List (R × R) :=
  [(0.236927, -0.90618), (0.478629, -0.538469), (0.568889, 0.0), (0.478629, 0.538469),
    (0.236927, 0.90618)]

def sechIntegral (radius : R) (integrand : R → R) : R :=
  let a := 0.0
  let b := 60.0 / radius
  let h := (b - a) / (15.0 * 1.0)
  (List.range 15).foldl (fun integral (k : ℕ) =>
    integral + roundedQuadrature.foldl (fun piece wp =>
      let k_val := h * wp.2 / 2.0 + a + ((k : R) * 1.0 + 0.5) * h
      piece + h * wp.1 * integrand k_val / 2.0) 0.0) 0.0

def sech2ExponentialDiskAccel (L : BesselLibm R) (disk : Disk R) (pos : Vec3 R) : Vec3 R :=
  let radius := L.sqrt (sqr pos.x + sqr pos.y)
  let R_hat : Vec3 R := ⟨pos.x / radius, pos.y / radius, 0.0⟩
  let Z_hat : Vec3 R := ⟨0.0, 0.0, 1.0⟩
  let Rd := disk.scaleLength
  let zd := disk.scaleHeight
  let M := disk.mass
  let z := pos.z
  let integralR := sechIntegral radius fun k => RSechIntegrand L k radius Rd z zd
  let integralZ := sechIntegral radius fun k => ZSechIntegrand L k radius Rd z zd
  let R_comp := (-1.0 * M * integralR) • R_hat
  let Z_comp := (-1.0 * M * integralZ) • Z_hat
  ⟨R_comp.x + Z_comp.x, R_comp.y + Z_comp.y, R_comp.z + Z_comp.z⟩

/-- The host's other formulas; that of the caustic halo does not look at the halo. -/
def hostAccels (L : BesselLibm R) (causticHaloAccel : Vec3 R → R → Vec3 R) : HostAccels R where
  doubleExponentialDiskAccel disk pos _ := doubleExponentialDiskAccel L disk pos
  sech2ExponentialDiskAccel disk pos _ := sech2ExponentialDiskAccel L disk pos
  causticHaloAccel _ pos r := causticHaloAccel pos r

end

end MilkyWay.NBody
