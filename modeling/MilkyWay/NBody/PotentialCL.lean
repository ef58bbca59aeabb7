import MilkyWay.NBody.Accelerations

/-! The external potential in the kernels, compiled with the kinds and constants that
the host passes on the command line of the compiler, against that of the host. -/

namespace MilkyWay.NBody

open Foundation

def SphericalType.toInt : SphericalType → ℤ
  | .invalid => -1
  | .none => 0
  | .hernquist => 1
  | .plummer => 2

def DiskType.toInt : DiskType → ℤ
  | .invalid => -1
  | .none => 0
  | .miyamotoNagai => 1
  | .freeman => 2
  | .doubleExponential => 3
  | .sech2Exponential => 4
  | .orbitingBar => 5

def HaloType.toInt : HaloType → ℤ
  | .invalid => -1
  | .none => 0
  | .logarithmic => 1
  | .nfw => 2
  | .triaxial => 3
  | .caustic => 4
  | .allenSantillan => 5
  | .wilkinsonEvans => 6
  | .nfwMass => 7
  | .plummer => 8
  | .hernquist => 9
  | .ninkovic => 10

structure PotentialDefines (R : Type) where
  DISK_TYPE : ℤ
  DISK_2_TYPE : ℤ
  HALO_TYPE : ℤ
  SPHERE_TYPE : ℤ
  SPHERICAL_MASS : R
  SPHERICAL_SCALE : R
  DISK_MASS : R
  DISK_SCALE_LENGTH : R
  DISK_SCALE_HEIGHT : R
  HALO_VHALO : R
  HALO_SCALE_LENGTH : R
  HALO_FLATTEN_Z : R
  HALO_FLATTEN_Y : R
  HALO_FLATTEN_X : R
  HALO_TRIAX_ANGLE : R
  HALO_C1 : R
  HALO_C2 : R
  HALO_C3 : R
  HALO_MASS : R
  HALO_GAMMA : R
  HALO_LAMBDA : R
  HALO_RHO0 : R

/-- The part of the flags for the compiler that sets the potential; of the second disk
only the kind is passed. -/
def nbGetCompileFlags {R : Type} (p : Potential R) : PotentialDefines R where
  DISK_TYPE := p.disk.type.toInt
  DISK_2_TYPE := p.disk2.type.toInt
  HALO_TYPE := p.halo.type.toInt
  SPHERE_TYPE := p.sphere.type.toInt
  SPHERICAL_MASS := p.sphere.mass
  SPHERICAL_SCALE := p.sphere.scale
  DISK_MASS := p.disk.mass
  DISK_SCALE_LENGTH := p.disk.scaleLength
  DISK_SCALE_HEIGHT := p.disk.scaleHeight
  HALO_VHALO := p.halo.vhalo
  HALO_SCALE_LENGTH := p.halo.scaleLength
  HALO_FLATTEN_Z := p.halo.flattenZ
  HALO_FLATTEN_Y := p.halo.flattenY
  HALO_FLATTEN_X := p.halo.flattenX
  HALO_TRIAX_ANGLE := p.halo.triaxAngle
  HALO_C1 := p.halo.c1
  HALO_C2 := p.halo.c2
  HALO_C3 := p.halo.c3
  HALO_MASS := p.halo.mass
  HALO_GAMMA := p.halo.gamma
  HALO_LAMBDA := p.halo.lambda
  HALO_RHO0 := p.halo.rho0

namespace CL

section
variable {R : Type} [Zero R] [Add R] [Neg R] [Sub R] [Mul R] [Div R] [OfScientific R] [BEq R]
  [LT R] [DecidableLT R] [NatCast R] [IntCast R]

def hernquistSphericalAccel (D : PotentialDefines R) (pos : Vec3 R) (r : R) : Vec3 R :=
  let tmp := D.SPHERICAL_SCALE + r
  (-D.SPHERICAL_MASS / (r * sqr tmp)) • pos

def plummerSphericalAccel (L : Libm R) (D : PotentialDefines R) (pos : Vec3 R) (r : R) :
    Vec3 R :=
  let tmp := L.sqrt (sqr D.SPHERICAL_SCALE + sqr r)
  (-D.SPHERICAL_MASS / cube tmp) • pos

def miyamotoNagaiDiskAccel (L : Libm R) (D : PotentialDefines R) (pos : Vec3 R) : Vec3 R :=
  let a := D.DISK_SCALE_LENGTH
  let b := D.DISK_SCALE_HEIGHT
  let zp := L.sqrt (sqr pos.z + sqr b)
  let azp := a + zp
  let rp := sqr pos.x + sqr pos.y + sqr azp
  let rth := L.sqrt (cube rp)
  ⟨-D.DISK_MASS * pos.x / rth, -D.DISK_MASS * pos.y / rth,
    -D.DISK_MASS * pos.z * azp / (zp * rth)⟩

/-- Here the number of terms comes from a division of reals. -/
def leg_pol_derv (L : LogLibm R) (x : R) (l : ℕ) : R :=
  (List.range ((l + 1) / 2)).foldl (fun sum m => sum + leg_pol_dervTerm L x l m) 0.0

/-- All three sums are stored in the first coordinate. -/
def freemanDiskAccel (L : LogLibm R) (D : PotentialDefines R) (pos : Vec3 R) (r : R) :
    Vec3 R :=
  let (r_comp, theta_comp) :=
    freemanParts L (leg_pol_derv L) D.DISK_MASS D.DISK_SCALE_LENGTH pos r
  let acc : Vec3 R := 0
  let acc := { acc with x := r_comp.x + theta_comp.x }
  let acc := { acc with x := r_comp.y + theta_comp.y }
  { acc with x := r_comp.z + theta_comp.z }

def logHaloAccel (D : PotentialDefines R) (pos : Vec3 R) : Vec3 R :=
  let tvsqr := -2.0 * sqr D.HALO_VHALO
  let qsqr := sqr D.HALO_FLATTEN_Z
  let d := D.HALO_SCALE_LENGTH
  let zsqr := sqr pos.z
  let arst := sqr d + sqr pos.x + sqr pos.y
  let denom := zsqr / qsqr + arst
  ⟨tvsqr * pos.x / denom, tvsqr * pos.y / denom, tvsqr * pos.z / (qsqr * arst + zsqr)⟩

def nfwHaloAccel (L : LogLibm R) (D : PotentialDefines R) (pos : Vec3 R) (r : R) : Vec3 R :=
  let a := D.HALO_SCALE_LENGTH
  let ar := a + r
  let c := a * sqr D.HALO_VHALO * (r - ar * L.log ((a + r) / a)) /
    (0.2162165954 * cube r * ar)
  c • pos

def triaxialHaloAccel (D : PotentialDefines R) (pos : Vec3 R) : Vec3 R :=
  let qzs := sqr D.HALO_FLATTEN_Z
  let rhalosqr := sqr D.HALO_SCALE_LENGTH
  let mvsqr := -sqr D.HALO_VHALO
  let xsqr := sqr pos.x
  let ysqr := sqr pos.y
  let zsqr := sqr pos.z
  let c1 := D.HALO_C1
  let c2 := D.HALO_C2
  let c3 := D.HALO_C3
  let arst := rhalosqr + c1 * xsqr + c3 * pos.x * pos.y + c2 * ysqr
  let arst2 := zsqr / qzs + arst
  ⟨mvsqr * (2.0 * c1 * pos.x + c3 * pos.y) / arst2,
    mvsqr * (2.0 * c2 * pos.y + c3 * pos.x) / arst2,
    2.0 * mvsqr * pos.z / (qzs * arst + zsqr)⟩

def ASHaloAccel (L : Libm R) (D : PotentialDefines R) (pos : Vec3 R) (r : R) : Vec3 R :=
  let gam := D.HALO_GAMMA
  let lam := D.HALO_LAMBDA
  let M := D.HALO_MASS
  let a := D.HALO_SCALE_LENGTH
  let scaleR := r / a
  let scaleL := lam / a
  let c := if r < lam then
      -(M / sqr a) * L.pow scaleR (gam - 2.0) / (1.0 + L.pow scaleR (gam - 1.0))
    else
      -(M / sqr r) * L.pow scaleL gam / (1.0 + L.pow scaleL (gam - 1.0))
  ⟨pos.x * c / r, pos.y * c / r, pos.z * c / r⟩

def WEHaloAccel (L : Libm R) (D : PotentialDefines R) (pos : Vec3 R) (r : R) : Vec3 R :=
  let a := D.HALO_SCALE_LENGTH
  let M := D.HALO_MASS
  let sum2 := sqr a + sqr r
  let c := -M / r * (a + L.sqrt sum2) / (sum2 + a * L.sqrt sum2)
  ⟨pos.x * c / r, pos.y * c / r, pos.z * c / r⟩

def NFWMHaloAccel (L : LogLibm R) (D : PotentialDefines R) (pos : Vec3 R) (r : R) : Vec3 R :=
  let a := D.HALO_SCALE_LENGTH
  let M := D.HALO_MASS
  let ar := a + r
  let c := -M / sqr r * (L.log (ar / a) / r - 1.0 / ar)
  ⟨pos.x * c, pos.y * c, pos.z * c⟩

def plummerHaloAccel (L : Libm R) (D : PotentialDefines R) (pos : Vec3 R) (r : R) : Vec3 R :=
  let tmp := L.sqrt (sqr D.HALO_SCALE_LENGTH + sqr r)
  ⟨pos.x * -D.HALO_MASS / cube tmp, pos.y * -D.HALO_MASS / cube tmp,
    pos.z * -D.HALO_MASS / cube tmp⟩

def hernquistHaloAccel (D : PotentialDefines R) (pos : Vec3 R) (r : R) : Vec3 R :=
  let tmp := D.HALO_SCALE_LENGTH + r
  ⟨pos.x * -D.HALO_MASS / (r * sqr tmp), pos.y * -D.HALO_MASS / (r * sqr tmp),
    pos.z * -D.HALO_MASS / (r * sqr tmp)⟩

def ninkovicHaloAccel (L : LogLibm R) (D : PotentialDefines R) (pos : Vec3 R) (r : R) :
    Vec3 R :=
  let rho0 := D.HALO_RHO0
  let a := D.HALO_SCALE_LENGTH
  let lambda := D.HALO_LAMBDA
  let z := r / a
  let zl := lambda / a
  let f := 4.0 * 3.1415926535 / 3.0 * rho0 * cube a
  let mass_enc := if lambda < r then
      f * (L.log (1.0 + cube zl) - cube zl / (1.0 + cube zl))
    else
      f * (L.log (1.0 + cube z) - cube z / (1.0 + cube zl))
  ⟨pos.x * -mass_enc / cube r, pos.y * -mass_enc / cube r, pos.z * -mass_enc / cube r⟩

/-- The switch over the kind of a disk, in either place; a kind without code leaves the
variable as it was declared, without a value. -/
def diskAccel (L : LogLibm R) (D : PotentialDefines R) (type : ℤ) (pos : Vec3 R) (r : R) :
    Option (Vec3 R) :=
  match type with
  | 0 => some 0
  | 1 => some (miyamotoNagaiDiskAccel L.toLibm D pos)
  | 2 => some (freemanDiskAccel L D pos r)
  | _ => none

def haloAccel (L : LogLibm R) (D : PotentialDefines R) (acctmp pos : Vec3 R) (r : R) :
    Vec3 R :=
  match D.HALO_TYPE with
  | 0 => 0
  | 1 => logHaloAccel D pos
  | 2 => nfwHaloAccel L D pos r
  | 3 => triaxialHaloAccel D pos
  | 4 => acctmp
  | 5 => ASHaloAccel L.toLibm D pos r
  | 6 => WEHaloAccel L.toLibm D pos r
  | 7 => NFWMHaloAccel L D pos r
  | 8 => plummerHaloAccel L.toLibm D pos r
  | 9 => hernquistHaloAccel D pos r
  | 10 => ninkovicHaloAccel L D pos r
  | _ => 0

/-- The switch over the kind of the bulge: the label of a Plummer bulge runs on into the
default, which stores zero over its acceleration. -/
def sphericalAccel (L : LogLibm R) (D : PotentialDefines R) (acctmp pos : Vec3 R) (r : R) :
    Vec3 R :=
  let default (_ : Vec3 R) : Vec3 R := ⟨0, 0, 0⟩
  match D.SPHERE_TYPE with
  | 0 => 0
  | 1 => hernquistSphericalAccel D pos r
  | 2 => default (plummerSphericalAccel L.toLibm D pos r)
  | _ => default acctmp

def externalAcceleration (L : LogLibm R) (D : PotentialDefines R) (x y z : R) :
    Option (Vec3 R) := do
  let pos : Vec3 R := ⟨x, y, z⟩
  let r := L.sqrt (sqr x + sqr y + sqr z)
  let acc ← diskAccel L D D.DISK_TYPE pos r
  let acctmp ← diskAccel L D D.DISK_2_TYPE pos r
  let acc := acc + acctmp
  let acctmp := haloAccel L D acctmp pos r
  let acc := acc + acctmp
  let acctmp := sphericalAccel L D acctmp pos r
  return acc + acctmp

end

end CL

end MilkyWay.NBody
