import MilkyWay.NBody.Potential

/-! The accelerations of the kinds of components, one formula for each, and the checks
that a potential passes before a run. The exponential disks and the caustic halo, which
only the host evaluates, stay parameters. -/

namespace MilkyWay.NBody

open Foundation

structure LogLibm (R : Type) extends Libm R where
  log : R → R

structure HostAccels (R : Type) where
  doubleExponentialDiskAccel : Disk R → Vec3 R → R → Vec3 R
  sech2ExponentialDiskAccel : Disk R → Vec3 R → R → Vec3 R
  causticHaloAccel : Halo R → Vec3 R → R → Vec3 R

section
variable {R : Type} [Zero R] [Add R] [Neg R] [Sub R] [Mul R] [Div R] [OfScientific R] [BEq R]
  [LT R] [DecidableLT R] [LE R] [DecidableLE R] [NatCast R] [IntCast R]

def cube (x : R) : R := x * x * x

/-! ## Bulges -/

def hernquistSphericalAccel (sph : Spherical R) (pos : Vec3 R) (r : R) : Vec3 R :=
  let tmp := sph.scale + r
  (-sph.mass / (r * sqr tmp)) • pos

def plummerSphericalAccel (L : Libm R) (sph : Spherical R) (pos : Vec3 R) (r : R) : Vec3 R :=
  let tmp := L.sqrt (sqr sph.scale + sqr r)
  (-sph.mass / L.pow tmp 3.0) • pos

/-! ## Disks -/

def miyamotoNagaiDiskAccel (L : Libm R) (disk : Disk R) (pos : Vec3 R) : Vec3 R :=
  let a := disk.scaleLength
  let b := disk.scaleHeight
  let zp := L.pow (L.pow pos.z 2.0 + L.pow b 2.0) 0.5
  let azp := a + zp
  let rp := L.pow pos.x 2.0 + L.pow pos.y 2.0 + L.pow azp 2.0
  let rth := L.pow rp 1.5
  ⟨-disk.mass * pos.x / rth, -disk.mass * pos.y / rth, -disk.mass * pos.z * azp / (zp * rth)⟩

/-- The logarithm of the factorial, summed from above. -/
def lnfact (L : LogLibm R) (n : ℕ) : R :=
  (List.range n).foldl (fun result i => result + L.log ((n - i : ℕ) : R)) 0.0

def binom (L : LogLibm R) (n k : ℕ) : R :=
  L.exp (lnfact L n - lnfact L k - lnfact L (n - k))

/-- The Legendre polynomial, which at zero has a closed form. -/
def leg_pol (L : LogLibm R) (x : R) (l : ℕ) : R :=
  let sum := (List.range (l / 2 + 1)).foldl (fun sum (m : ℕ) =>
    sum + L.pow (-1.0) (m : R) * L.pow x ((l - 2 * m : ℤ) : R) / L.pow 2.0 (l : R) *
      binom L l m * binom L (2 * (l - m)) l) 0.0
  if x == 0.0 then
    if l % 2 = 0 then
      L.pow (-1.0) ((l / 2 : ℕ) : R) *
        L.exp (lnfact L l - 2.0 * lnfact L (l / 2) - (l : R) * L.log 2.0)
    else 0.0
  else sum

def leg_pol_dervTerm (L : LogLibm R) (x : R) (l m : ℕ) : R :=
  L.pow (-1.0) (m : R) * L.pow x ((l - 2 * m - 1 : ℤ) : R) / L.pow 2.0 (l : R) *
    binom L l m * binom L (2 * (l - m)) l * ((l - 2 * m : ℤ) : R)

/-- The number of terms comes from a division of integers. -/
def leg_pol_derv (L : LogLibm R) (x : R) (l : ℕ) : R :=
  (List.range ((l - 1) / 2 + 1)).foldl (fun sum m => sum + leg_pol_dervTerm L x l m) 0.0

def lower_gamma (L : LogLibm R) (n : ℕ) (x : R) : R :=
  let sum := (List.range n).foldl (fun sum (k : ℕ) =>
    sum + L.pow x (k : R) / L.exp (lnfact L k)) 0.0
  L.exp (lnfact L (n - 1)) * (1.0 - L.exp (-x) * sum)

/-- A continued fraction; the last quotient is one of integers. -/
def GenExpIntegral (L : LogLibm R) (n : ℕ) (x : R) : R :=
  L.exp (-x) / (List.range 9).foldr
    (fun (i : ℕ) tail => x + ((n + i : ℕ) : R) / (1.0 + ((i + 1 : ℕ) : R) / tail))
    (x + (((n + 9) / 11 : ℕ) : R))

/-- The radial and the polar sum of a Freeman disk over the even multipoles, with the
derivative of the polynomials as `derv`. -/
def freemanSums (L : LogLibm R) (derv : R → ℕ → R) (scl r costheta sintheta : R) : R × R :=
  (List.range 5).foldl (fun sums l =>
    let a_r := if 0 < l then GenExpIntegral L (2 * l) (r / scl) else 0.0
    let b_r := L.pow (scl / r) ((2 * l + 2 : ℕ) : R) * lower_gamma L (2 * l + 2) (r / scl)
    let p0 := leg_pol L 0.0 (2 * l)
    let pcos := leg_pol L costheta (2 * l)
    (sums.1 + p0 * pcos * (((2 * l : ℕ) : R) * a_r - ((2 * l + 1 : ℕ) : R) * b_r),
      if 0 < l then sums.2 - p0 * (a_r + b_r) * sintheta * derv costheta (2 * l) else sums.2))
    (0.0, 0.0)

def freemanParts (L : LogLibm R) (derv : R → ℕ → R) (M scl : R) (pos : Vec3 R) (r : R) :
    Vec3 R × Vec3 R :=
  let r_hat := (1.0 / r) • pos
  let r_proj := L.sqrt (sqr pos.x + sqr pos.y)
  let theta_hat : Vec3 R :=
    ⟨pos.x * pos.z / r / r_proj, pos.y * pos.z / r / r_proj, -r_proj / r⟩
  let costheta := pos.z / r
  let sintheta := r_proj / r
  let sums := freemanSums L derv scl r costheta sintheta
  ((sums.1 * M / sqr scl) • r_hat, (sums.2 * M / sqr scl) • theta_hat)

def freemanDiskAccel (L : LogLibm R) (disk : Disk R) (pos : Vec3 R) (r : R) : Vec3 R :=
  let (r_comp, theta_comp) :=
    freemanParts L (leg_pol_derv L) disk.mass disk.scaleLength pos r
  ⟨r_comp.x + theta_comp.x, r_comp.y + theta_comp.y, r_comp.z + theta_comp.z⟩

/-! ## Halos -/

def logHaloAccel (L : Libm R) (halo : Halo R) (pos : Vec3 R) : Vec3 R :=
  let v0 := halo.vhalo
  let q := halo.flattenZ
  let d := halo.scaleLength
  let denom := L.pow d 2.0 + L.pow pos.x 2.0 + L.pow pos.y 2.0 + L.pow (pos.z / q) 2.0
  let k := -2.0 * v0 * v0 / denom
  ⟨k * pos.x, k * pos.y, k * pos.z / (q * q)⟩

def nfwHaloAccel (L : LogLibm R) (h : Halo R) (pos : Vec3 R) (r : R) : Vec3 R :=
  let a := h.scaleLength
  let M := sqr h.vhalo * a / 0.2162165954
  let ar := a + r
  let c := -M / sqr r * (L.log (ar / a) / r - 1.0 / ar)
  c • pos

def triaxialHaloAccel (h : Halo R) (pos : Vec3 R) : Vec3 R :=
  let qzs := sqr h.flattenZ
  let rhalosqr := sqr h.scaleLength
  let mvsqr := -sqr h.vhalo
  let xsqr := sqr pos.x
  let ysqr := sqr pos.y
  let zsqr := sqr pos.z
  let arst := rhalosqr + h.c1 * xsqr + h.c3 * pos.x * pos.y + h.c2 * ysqr
  let arst2 := zsqr / qzs + arst
  ⟨mvsqr * (2.0 * h.c1 * pos.x + h.c3 * pos.y) / arst2,
    mvsqr * (2.0 * h.c2 * pos.y + h.c3 * pos.x) / arst2,
    2.0 * mvsqr * pos.z / (qzs * arst + zsqr)⟩

def ASHaloAccel (L : Libm R) (h : Halo R) (pos : Vec3 R) (r : R) : Vec3 R :=
  let gam := h.gamma
  let lam := h.lambda
  let M := h.mass
  let a := h.scaleLength
  let scaleR := r / a
  let scaleL := lam / a
  let c := if r < lam then
      -(M / (a * r)) * L.pow scaleR (gam - 1.0) / (1.0 + L.pow scaleR (gam - 1.0))
    else
      -(M / L.pow r 2.0) * L.pow scaleL gam / (1.0 + L.pow scaleL (gam - 1.0))
  (c / r) • pos

def WEHaloAccel (L : Libm R) (h : Halo R) (pos : Vec3 R) (r : R) : Vec3 R :=
  let a := h.scaleLength
  let M := h.mass
  let sum2 := sqr a + sqr r
  let c := -M / r * (a + L.sqrt sum2) / (sum2 + a * L.sqrt sum2)
  (c / r) • pos

def NFWMHaloAccel (L : LogLibm R) (h : Halo R) (pos : Vec3 R) (r : R) : Vec3 R :=
  let a := h.scaleLength
  let M := h.mass
  let ar := a + r
  let c := -M / sqr r * (L.log (ar / a) / r - 1.0 / ar)
  c • pos

def plummerHaloAccel (L : Libm R) (h : Halo R) (pos : Vec3 R) (r : R) : Vec3 R :=
  let tmp := L.sqrt (sqr h.scaleLength + sqr r)
  (-h.mass / cube tmp) • pos

def hernquistHaloAccel (h : Halo R) (pos : Vec3 R) (r : R) : Vec3 R :=
  let tmp := h.scaleLength + r
  (-h.mass / (r * sqr tmp)) • pos

def ninkovicHaloAccel (L : LogLibm R) (h : Halo R) (pos : Vec3 R) (r : R) : Vec3 R :=
  let pi := 3.1415926535
  let rho0 := h.rho0
  let a := h.scaleLength
  let lambda := h.lambda
  let z := r / a
  let zl := lambda / a
  let f := 4.0 * pi / 3.0 * rho0 * cube a
  let mass_enc := if lambda < r then
      f * (L.log (1.0 + cube zl) - cube zl / (1.0 + cube zl))
    else
      f * (L.log (1.0 + cube z) - cube z / (1.0 + cube zl))
  (-mass_enc / cube r) • pos

/-- The components with the host's formulas. -/
def nbComponents (L : LogLibm R) (H : HostAccels R) (K : Components R) : Components R :=
  { K with
    diskAccel := fun type disk pos r =>
      match type with
      | .miyamotoNagai => miyamotoNagaiDiskAccel L.toLibm disk pos
      | .freeman => freemanDiskAccel L disk pos r
      | .doubleExponential => H.doubleExponentialDiskAccel disk pos r
      | .sech2Exponential => H.sech2ExponentialDiskAccel disk pos r
      | .none | .orbitingBar | .invalid => 0
    haloAccel := fun type halo pos r =>
      match type with
      | .logarithmic => logHaloAccel L.toLibm halo pos
      | .nfw => nfwHaloAccel L halo pos r
      | .triaxial => triaxialHaloAccel halo pos
      | .caustic => H.causticHaloAccel halo pos r
      | .allenSantillan => ASHaloAccel L.toLibm halo pos r
      | .wilkinsonEvans => WEHaloAccel L.toLibm halo pos r
      | .nfwMass => NFWMHaloAccel L halo pos r
      | .plummer => plummerHaloAccel L.toLibm halo pos r
      | .hernquist => hernquistHaloAccel halo pos r
      | .ninkovic => ninkovicHaloAccel L halo pos r
      | .none | .invalid => 0
    sphericalAccel := fun type sph pos r =>
      match type with
      | .hernquist => hernquistSphericalAccel sph pos r
      | .plummer => plummerSphericalAccel L.toLibm sph pos r
      | .none | .invalid => 0 }

/-! ## The checks of the constants -/

/-- Numbers are finite here. -/
def mwCheckNormalPosNum (n : R) : Bool := decide (n ≤ 0.0)

def checkSphericalConstants (s : Spherical R) : Bool :=
  match s.type with
  | .hernquist | .plummer => mwCheckNormalPosNum s.mass || mwCheckNormalPosNum s.scale
  | .none => false
  | .invalid => true

def checkDiskConstants (d : Disk R) : Bool :=
  match d.type with
  | .miyamotoNagai | .doubleExponential | .sech2Exponential | .orbitingBar =>
    mwCheckNormalPosNum d.mass || mwCheckNormalPosNum d.scaleLength ||
      mwCheckNormalPosNum d.scaleHeight
  | .freeman => mwCheckNormalPosNum d.mass || mwCheckNormalPosNum d.scaleLength
  | .none => mwCheckNormalPosNum d.mass
  | .invalid => true

/-- The check of a halo with the constants it computes, or nothing for a bad one. -/
def checkHaloConstants (L : Libm R) (M_PI : R) (h : Halo R) : Option (Halo R) :=
  match h.type with
  | .logarithmic => if h.flattenZ < L.pow 2.0 (-0.5) then none else some h
  | .triaxial =>
    let phi := h.triaxAngle * M_PI / 180.0
    let cps := sqr (L.cos phi)
    let sps := sqr (L.sin phi)
    let qxs := sqr h.flattenX
    let qys := sqr h.flattenY
    some { h with
      c1 := cps / qxs + sps / qys
      c2 := cps / qys + sps / qxs
      c3 := L.sin (2.0 * phi) * ((qys - qxs) / (qxs * qys)) }
  | .invalid => none
  | _ => some h

/-- The second disk is not looked at. -/
def checkPotentialConstants (L : Libm R) (M_PI : R) (p : Potential R) : Option (Potential R) :=
  if checkSphericalConstants p.sphere || checkDiskConstants p.disk then none
  else (checkHaloConstants L M_PI p.halo).map fun h => { p with halo := h }

end

end MilkyWay.NBody
