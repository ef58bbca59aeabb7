import MilkyWay.Separation.Types

/-! The points at which the density is evaluated: great circle coordinates of a wedge,
galactic coordinates around the Sun and points around the galactic centre. -/

namespace MilkyWay.Separation

open Foundation

section
variable {R : Type} [Zero R] [Add R] [Neg R] [Sub R] [Mul R] [Div R] [OfScientific R] [IntCast R]
  [LT R] [DecidableLT R] [LE R] [DecidableLE R]

def M_PI : R := 3.14159265358979323846

def d2r (x : R) : R := x * M_PI / 180.0

def r2d (x : R) : R := x * 180.0 / M_PI

def inv (x : R) : R := 1.0 / x

def stripeSeparation : R := 2.5
def surveyCenterRa : R := 185.0
def surveyCenterDec : R := 32.5
def const_sun_r0 : R := 8.5
def SEPARATION_EPS : R := 1.0e-15
def NODE_GC_COORDS : R := surveyCenterRa - 90.0
def NODE_GC_COORDS_RAD : R := d2r NODE_GC_COORDS

/-- The wedges beyond the forty-sixth lie on the other side. -/
def atEtaFromStripeNumber_rad (wedge : ℤ) : R :=
  (wedge : R) * d2r stripeSeparation - d2r 57.5 - (if 46 < wedge then M_PI else 0.0)

def mw_cmpnzero_eps (x eps : R) : Bool := eps ≤ mw_fabs x

def cartesianToSpherical (L : Libm R) (v : Vec3 R) : LB R :=
  let r := L.sqrt (sqr v.x + sqr v.y)
  ⟨if mw_cmpnzero_eps r SEPARATION_EPS then L.atan2 v.y v.x else 0.0,
    if mw_cmpnzero_eps v.z SEPARATION_EPS then L.atan2 v.z r else 0.0⟩

def rmat (v : Vec3 R) : Vec3 R :=
  ⟨mw_dotv ⟨-0.054875539726, -0.873437108010, -0.483834985808⟩ v,
    mw_dotv ⟨0.494109453312, -0.444829589425, 0.746982251810⟩ v,
    mw_dotv ⟨-0.867666135858, -0.198076386122, 0.455983795705⟩ v⟩

/-- Great circle coordinates of a wedge as longitude and latitude in degrees. -/
def gc2lb (L : Libm R) (wedge : ℤ) (mu nu : R) : LB R :=
  let sinnu := L.sin (d2r nu)
  let cosnu := L.cos (d2r nu)
  let munode := mu - NODE_GC_COORDS
  let sinmunode := L.sin (d2r munode)
  let cosmunode := L.cos (d2r munode)
  let x_1_2 := cosmunode * cosnu
  let y_2 := sinmunode * cosnu
  let wedge_incl := atEtaFromStripeNumber_rad wedge + d2r surveyCenterDec
  let sininc := L.sin wedge_incl
  let cosinc := L.cos wedge_incl
  let y_1 := y_2 * cosinc - sinnu * sininc
  let z_1 := y_2 * sininc + sinnu * cosinc
  let ra := L.atan2 y_1 x_1_2 + NODE_GC_COORDS_RAD
  let dec := L.asin z_1
  let cosdec := L.cos dec
  let lb := cartesianToSpherical L (rmat ⟨L.cos ra * cosdec, L.sin ra * cosdec, z_1⟩)
  ⟨r2d lb.l, r2d lb.b⟩

/-- The point at a longitude, a latitude and a distance from the Sun. -/
def lbr2xyz (L : Libm R) (ap : AstronomyParameters R) (lb : LB R) (r : R) : Vec3 R :=
  let bsin := L.sin (d2r lb.b)
  let bcos := L.cos (d2r lb.b)
  let lsin := L.sin (d2r lb.l)
  let lcos := L.cos (d2r lb.l)
  let zp := r * bcos
  let d := L.sqrt (sqr ap.sun_r0 + sqr zp - 2.0 * ap.sun_r0 * zp * lcos)
  ⟨(sqr zp - sqr ap.sun_r0 - sqr d) / (2.0 * ap.sun_r0), zp * lsin, r * bsin⟩

/-- The longitude and the latitude of a point in degrees, and its distance from the Sun. -/
def xyz2lbr (L : Libm R) (ap : AstronomyParameters R) (xyz : Vec3 R) : LB R × R :=
  let xsun := xyz.x + ap.sun_r0
  let tmp := sqr xsun + sqr xyz.y
  let l := r2d (L.atan2 xyz.y xsun)
  let b := r2d (L.atan2 xyz.z (L.sqrt tmp))
  (⟨if l < 0.0 then l + 360.0 else l, b⟩, L.sqrt (tmp + sqr xyz.z))

def lb_trig (L : Libm R) (lb : LB R) : LBTrig R :=
  let bCos := L.cos (d2r lb.b)
  ⟨L.cos (d2r lb.l) * bCos, L.sin (d2r lb.l) * bCos, L.sin (d2r lb.b)⟩

/-- The middle of a step in nu and the weight of the step. -/
def calcNuStep [NatCast R] (L : Libm R) (ia : IntegralArea R) (nu_step : ℕ) : NuId R :=
  let nu := ia.nu_min + (nu_step : R) * ia.nu_step_size
  let tmp1 := d2r (90.0 - nu - ia.nu_step_size)
  let tmp2 := d2r (90.0 - nu)
  ⟨nu + 0.5 * ia.nu_step_size, L.cos tmp1 - L.cos tmp2⟩

/-! ## Points along the line of sight -/

def stdev : R := 0.6
def absm : R := 4.2
def SQRT_2PI : R := 2.506628274631000502415765284811045253006986740609938

def distance_magnitude (L : Libm R) (m : R) : R := L.exp10 ((m - 14.2) * 0.2)

def calcG (L : Libm R) (coords : R) : R := 5.0 * (L.log10 (1000.0 * coords) - 1.0) + absm

/-- A point with a magnitude in place of its distance. -/
def xyz2lbg (L : Libm R) (ap : AstronomyParameters R) (point : Vec3 R) (offset : R) : LB R × R :=
  let lbr := xyz2lbr L ap point
  (lbr.1, calcG L lbr.2 - offset)

def xyz_mag (L : Libm R) (ap : AstronomyParameters R) (point : Vec3 R) (offset : R) : Vec3 R :=
  let lbg := xyz2lbg L ap point offset
  lbr2xyz L ap lbg.1 lbg.2

def calcReffXrRp3 (L : Libm R) (coords gPrime : R) : R :=
  let exp_result := L.exp (1.6171 * (gPrime - 23.5877))
  let reff_value := 0.9402 / (exp_result + 1.0)
  reff_value / cube coords

def modfitEps (L : Libm R) (tempr : R) : R :=
  (5.61945007e2 + 8.55878159 + (-1.67343282e1 + -1.04891551e1) * tempr +
    (1.09325822e-1 + 3.51630757) * sqr tempr + (1.34993610e-3 + -2.29741062e-01) * cube tempr +
    (-1.42044161e-5 + 6.72278105e-03) * L.powr tempr 4.0 +
    (0.0 + -1.01910181e-04) * L.powr tempr 5.0 + (0.0 + 7.82787167e-07) * L.powr tempr 6.0 +
    (0.0 + -2.41452056e-09) * L.powr tempr 7.0) / 532.0

def calcRConstsInt [NatCast R] (L : Libm R) (ap : AstronomyParameters R) (ia : IntegralArea R)
    (r_step : ℕ) : RConsts R :=
  let log_r := ia.r_min + (r_step : R) * ia.r_step_size
  let r := distance_magnitude L log_r
  let next_r := distance_magnitude L (log_r + ia.r_step_size)
  let irv := d2r ((cube next_r - cube r) * (1.0 / 3.0) * ia.mu_step_size)
  let rPrime := 0.5 * (next_r + r)
  let gPrime := calcG L rPrime
  let irv_reff_xr_rp3 := irv * calcReffXrRp3 L rPrime gPrime
  if ap.modfit then
    let tempr := distance_magnitude L gPrime
    let stdev_r := 0.52 * inv (1.0 + L.exp (12.0 - tempr)) + 0.76
    ⟨irv_reff_xr_rp3, gPrime, 1.0 / (0.5 * (0.36 + stdev_r) * SQRT_2PI), stdev_r,
      modfitEps L tempr⟩
  else
    ⟨irv_reff_xr_rp3, gPrime, 1.0 / (stdev * SQRT_2PI), stdev, 1.0⟩

def calc_r_point (L : Libm R) (ap : AstronomyParameters R) (dx qgaus_W : R) (rc : RConsts R) :
    RPoints R :=
  let g := rc.gPrime - dx
  let stdev_i := if ap.modfit then (if dx ≤ 0.0 then 0.36 else rc.stdev_r) else stdev
  let r_point := distance_magnitude L g
  let exponent := sqr (g - rc.gPrime) * inv (2.0 * sqr stdev_i)
  let N := rc.coeff * L.exp (-exponent)
  ⟨r_point, qgaus_W * cube r_point * N * rc.eps⟩

/-- The points of an area: a row for each step in r with as many as the convolution has. -/
def precalculateRPts [NatCast R] (L : Libm R) (ap : AstronomyParameters R) (ia : IntegralArea R)
    (sg : StreamGauss R) : (ℕ → RPoints R) × (ℕ → RConsts R) :=
  let rc := calcRConstsInt L ap ia
  (filled ap.convolve fun i j => calc_r_point L ap (sg.dx j) (sg.qgaus_W j) (rc i), rc)

end

end MilkyWay.Separation
