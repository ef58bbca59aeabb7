import MilkyWay.Separation.Coordinates

/-! The probabilities at a point of an area: for each point of the convolution the density
of the background and of each stream, weighted and added up. -/

namespace MilkyWay.Separation

open Foundation

section
variable {R : Type} [Zero R] [Add R] [Neg R] [Sub R] [Mul R] [Div R] [OfScientific R]
  [LT R] [DecidableLT R] [LE R] [DecidableLE R]

def lbr2xyz_2 (ap : AstronomyParameters R) (rPoint : R) (lbt : LBTrig R) : Vec3 R :=
  ⟨rPoint * lbt.lCosBCos + ap.m_sun_r0, rPoint * lbt.lSinBCos, rPoint * lbt.bSin⟩

def streamIncrement (L : Libm R) (sc : StreamConstants R) (xyz : Vec3 R) : R :=
  let xyzs := xyz - sc.c
  let dotted := mw_dotv sc.a xyzs
  let xyzs := xyzs - dotted • sc.a
  L.exp (-mw_sqrv xyzs * sc.sigma_sq2_inv)

def streamSums (L : Libm R) (st_probs : List R) (sc : List (StreamConstants R)) (xyz : Vec3 R)
    (qw_r3_N : R) : List R :=
  List.zipWith (fun prob sc => prob + qw_r3_N * streamIncrement L sc xyz) st_probs sc

def hernquist_prob_fast (ap : AstronomyParameters R) (qw_r3_N rg : R) : R :=
  let rs := rg + ap.r0
  qw_r3_N / (rg * cube rs)

def hernquist_prob_slow (L : Libm R) (ap : AstronomyParameters R) (qw_r3_N rg : R) : R :=
  let rs := rg + ap.r0
  qw_r3_N / (L.powr rg ap.innerPower * L.powr rs ap.alpha_delta3)

/-- The distance from the axis and the height of a point. -/
def xyz2cyl (L : Libm R) (xyz : Vec3 R) : R × R :=
  (L.sqrt (sqr xyz.x + sqr xyz.y), xyz.z)

def disk_prob_thick (L : Libm R) (qw_r3_N : R) (rz : R × R) : R :=
  let ls := -0.285714286
  let hs := -1.428571429
  qw_r3_N * L.exp (rz.1 * ls + mw_fabs rz.2 * hs)

/-- The power is another one from the break on. -/
def broken_power_law_prob (L : Libm R) (ap : AstronomyParameters R) (qw_r3_N rg : R) : R :=
  let n := ap.innerPower + (if ap.r0 ≤ rg then 1.0 else 0.0) * ap.alpha_delta3
  qw_r3_N * L.powr (ap.sun_r0 / rg) n

def rg_calc (L : Libm R) (ap : AstronomyParameters R) (xyz : Vec3 R) : R :=
  let tmp := sqr xyz.x
  let tmp := xyz.y * xyz.y + tmp
  let tmp := ap.q_inv_sqr * sqr xyz.z + tmp
  L.sqrt tmp

def zero_st_probs (nstream : ℕ) : List R := List.replicate nstream 0.0

def aux_prob (ap : AstronomyParameters R) (qw_r3_N r_in_mag : R) : R :=
  qw_r3_N * (ap.bg_a * sqr r_in_mag + ap.bg_b * r_in_mag + ap.bg_c)

def convolved (L : Libm R) (ap : AstronomyParameters R) (sc : List (StreamConstants R))
    (r_point qw_r3_N : ℕ → R) (lbt : LBTrig R) (reff_xr_rp3 : R)
    (background : R → ℕ → Vec3 R → R) : R × List R :=
  let (bg_prob, st_probs) := (List.range ap.convolve).foldl (fun probs i =>
    let xyz := lbr2xyz_2 ap (r_point i) lbt
    (background probs.1 i xyz, streamSums L probs.2 sc xyz (qw_r3_N i)))
    (0.0, zero_st_probs ap.number_streams)
  (bg_prob * reff_xr_rp3, st_probs.map fun prob => prob * reff_xr_rp3)

def probabilities_fast_hprob (L : Libm R) : ProbabilityFunc R :=
  fun ap sc sg_dx r_point qw_r3_N lbt gPrime reff_xr_rp3 =>
  convolved L ap sc r_point qw_r3_N lbt reff_xr_rp3 fun bg_prob i xyz =>
    let rz := xyz2cyl L xyz
    let rg := rg_calc L ap xyz
    let h_prob := ap.background_weight * hernquist_prob_fast ap (qw_r3_N i) rg +
      ap.thick_disk_weight * disk_prob_thick L (qw_r3_N i) rz
    let g := gPrime + sg_dx i
    let h_prob := if ap.aux_bg_profile then
        h_prob + ap.background_weight * aux_prob ap (qw_r3_N i) g
      else h_prob
    bg_prob + h_prob

def probabilities_slow_hprob (L : Libm R) : ProbabilityFunc R :=
  fun ap sc sg_dx r_point qw_r3_N lbt gPrime reff_xr_rp3 =>
  convolved L ap sc r_point qw_r3_N lbt reff_xr_rp3 fun bg_prob i xyz =>
    let rz := xyz2cyl L xyz
    let rg := rg_calc L ap xyz
    let bg_prob := bg_prob + (ap.background_weight * hernquist_prob_slow L ap (qw_r3_N i) rg +
      ap.thick_disk_weight * disk_prob_thick L (qw_r3_N i) rz)
    let g := gPrime + sg_dx i
    if ap.aux_bg_profile then bg_prob + ap.background_weight * aux_prob ap (qw_r3_N i) g
    else bg_prob

def probabilities_broken_power_law (L : Libm R) : ProbabilityFunc R :=
  fun ap sc _ r_point qw_r3_N lbt _ reff_xr_rp3 =>
  convolved L ap sc r_point qw_r3_N lbt reff_xr_rp3 fun bg_prob i xyz =>
    let rg := rg_calc L ap xyz
    bg_prob + broken_power_law_prob L ap (qw_r3_N i) rg

def selectStandardFunction (L : Libm R) (ap : AstronomyParameters R) : ProbabilityFunc R :=
  match ap.background_profile with
  | .slowHernquist => probabilities_slow_hprob L
  | .fastHernquist => probabilities_fast_hprob L
  | .brokenPowerLaw => probabilities_broken_power_law L

def standardBackground (L : Libm R) (ap : AstronomyParameters R) (qw_r3_N g : R) (xyz : Vec3 R)
    (bg_prob : R) : R :=
  let rg := rg_calc L ap xyz
  let disk := ap.thick_disk_weight * disk_prob_thick L qw_r3_N (xyz2cyl L xyz)
  let aux := ap.background_weight * aux_prob ap qw_r3_N g
  match ap.background_profile with
  | .fastHernquist =>
      let h_prob := ap.background_weight * hernquist_prob_fast ap qw_r3_N rg + disk
      bg_prob + if ap.aux_bg_profile then h_prob + aux else h_prob
  | .slowHernquist =>
      let bg_prob := bg_prob + (ap.background_weight * hernquist_prob_slow L ap qw_r3_N rg + disk)
      if ap.aux_bg_profile then bg_prob + aux else bg_prob
  | .brokenPowerLaw => bg_prob + broken_power_law_prob L ap qw_r3_N rg

theorem selectStandardFunction_eq (L : Libm R) (ap : AstronomyParameters R)
    (sc : List (StreamConstants R)) (sg_dx r_point qw_r3_N : ℕ → R) (lbt : LBTrig R)
    (gPrime reff_xr_rp3 : R) :
    selectStandardFunction L ap ap sc sg_dx r_point qw_r3_N lbt gPrime reff_xr_rp3 =
      convolved L ap sc r_point qw_r3_N lbt reff_xr_rp3 fun bg_prob i xyz =>
        standardBackground L ap (qw_r3_N i) (gPrime + sg_dx i) xyz bg_prob := by
  unfold selectStandardFunction standardBackground
  cases ap.background_profile <;> rfl

end

/-! ## The choice of a function -/

inductive Intrinsics
  | sse2
  | sse3
  | sse41
  | avx
deriving DecidableEq

/-- What a program is built with, what its processor has and what the user has asked for. -/
structure Dispatch where
  isX86 : Bool
  doublePrec : Bool
  forceNoIntrinsics : Bool
  forceX87 : Bool
  force : Intrinsics → Bool
  has : Intrinsics → Bool
  built : Intrinsics → Bool

inductive Chosen
  | standard
  | intrinsics (level : Intrinsics)
deriving DecidableEq

section
variable {R : Type}

def usingIntrinsicsIsAcceptable (D : Dispatch) (ap : AstronomyParameters R) : Bool :=
  D.doublePrec && !D.forceNoIntrinsics &&
    !(ap.background_profile = .slowHernquist || ap.aux_bg_profile)

/-- The highest level that can be used; a level that is forced and cannot be used fails. -/
def probabilityFunctionDispatch (D : Dispatch) (ap : AstronomyParameters R) : Option Chosen :=
  if !D.isX86 || !usingIntrinsicsIsAcceptable D ap then some .standard
  else
    let usable := fun level => D.has level && D.built level
    let levels : List Intrinsics := [.avx, .sse41, .sse3, .sse2]
    let forcingInstructions := levels.any D.force || D.forceX87
    if forcingInstructions then
      match levels.find? fun level => D.force level && usable level with
      | some level => some (.intrinsics level)
      | none => if D.forceX87 then some .standard else none
    else
      match levels.find? usable with
      | some level => some (.intrinsics level)
      | none => some .standard

end

end MilkyWay.Separation
