import MilkyWay.Foundation.Fold
import MilkyWay.Foundation.Lanes
import MilkyWay.Separation.Kernel
import Mathlib.Tactic.NormNum

/-! The probabilities at a point with two points of the convolution side by side. The
function fails where it reads an element of an array that is not there or not set. -/

namespace MilkyWay.Separation

open Foundation

section
variable {R : Type} [Zero R] [Add R] [Neg R] [Sub R] [Mul R] [Div R] [OfScientific R]
  [LT R] [DecidableLT R] [LE R] [DecidableLE R]

def mw_set1_pd (x : R) : R × R := (x, x)

def mw_load_pd (a : Cells R) (i : ℕ) : Option (R × R) := a.loadTwo i

def mw_store_pd (a : Cells R) (i : ℕ) (v : R × R) : Option (Cells R) :=
  a.storeTwo MAX_CONVOLVE i v

def mw_fma_pd (a b c : R × R) : R × R := a * b + c

def mw_fms_pd (a b c : R × R) : R × R := a * b - c

def hadd_pd_SSE2 (a : R × R) : R := a.1 + a.2

structure Locals (R : Type) where
  xs : Cells R
  ys : Cells R
  zs : Cells R
  psgt : Cells R
  psgf : Cells R

def hernquist_pd (L : Libm R) (ap : AstronomyParameters R) (xyz0 xyz1 xyz2 QW BGP : R × R) :
    R × R :=
  let tmp0 := xyz2 * mw_set1_pd ap.q_inv
  let xyz0 := xyz0 * xyz0
  let xyz1 := xyz1 * xyz1
  let tmp0 := tmp0 * tmp0
  let CylR := (xyz0 + xyz1).map L.sqrt L.sqrt
  let CylZ := xyz2.map mw_fabs mw_fabs
  let PROD := (xyz0 + (xyz1 + tmp0)).map L.sqrt L.sqrt
  let tmp1 := PROD + mw_set1_pd ap.r0
  let PBXV := mw_set1_pd ap.background_weight / (PROD * (tmp1 * (tmp1 * tmp1)))
  let PBTHICK := mw_set1_pd ap.thick_disk_weight *
    (CylR * mw_set1_pd (-0.285714286) + CylZ * mw_set1_pd (-1.428571429)).map L.exp L.exp
  mw_fma_pd QW (PBXV + PBTHICK) BGP

def maskedOne (x bound : R) : R := if bound ≤ x then 1.0 else 0.0

def BPL_pd (L : Libm R) (ap : AstronomyParameters R) (xyz0 xyz1 xyz2 QW BGP : R × R) : R × R :=
  let tmp0 := xyz2 * mw_set1_pd ap.q_inv
  let xyz0 := xyz0 * xyz0
  let xyz1 := xyz1 * xyz1
  let tmp0 := tmp0 * tmp0
  let PROD := (xyz0 + (xyz1 + tmp0)).map L.sqrt L.sqrt
  let mask := (maskedOne PROD.1 ap.r0, maskedOne PROD.2 ap.r0)
  let PBXV := mw_set1_pd ap.innerPower + mw_set1_pd ap.alpha_delta3 * mask
  let base := mw_set1_pd ap.sun_r0 / PROD
  BGP + QW * (L.powr base.1 PBXV.1, L.powr base.2 PBXV.2)

def backgroundTurn (ap : AstronomyParameters R) (lbt : LBTrig R)
    (density : R × R → R × R → R × R → R × R → R × R → R × R) (r_point qw_r3_N : Cells R)
    (p : Locals R × (R × R)) (i : ℕ) : Option (Locals R × (R × R)) := do
  let RI ← mw_load_pd r_point i
  let xyz0 := mw_fms_pd RI (mw_set1_pd lbt.lCosBCos) (mw_set1_pd ap.sun_r0)
  let xyz1 := RI * mw_set1_pd lbt.lSinBCos
  let xyz2 := RI * mw_set1_pd lbt.bSin
  let xs ← mw_store_pd p.1.xs i xyz0
  let ys ← mw_store_pd p.1.ys i xyz1
  let zs ← mw_store_pd p.1.zs i xyz2
  let QW ← mw_load_pd qw_r3_N i
  return ({ p.1 with xs, ys, zs }, density xyz0 xyz1 xyz2 QW p.2)

def backgroundLoop (ap : AstronomyParameters R) (lbt : LBTrig R)
    (density : R × R → R × R → R × R → R × R → R × R → R × R) (r_point qw_r3_N : Cells R) :
    Option (Locals R × (R × R)) :=
  (List.range ((ap.convolve + 1) / 2)).foldlM
    (fun p turn => backgroundTurn ap lbt density r_point qw_r3_N p (2 * turn))
    (⟨.unset, .unset, .unset, .unset, .unset⟩, (0, 0))

def stream_pd (sc : StreamConstants R) (xs ys zs : R × R) : R × R :=
  let xyzstr0 := xs - mw_set1_pd sc.c.x
  let xyzstr1 := ys - mw_set1_pd sc.c.y
  let xyzstr2 := zs - mw_set1_pd sc.c.z
  let x0 := mw_set1_pd sc.a.x * xyzstr0
  let x1 := mw_set1_pd sc.a.y * xyzstr1
  let x2 := mw_set1_pd sc.a.z * xyzstr2
  let dotp0 := x0 + (x1 + x2)
  let xyzstr0 := xyzstr0 - dotp0 * mw_set1_pd sc.a.x
  let xyzstr1 := xyzstr1 - dotp0 * mw_set1_pd sc.a.y
  let xyzstr2 := xyzstr2 - dotp0 * mw_set1_pd sc.a.z
  let xyz_normal := mw_set1_pd 0 - (xyzstr0 * xyzstr0 + (xyzstr1 * xyzstr1 + xyzstr2 * xyzstr2))
  xyz_normal * mw_set1_pd sc.sigma_sq2_inv

def exponentTurn (sc : StreamConstants R) (loc : Locals R) (j : ℕ) : Option (Locals R) := do
  let xs ← mw_load_pd loc.xs j
  let ys ← mw_load_pd loc.ys j
  let zs ← mw_load_pd loc.zs j
  let psgt ← mw_store_pd loc.psgt j (stream_pd sc xs ys zs)
  return { loc with psgt }

def exponentLoop (ap : AstronomyParameters R) (sc : StreamConstants R) (loc : Locals R) :
    Option (Locals R) :=
  (List.range ((ap.convolve + 1) / 2)).foldlM (fun loc turn => exponentTurn sc loc (2 * turn)) loc

def density_pd (L : Libm R) (qw_r3_N : Cells R) (loc : Locals R) (k : ℕ) : Option (Locals R) := do
  let QW ← mw_load_pd qw_r3_N k
  let exponent ← mw_load_pd loc.psgt k
  let psgf ← mw_store_pd loc.psgf k (QW * exponent.map L.exp L.exp)
  return { loc with psgf }

def densityLoop (L : Libm R) (ap : AstronomyParameters R) (qw_r3_N : Cells R) (loc : Locals R) :
    Option (Locals R) :=
  (List.range ((ap.convolve + 3) / 4)).foldlM (fun loc turn => do
    let k := 4 * turn
    let loc ← density_pd L qw_r3_N loc k
    density_pd L qw_r3_N loc (k + 2)) loc

def sumLoop (ap : AstronomyParameters R) (loc : Locals R) : Option R :=
  (List.range ap.convolve).foldlM (fun (sum : R) j => do return sum + (← loc.psgf j)) 0.0

def streamTurn (L : Libm R) (ap : AstronomyParameters R) (sc : List (StreamConstants R))
    (qw_r3_N : Cells R) (reff_xr_rp3 : R) (p : Locals R × List R) (i : ℕ) :
    Option (Locals R × List R) := do
  let loc ← exponentLoop ap (← sc[i]?) p.1
  let loc ← densityLoop L ap qw_r3_N loc
  return (loc, p.2 ++ [(← sumLoop ap loc) * reff_xr_rp3])

def probabilities_intrinsics (L : Libm R) (ap : AstronomyParameters R)
    (sc : List (StreamConstants R)) (r_point qw_r3_N : Cells R) (lbt : LBTrig R) (reff_xr_rp3 : R)
    (density : R × R → R × R → R × R → R × R → R × R → R × R) : Option (R × List R) := do
  let (loc, BGP) ← backgroundLoop ap lbt density r_point qw_r3_N
  let bg_prob := hadd_pd_SSE2 (BGP * mw_set1_pd reff_xr_rp3)
  let (_, streamTmps) ← (List.range ap.number_streams).foldlM
    (streamTurn L ap sc qw_r3_N reff_xr_rp3) (loc, [])
  return (bg_prob, streamTmps)

def probabilities_intrinsics_hernquist (L : Libm R) (ap : AstronomyParameters R)
    (sc : List (StreamConstants R)) (r_point qw_r3_N : Cells R) (lbt : LBTrig R)
    (reff_xr_rp3 : R) : Option (R × List R) :=
  probabilities_intrinsics L ap sc r_point qw_r3_N lbt reff_xr_rp3 (hernquist_pd L ap)

def probabilities_intrinsics_BPL (L : Libm R) (ap : AstronomyParameters R)
    (sc : List (StreamConstants R)) (r_point qw_r3_N : Cells R) (lbt : LBTrig R)
    (reff_xr_rp3 : R) : Option (R × List R) :=
  probabilities_intrinsics L ap sc r_point qw_r3_N lbt reff_xr_rp3 (BPL_pd L ap)

/-- The function that is initialized for vectors. -/
def initProbabilities_SSE2 (L : Libm R) (ap : AstronomyParameters R) :
    List (StreamConstants R) → Cells R → Cells R → LBTrig R → R → Option (R × List R) :=
  if ap.background_profile = .fastHernquist then probabilities_intrinsics_hernquist L ap
  else probabilities_intrinsics_BPL L ap

end

/-! ## The loops -/

theorem zero_literal {R : Type} [DivisionRing R] : (0.0 : R) = 0 :=
  (congrArg (fun q : ℚ≥0 => (q : R)) (by norm_num : (0.0 : ℚ≥0) = 0)).trans NNRat.cast_zero

section
variable {R : Type} [Field R] {L : Libm R} {ap : AstronomyParameters R} {lbt : LBTrig R}
  {r_point : ℕ → R} (qw_r3_N : ℕ → R) {h : ℕ}

def streamExponent (sc : StreamConstants R) (xyz : Vec3 R) : R :=
  let xyzs := xyz - sc.c
  let dotted := mw_dotv sc.a xyzs
  let xyzs := xyzs - dotted • sc.a
  let xyz_normal := -mw_sqrv xyzs
  xyz_normal * sc.sigma_sq2_inv

theorem stream_pd_eq (sc : StreamConstants R) (P Q : Vec3 R) :
    stream_pd sc (P.x, Q.x) (P.y, Q.y) (P.z, Q.z) = (streamExponent sc P, streamExponent sc Q) := by
  simp only [stream_pd, streamExponent, mw_set1_pd, mw_dotv, mw_sqrv, Prod.mk_mul_mk,
    Prod.mk_add_mk, Prod.mk_sub_mk, Vec3.sub_x, Vec3.sub_y, Vec3.sub_z, Vec3.smul_x, Vec3.smul_y,
    Vec3.smul_z]
  rw [Prod.mk.injEq]
  constructor <;> ring

/-- The coordinates before a place are those of the points. -/
def Locals.Set (xyz : ℕ → Vec3 R) (n : ℕ) (loc : Locals R) : Prop :=
  loc.xs.Holds (fun i => (xyz i).x) n ∧ loc.ys.Holds (fun i => (xyz i).y) n ∧
    loc.zs.Holds (fun i => (xyz i).z) n

def pointAt (ap : AstronomyParameters R) (lbt : LBTrig R) (r_point : ℕ → R) (i : ℕ) : Vec3 R :=
  lbr2xyz_2 ap (r_point i) lbt

theorem exponentLoop_eq {xyz : ℕ → Vec3 R} {loc : Locals R} (even : ap.convolve = 2 * h)
    (max : ap.convolve ≤ MAX_CONVOLVE) (set : loc.Set xyz ap.convolve) (sc : StreamConstants R) :
    ∃ loc', exponentLoop ap sc loc = some loc' ∧ loc'.Set xyz ap.convolve ∧
      loc'.psgt.Holds (fun i => streamExponent sc (xyz i)) ap.convolve := by
  let I : ℕ → Locals R → Prop := fun m loc => loc.Set xyz ap.convolve ∧
    loc.psgt.Holds (fun i => streamExponent sc (xyz i)) (2 * m)
  have step : ∀ m loc, m < h → I m loc →
      ∃ loc', exponentTurn sc loc (2 * m) = some loc' ∧ I (m + 1) loc' := by
    rintro m loc before ⟨⟨xs, ys, zs⟩, psgt⟩
    have inside : 2 * m + 1 < ap.convolve := by omega
    obtain ⟨psgt', store, holds⟩ := Cells.storeTwo_holds (inside.trans_le max) psgt
    refine ⟨{ loc with psgt := psgt' }, ?_, ⟨xs, ys, zs⟩, holds⟩
    rw [exponentTurn, mw_load_pd, mw_load_pd, mw_load_pd, Cells.loadTwo_of_holds xs inside,
      Cells.loadTwo_of_holds ys inside, Cells.loadTwo_of_holds zs inside]
    simp only [Option.bind_eq_bind, Option.bind_some, stream_pd_eq, mw_store_pd]
    rw [store]
    rfl
  obtain ⟨loc', run, set', psgt⟩ := foldlM_range_some I ⟨set, Cells.holds_zero⟩ step
  refine ⟨loc', ?_, set', even ▸ psgt⟩
  rw [exponentLoop, show (ap.convolve + 1) / 2 = h by omega]
  exact run

theorem density_pd_eq {xyz : ℕ → Vec3 R} {exponent : ℕ → R} {loc : Locals R} {k : ℕ}
    (max : ap.convolve ≤ MAX_CONVOLVE) (inside : k + 1 < ap.convolve)
    (set : loc.Set xyz ap.convolve) (psgt : loc.psgt.Holds exponent ap.convolve)
    (psgf : loc.psgf.Holds (fun i => qw_r3_N i * L.exp (exponent i)) k) :
    ∃ loc', density_pd L (.ofLength ap.convolve qw_r3_N) loc k = some loc' ∧
      loc'.Set xyz ap.convolve ∧ loc'.psgt.Holds exponent ap.convolve ∧
      loc'.psgf.Holds (fun i => qw_r3_N i * L.exp (exponent i)) (k + 2) := by
  obtain ⟨psgf', store, holds⟩ := Cells.storeTwo_holds (inside.trans_le max) psgf
  refine ⟨{ loc with psgf := psgf' }, ?_, set, psgt, holds⟩
  rw [density_pd, mw_load_pd, mw_load_pd, Cells.loadTwo_of_holds psgt inside,
    Cells.loadTwo_of_holds (Cells.holds_ofLength _ _) inside]
  simp only [Option.bind_eq_bind, Option.bind_some, mw_store_pd, Prod.map, Prod.mk_mul_mk]
  rw [store]
  rfl

theorem densityLoop_eq {xyz : ℕ → Vec3 R} {exponent : ℕ → R} {loc : Locals R} {c : ℕ}
    (four : ap.convolve = 4 * c) (max : ap.convolve ≤ MAX_CONVOLVE)
    (set : loc.Set xyz ap.convolve) (psgt : loc.psgt.Holds exponent ap.convolve) :
    ∃ loc', densityLoop L ap (.ofLength ap.convolve qw_r3_N) loc = some loc' ∧
      loc'.Set xyz ap.convolve ∧
      loc'.psgf.Holds (fun i => qw_r3_N i * L.exp (exponent i)) ap.convolve := by
  let I : ℕ → Locals R → Prop := fun m loc => loc.Set xyz ap.convolve ∧
    loc.psgt.Holds exponent ap.convolve ∧
    loc.psgf.Holds (fun i => qw_r3_N i * L.exp (exponent i)) (4 * m)
  have step : ∀ m loc, m < c → I m loc → ∃ loc', (do
      let loc ← density_pd L (.ofLength ap.convolve qw_r3_N) loc (4 * m)
      density_pd L (.ofLength ap.convolve qw_r3_N) loc (4 * m + 2)) = some loc' ∧
        I (m + 1) loc' := by
    rintro m loc before ⟨set, psgt, psgf⟩
    obtain ⟨loc₁, first, set₁, psgt₁, psgf₁⟩ :=
      density_pd_eq (L := L) qw_r3_N max (show 4 * m + 1 < ap.convolve by omega) set psgt psgf
    obtain ⟨loc₂, second, holds⟩ :=
      density_pd_eq qw_r3_N max (show 4 * m + 2 + 1 < ap.convolve by omega) set₁ psgt₁ psgf₁
    refine ⟨loc₂, ?_, holds⟩
    rw [first]
    exact second
  obtain ⟨loc', run, set', -, psgf⟩ := foldlM_range_some I ⟨set, psgt, Cells.holds_zero⟩ step
  refine ⟨loc', ?_, set', four ▸ psgf⟩
  rw [densityLoop, show (ap.convolve + 3) / 4 = c by omega]
  exact run

theorem densityLoop_none {c : ℕ} (two : ap.convolve = 4 * c + 2) (loc : Locals R) :
    densityLoop L ap (.ofLength ap.convolve qw_r3_N) loc = none := by
  refine foldlM_range_none (show c < (ap.convolve + 3) / 4 by omega) (fun loc => ?_) loc
  have absent : mw_load_pd (Cells.ofLength ap.convolve qw_r3_N) (4 * c + 2) = none :=
    Cells.loadTwo_none (if_neg (by omega))
  have last : ∀ loc, density_pd L (.ofLength ap.convolve qw_r3_N) loc (4 * c + 2) = none := by
    intro loc
    rw [density_pd, absent]
    rfl
  simp only [last, Option.bind_eq_bind, Option.bind_fun_none]

theorem sumLoop_eq {f : ℕ → R} {loc : Locals R} (psgf : loc.psgf.Holds f ap.convolve) :
    sumLoop ap loc = some (∑ i ∈ Finset.range ap.convolve, f i) := by
  obtain ⟨sum, run, rfl⟩ := foldlM_range_some (n := ap.convolve) (b := (0.0 : R))
    (f := fun (sum : R) j => do return sum + (← loc.psgf j))
    (fun m sum => sum = ∑ i ∈ Finset.range m, f i) zero_literal fun m sum before sums => by
      refine ⟨sum + f m, ?_, ?_⟩
      · rw [psgf m before]
        rfl
      · rw [sums, Finset.sum_range_succ]
  exact run

def streamTotal (L : Libm R) (ap : AstronomyParameters R) (qw_r3_N : ℕ → R) (xyz : ℕ → Vec3 R)
    (reff_xr_rp3 : R) (sc : StreamConstants R) : R :=
  (∑ i ∈ Finset.range ap.convolve, qw_r3_N i * streamIncrement L sc (xyz i)) * reff_xr_rp3

theorem streamLoop_eq {xyz : ℕ → Vec3 R} {loc : Locals R} {c : ℕ}
    {sc : List (StreamConstants R)} (streams : sc.length = ap.number_streams)
    (four : ap.convolve = 4 * c) (max : ap.convolve ≤ MAX_CONVOLVE)
    (set : loc.Set xyz ap.convolve) (reff_xr_rp3 : R) :
    ∃ loc', (List.range ap.number_streams).foldlM
      (streamTurn L ap sc (.ofLength ap.convolve qw_r3_N) reff_xr_rp3) (loc, []) =
        some (loc', sc.map (streamTotal L ap qw_r3_N xyz reff_xr_rp3)) := by
  let I : ℕ → Locals R × List R → Prop := fun m p => p.1.Set xyz ap.convolve ∧
    p.2 = (sc.take m).map (streamTotal L ap qw_r3_N xyz reff_xr_rp3)
  have step : ∀ m p, m < ap.number_streams → I m p → ∃ p', streamTurn L ap sc
      (.ofLength ap.convolve qw_r3_N) reff_xr_rp3 p m = some p' ∧ I (m + 1) p' := by
    rintro m ⟨loc, done⟩ before ⟨set, rfl⟩
    have lt : m < sc.length := streams ▸ before
    obtain ⟨loc₁, exponents, set₁, psgt⟩ :=
      exponentLoop_eq (h := 2 * c) (by omega) max set sc[m]
    obtain ⟨loc₂, densities, set₂, psgf⟩ := densityLoop_eq (L := L) qw_r3_N four max set₁ psgt
    let total := streamTotal L ap qw_r3_N xyz reff_xr_rp3
    refine ⟨(loc₂, (sc.take m).map total ++ [total sc[m]]), ?_, set₂, ?_⟩
    · rw [streamTurn, List.getElem?_eq_getElem lt]
      simp only [Option.bind_eq_bind, Option.bind_some, exponents, densities, sumLoop_eq psgf]
      rfl
    · rw [List.take_succ_eq_append_getElem lt, List.map_append]
      rfl
  have start : I 0 (loc, []) := ⟨set, rfl⟩
  obtain ⟨⟨loc', total⟩, run, -, rfl⟩ := foldlM_range_some I start step
  refine ⟨loc', ?_⟩
  rw [run, ← streams, List.take_length]

theorem convolved_eq_sum {sc : List (StreamConstants R)} (streams : sc.length = ap.number_streams)
    {background : R → ℕ → Vec3 R → R} {term : ℕ → Vec3 R → R}
    (adds : ∀ bg_prob i xyz, background bg_prob i xyz = bg_prob + term i xyz)
    (reff_xr_rp3 : R) :
    convolved L ap sc r_point qw_r3_N lbt reff_xr_rp3 background =
      ((∑ i ∈ Finset.range ap.convolve, term i (pointAt ap lbt r_point i)) * reff_xr_rp3,
        sc.map (streamTotal L ap qw_r3_N (pointAt ap lbt r_point) reff_xr_rp3)) := by
  have sums : ∀ n, (List.range n).foldl (fun probs i =>
      (background probs.1 i (lbr2xyz_2 ap (r_point i) lbt),
        streamSums L probs.2 sc (lbr2xyz_2 ap (r_point i) lbt) (qw_r3_N i)))
      ((0.0 : R), zero_st_probs ap.number_streams) =
      (∑ i ∈ Finset.range n, term i (pointAt ap lbt r_point i),
        sc.map fun s => ∑ i ∈ Finset.range n,
          qw_r3_N i * streamIncrement L s (pointAt ap lbt r_point i)) := by
    intro n
    induction n with
    | zero =>
        rw [zero_literal, zero_st_probs, ← streams, zero_literal]
        simp
    | succ n ih =>
        rw [List.range_succ, List.foldl_append, ih]
        simp only [List.foldl_cons, List.foldl_nil, adds, Finset.sum_range_succ, streamSums,
          List.zipWith_map_left, List.zipWith_self]
        rfl
  rw [convolved, sums]
  simp only [List.map_map]
  rfl

theorem probabilities_intrinsics_none {sc : List (StreamConstants R)} {c : ℕ}
    {density : R × R → R × R → R × R → R × R → R × R → R × R} (r_point : Cells R)
    (streams : ap.number_streams ≠ 0) (two : ap.convolve = 4 * c + 2) (reff_xr_rp3 : R) :
    probabilities_intrinsics L ap sc r_point (.ofLength ap.convolve qw_r3_N) lbt reff_xr_rp3
      density = none := by
  have turn : ∀ p, streamTurn L ap sc (.ofLength ap.convolve qw_r3_N) reff_xr_rp3 p 0 = none := by
    intro p
    simp only [streamTurn, densityLoop_none qw_r3_N two, Option.bind_eq_bind, Option.bind_none,
      Option.bind_fun_none]
  simp only [probabilities_intrinsics, foldlM_range_none (Nat.pos_of_ne_zero streams) turn,
    Option.bind_eq_bind, Option.bind_none, Option.bind_fun_none]

/-! ## Comparison with one point at a time -/

theorem rg_eq (squared : ap.q_inv_sqr = sqr ap.q_inv) (xyz : Vec3 R) :
    L.sqrt (xyz.x * xyz.x + (xyz.y * xyz.y + xyz.z * ap.q_inv * (xyz.z * ap.q_inv))) =
      rg_calc L ap xyz := by
  rw [rg_calc, squared]
  simp only [sqr]
  ring_nf

variable [LinearOrder R]

def standardTerm (L : Libm R) (ap : AstronomyParameters R) (qw_r3_N : R) (xyz : Vec3 R) : R :=
  standardBackground L ap qw_r3_N 0 xyz 0

theorem standardBackground_eq (fast : ap.background_profile ≠ .slowHernquist)
    (aux : ap.aux_bg_profile = false) (qw_r3_N g : R) (xyz : Vec3 R) (bg_prob : R) :
    standardBackground L ap qw_r3_N g xyz bg_prob = bg_prob + standardTerm L ap qw_r3_N xyz := by
  unfold standardTerm standardBackground
  cases profile : ap.background_profile with
  | slowHernquist => exact absurd profile fast
  | fastHernquist => simp only [aux, Bool.false_eq_true, if_false, zero_add]
  | brokenPowerLaw => simp only [zero_add]

theorem hernquist_pd_eq (profile : ap.background_profile = .fastHernquist)
    (aux : ap.aux_bg_profile = false) (squared : ap.q_inv_sqr = sqr ap.q_inv) (P Q : Vec3 R)
    (q q' b b' : R) :
    hernquist_pd L ap (P.x, Q.x) (P.y, Q.y) (P.z, Q.z) (q, q') (b, b') =
      (b + standardTerm L ap q P, b' + standardTerm L ap q' Q) := by
  have lane : ∀ (xyz : Vec3 R) (q b : R), q * (ap.background_weight / (rg_calc L ap xyz *
        ((rg_calc L ap xyz + ap.r0) * ((rg_calc L ap xyz + ap.r0) *
          (rg_calc L ap xyz + ap.r0)))) + ap.thick_disk_weight * L.exp
        (L.sqrt (xyz.x * xyz.x + xyz.y * xyz.y) * -0.285714286 + mw_fabs xyz.z * -1.428571429)) +
      b = b + standardTerm L ap q xyz := by
    intro xyz q b
    rw [standardTerm, standardBackground]
    simp only [profile, aux, hernquist_prob_fast, disk_prob_thick, xyz2cyl, sqr, cube,
      Bool.false_eq_true, if_false]
    ring
  simp only [hernquist_pd, mw_fma_pd, mw_set1_pd, Prod.mk_mul_mk, Prod.mk_add_mk, Prod.map,
    Prod.mk_div_mk]
  rw [rg_eq squared P, rg_eq squared Q, lane, lane]

theorem BPL_pd_eq (profile : ap.background_profile = .brokenPowerLaw)
    (squared : ap.q_inv_sqr = sqr ap.q_inv) (P Q : Vec3 R) (q q' b b' : R) :
    BPL_pd L ap (P.x, Q.x) (P.y, Q.y) (P.z, Q.z) (q, q') (b, b') =
      (b + standardTerm L ap q P, b' + standardTerm L ap q' Q) := by
  have lane : ∀ (xyz : Vec3 R) (q b : R), b + q * L.powr (ap.sun_r0 / rg_calc L ap xyz)
      (ap.innerPower + ap.alpha_delta3 * maskedOne (rg_calc L ap xyz) ap.r0) =
      b + standardTerm L ap q xyz := by
    intro xyz q b
    rw [standardTerm, standardBackground]
    simp only [profile, broken_power_law_prob, maskedOne, zero_add, mul_comm ap.alpha_delta3]
  simp only [BPL_pd, mw_set1_pd, Prod.mk_mul_mk, Prod.mk_add_mk, Prod.map, Prod.mk_div_mk]
  rw [rg_eq squared P, rg_eq squared Q, lane, lane]

theorem initProbabilities_SSE2_eq (fast : ap.background_profile ≠ .slowHernquist)
    (aux : ap.aux_bg_profile = false) (squared : ap.q_inv_sqr = sqr ap.q_inv) :
    ∃ density, (∀ (P Q : Vec3 R) (q q' b b' : R),
        density (P.x, Q.x) (P.y, Q.y) (P.z, Q.z) (q, q') (b, b') =
          (b + standardTerm L ap q P, b' + standardTerm L ap q' Q)) ∧
      ∀ sc r_point qw_r3_N lbt reff_xr_rp3,
        initProbabilities_SSE2 L ap sc r_point qw_r3_N lbt reff_xr_rp3 =
          probabilities_intrinsics L ap sc r_point qw_r3_N lbt reff_xr_rp3 density := by
  cases profile : ap.background_profile with
  | slowHernquist => exact absurd profile fast
  | fastHernquist =>
      refine ⟨hernquist_pd L ap, hernquist_pd_eq profile aux squared, fun sc r q lbt reff => ?_⟩
      rw [initProbabilities_SSE2, if_pos profile]
      rfl
  | brokenPowerLaw =>
      refine ⟨BPL_pd L ap, BPL_pd_eq profile squared, fun sc r q lbt reff => ?_⟩
      rw [initProbabilities_SSE2, if_neg (by rw [profile]; decide)]
      rfl

theorem backgroundTurn_eq {density : R × R → R × R → R × R → R × R → R × R → R × R}
    (lanes : ∀ (P Q : Vec3 R) (q q' b b' : R),
      density (P.x, Q.x) (P.y, Q.y) (P.z, Q.z) (q, q') (b, b') =
        (b + standardTerm L ap q P, b' + standardTerm L ap q' Q))
    (sun : ap.m_sun_r0 = -ap.sun_r0) (max : ap.convolve ≤ MAX_CONVOLVE) {loc : Locals R} {i : ℕ}
    (inside : i + 1 < ap.convolve) (set : loc.Set (pointAt ap lbt r_point) i) (b b' : R) :
    ∃ loc', backgroundTurn ap lbt density (.ofLength ap.convolve r_point)
        (.ofLength ap.convolve qw_r3_N) (loc, (b, b')) i =
          some (loc', (b + standardTerm L ap (qw_r3_N i) (pointAt ap lbt r_point i),
            b' + standardTerm L ap (qw_r3_N (i + 1)) (pointAt ap lbt r_point (i + 1)))) ∧
      loc'.Set (pointAt ap lbt r_point) (i + 2) := by
  have x : mw_fms_pd (r_point i, r_point (i + 1)) (mw_set1_pd lbt.lCosBCos)
      (mw_set1_pd ap.sun_r0) =
      ((pointAt ap lbt r_point i).x, (pointAt ap lbt r_point (i + 1)).x) := by
    simp only [mw_fms_pd, mw_set1_pd, Prod.mk_mul_mk, Prod.mk_sub_mk, pointAt, lbr2xyz_2, sun]
    rw [sub_eq_add_neg, sub_eq_add_neg]
  obtain ⟨xs, ys, zs⟩ := set
  obtain ⟨xs', storeX, holdsX⟩ := Cells.storeTwo_holds (inside.trans_le max) xs
  obtain ⟨ys', storeY, holdsY⟩ := Cells.storeTwo_holds (inside.trans_le max) ys
  obtain ⟨zs', storeZ, holdsZ⟩ := Cells.storeTwo_holds (inside.trans_le max) zs
  refine ⟨{ loc with xs := xs', ys := ys', zs := zs' }, ?_, holdsX, holdsY, holdsZ⟩
  rw [backgroundTurn, mw_load_pd, mw_load_pd,
    Cells.loadTwo_of_holds (Cells.holds_ofLength _ _) inside,
    Cells.loadTwo_of_holds (Cells.holds_ofLength _ _) inside]
  simp only [Option.bind_eq_bind, Option.bind_some, x, mw_store_pd]
  rw [storeX]
  simp only [Option.bind_some]
  have y : (r_point i, r_point (i + 1)) * mw_set1_pd lbt.lSinBCos =
      ((pointAt ap lbt r_point i).y, (pointAt ap lbt r_point (i + 1)).y) := rfl
  have z : (r_point i, r_point (i + 1)) * mw_set1_pd lbt.bSin =
      ((pointAt ap lbt r_point i).z, (pointAt ap lbt r_point (i + 1)).z) := rfl
  rw [y, z, storeY]
  simp only [Option.bind_some]
  rw [storeZ, lanes]
  rfl

theorem backgroundLoop_eq {density : R × R → R × R → R × R → R × R → R × R → R × R}
    (lanes : ∀ (P Q : Vec3 R) (q q' b b' : R),
      density (P.x, Q.x) (P.y, Q.y) (P.z, Q.z) (q, q') (b, b') =
        (b + standardTerm L ap q P, b' + standardTerm L ap q' Q))
    (sun : ap.m_sun_r0 = -ap.sun_r0) (even : ap.convolve = 2 * h)
    (max : ap.convolve ≤ MAX_CONVOLVE) :
    ∃ loc BGP, backgroundLoop ap lbt density (.ofLength ap.convolve r_point)
        (.ofLength ap.convolve qw_r3_N) = some (loc, BGP) ∧
      loc.Set (pointAt ap lbt r_point) ap.convolve ∧
      BGP.1 + BGP.2 = ∑ i ∈ Finset.range ap.convolve,
        standardTerm L ap (qw_r3_N i) (pointAt ap lbt r_point i) := by
  let term := fun i => standardTerm L ap (qw_r3_N i) (pointAt ap lbt r_point i)
  let I : ℕ → Locals R × (R × R) → Prop := fun m p => p.1.Set (pointAt ap lbt r_point) (2 * m) ∧
    p.2 = (∑ i ∈ Finset.range m, term (2 * i), ∑ i ∈ Finset.range m, term (2 * i + 1))
  have start : I 0 (⟨.unset, .unset, .unset, .unset, .unset⟩, (0, 0)) :=
    ⟨⟨Cells.holds_zero, Cells.holds_zero, Cells.holds_zero⟩, by simp⟩
  have step : ∀ m p, m < h → I m p → ∃ p', backgroundTurn ap lbt density
      (.ofLength ap.convolve r_point) (.ofLength ap.convolve qw_r3_N) p (2 * m) = some p' ∧
      I (m + 1) p' := by
    rintro m ⟨loc, b, b'⟩ before ⟨set, sums⟩
    obtain ⟨loc', turn, set'⟩ := backgroundTurn_eq qw_r3_N lanes sun max
      (show 2 * m + 1 < ap.convolve by omega) set b b'
    obtain ⟨rfl, rfl⟩ := Prod.mk.inj sums
    refine ⟨_, turn, set', ?_⟩
    rw [Finset.sum_range_succ, Finset.sum_range_succ]
  obtain ⟨⟨loc, b, b'⟩, run, set, sums⟩ := foldlM_range_some I start step
  refine ⟨loc, (b, b'), ?_, even ▸ set, ?_⟩
  · rw [backgroundLoop, show (ap.convolve + 1) / 2 = h by omega]
    exact run
  · rw [show (b, b') = _ from sums, even]
    exact sum_two_lanes term h

theorem probabilities_intrinsics_eq {sc : List (StreamConstants R)} {c : ℕ}
    {density : R × R → R × R → R × R → R × R → R × R → R × R}
    (lanes : ∀ (P Q : Vec3 R) (q q' b b' : R),
      density (P.x, Q.x) (P.y, Q.y) (P.z, Q.z) (q, q') (b, b') =
        (b + standardTerm L ap q P, b' + standardTerm L ap q' Q))
    (streams : sc.length = ap.number_streams) (sun : ap.m_sun_r0 = -ap.sun_r0)
    (even : ap.convolve = 2 * h) (max : ap.convolve ≤ MAX_CONVOLVE)
    (whole : ap.number_streams = 0 ∨ ap.convolve = 4 * c) (reff_xr_rp3 : R) :
    probabilities_intrinsics L ap sc (.ofLength ap.convolve r_point)
      (.ofLength ap.convolve qw_r3_N) lbt reff_xr_rp3 density =
      some ((∑ i ∈ Finset.range ap.convolve,
          standardTerm L ap (qw_r3_N i) (pointAt ap lbt r_point i)) * reff_xr_rp3,
        sc.map (streamTotal L ap qw_r3_N (pointAt ap lbt r_point) reff_xr_rp3)) := by
  obtain ⟨loc, BGP, background, set, total⟩ := backgroundLoop_eq qw_r3_N lanes sun even max
  have loop : ∃ loc', (List.range ap.number_streams).foldlM
      (streamTurn L ap sc (.ofLength ap.convolve qw_r3_N) reff_xr_rp3) (loc, []) =
        some (loc', sc.map (streamTotal L ap qw_r3_N (pointAt ap lbt r_point) reff_xr_rp3)) := by
    rcases whole with none | four
    · rw [none] at streams ⊢
      rw [List.eq_nil_of_length_eq_zero streams]
      exact ⟨loc, rfl⟩
    · exact streamLoop_eq qw_r3_N streams four max set reff_xr_rp3
  obtain ⟨loc', loop⟩ := loop
  rw [probabilities_intrinsics, background]
  simp only [Option.bind_eq_bind, Option.bind_some, loop, hadd_pd_SSE2, mw_set1_pd, Prod.fst_mul,
    Prod.snd_mul, ← add_mul, total]
  rfl

end

theorem dispatched_profile {R : Type} {D : Dispatch} {ap : AstronomyParameters R}
    {level : Intrinsics}
    (dispatched : probabilityFunctionDispatch D ap = some (.intrinsics level)) :
    ap.background_profile ≠ .slowHernquist ∧ ap.aux_bg_profile = false := by
  have acceptable : usingIntrinsicsIsAcceptable D ap = true := by
    by_contra unacceptable
    rw [probabilityFunctionDispatch, if_pos (by simp [unacceptable])] at dispatched
    cases dispatched
  have both : (D.doublePrec = true ∧ D.forceNoIntrinsics = false) ∧
      ap.background_profile ≠ .slowHernquist ∧ ap.aux_bg_profile = false := by
    simpa [usingIntrinsicsIsAcceptable] using acceptable
  exact both.2

/-- The function for vectors gives what the standard one gives and reads only what is there
where there are no streams or the convolution is a multiple of four. -/
theorem initProbabilities_SSE2_eq_some_iff {R : Type} [Field R] [LinearOrder R] {L : Libm R}
    {D : Dispatch} {ap : AstronomyParameters R} {sc : List (StreamConstants R)}
    (dispatched : probabilityFunctionDispatch D ap = some (.intrinsics .sse2))
    (streams : sc.length = ap.number_streams) (sun : ap.m_sun_r0 = -ap.sun_r0)
    (squared : ap.q_inv_sqr = sqr ap.q_inv) (even : ap.convolve % 2 = 0)
    (max : ap.convolve ≤ MAX_CONVOLVE) (sg_dx r_point qw_r3_N : ℕ → R) (lbt : LBTrig R)
    (gPrime reff_xr_rp3 : R) :
    initProbabilities_SSE2 L ap sc (.ofLength ap.convolve r_point)
        (.ofLength ap.convolve qw_r3_N) lbt reff_xr_rp3 =
      some (selectStandardFunction L ap ap sc sg_dx r_point qw_r3_N lbt gPrime reff_xr_rp3) ↔
      ap.number_streams = 0 ∨ 4 ∣ ap.convolve := by
  obtain ⟨fast, aux⟩ := dispatched_profile dispatched
  obtain ⟨density, lanes, init⟩ := initProbabilities_SSE2_eq (L := L) fast aux squared
  have half : ap.convolve = 2 * (ap.convolve / 2) := by omega
  rw [init, selectStandardFunction_eq, convolved_eq_sum qw_r3_N streams fun bg_prob i xyz =>
    standardBackground_eq fast aux (qw_r3_N i) (gPrime + sg_dx i) xyz bg_prob]
  constructor
  · intro same
    by_contra neither
    rw [not_or] at neither
    have two : ap.convolve = 4 * (ap.convolve / 4) + 2 := by omega
    rw [probabilities_intrinsics_none qw_r3_N _ neither.1 two] at same
    cases same
  · intro whole
    exact probabilities_intrinsics_eq qw_r3_N lanes streams sun half max
      (whole.imp_right fun four => (Nat.mul_div_cancel' four).symm) reff_xr_rp3

/-! ## A convolution that is not a multiple of four -/

/-- A program and a processor with the first vector instructions and no others. -/
def onlySse2 : Dispatch :=
  ⟨true, true, false, false, fun _ => false, (· = .sse2), fun _ => true⟩

def oneStream : List (StreamConstants ℚ) := [⟨⟨0, 0, 1⟩, ⟨1, 0, 0⟩, 1, true⟩]

/-- A Hernquist profile with a stream. -/
def withStream (convolve : ℕ) : AstronomyParameters ℚ :=
  { halfHernquist with aux_bg_profile := false, convolve, number_streams := 1 }

theorem initProbabilities_SSE2_eq_some_iff_withStream :
    initProbabilities_SSE2 rational.L (withStream 4) oneStream (.ofLength 4 fun i => i + 1)
        (.ofLength 4 fun i => i) ⟨1, 0, 1⟩ 1 =
      some (selectStandardFunction rational.L (withStream 4) (withStream 4) oneStream
        (fun _ => 0) (fun i => i + 1) (fun i => i) ⟨1, 0, 1⟩ 1 1) ↔
      (withStream 4).number_streams = 0 ∨ 4 ∣ (withStream 4).convolve :=
  have dispatched : probabilityFunctionDispatch onlySse2 (withStream 4) =
      some (.intrinsics .sse2) := by decide +kernel
  initProbabilities_SSE2_eq_some_iff dispatched rfl (by decide +kernel) (by decide +kernel)
    (by decide) (by decide) (fun _ => 0) (fun i => (i : ℚ) + 1) (fun i => (i : ℚ)) ⟨1, 0, 1⟩ 1 1

theorem initProbabilities_SSE2_ne_some :
    probabilityFunctionDispatch onlySse2 (withStream 2) = some (.intrinsics .sse2) ∧
      ¬ initProbabilities_SSE2 rational.L (withStream 2) oneStream (.ofLength 2 fun i => i + 1)
          (.ofLength 2 fun i => i) ⟨1, 0, 1⟩ 1 =
        some (selectStandardFunction rational.L (withStream 2) (withStream 2) oneStream
          (fun _ => 0) (fun i => i + 1) (fun i => i) ⟨1, 0, 1⟩ 1 1) := by
  decide +kernel

end MilkyWay.Separation
