import MilkyWay.Separation.Integrals
import Mathlib.Algebra.BigOperators.Ring.Finset
import Mathlib.Algebra.Order.Ring.Rat
import Mathlib.Tactic.Tauto

/-! The kernel for the probabilities: the constants it is compiled with, the buffers it is
given and what a work-item adds to its sums. It is compared with the function on the
processor for the same parameters. -/

namespace MilkyWay.Separation

open Foundation

structure CompilerFlags (R : Type) where
  BACKGROUND_PROFILE : BackgroundProfile
  AUX_BG_PROFILE : Bool
  NSTREAM : ℕ
  CONVOLVE : ℕ
  R0 : R
  SUN_R0 : R
  Q_INV_SQR : R
  BG_A : R
  BG_B : R
  BG_C : R
  BACKGROUND_WEIGHT : R
  THICK_DISK_WEIGHT : R
  INNERPOWER : R
  ALPHA_DELTA_3 : R

def getCompilerFlags {R : Type} (ap : AstronomyParameters R) : CompilerFlags R where
  BACKGROUND_PROFILE := ap.background_profile
  AUX_BG_PROFILE := ap.aux_bg_profile
  NSTREAM := ap.number_streams
  CONVOLVE := ap.convolve
  R0 := ap.r0
  SUN_R0 := ap.sun_r0
  Q_INV_SQR := ap.q_inv_sqr
  BG_A := ap.bg_a
  BG_B := ap.bg_b
  BG_C := ap.bg_c
  BACKGROUND_WEIGHT := ap.background_weight
  THICK_DISK_WEIGHT := ap.thick_disk_weight
  INNERPOWER := ap.innerPower
  ALPHA_DELTA_3 := ap.alpha_delta3

structure LTrigPair (R : Type) where
  lCosBCos : R
  lSinBCos : R

structure RCBuf (R : Type) where
  irv_reff_xr_rp3 : R
  gPrime : R

structure Buffers (R : Type) where
  rc : ℕ → RCBuf R
  rPts : ℕ → RPoints R
  lTrig : ℕ → LTrigPair R
  bSin : ℕ → R
  sc : ℕ → R
  sg_dx : ℕ → R

structure SC (R : Type) where
  x_a : R
  x_c : R
  y_a : R
  y_c : R
  z_a : R
  z_c : R
  sigma_sq2_inv : R
  pad : R

def SC.read {R : Type} (buf : ℕ → R) (j : ℕ) : SC R :=
  ⟨buf (8 * j + 0), buf (8 * j + 1), buf (8 * j + 2), buf (8 * j + 3), buf (8 * j + 4),
    buf (8 * j + 5), buf (8 * j + 6), buf (8 * j + 7)⟩

section
variable {R : Type} [Zero R] [Add R] [Neg R] [Sub R] [Mul R] [Div R] [OfScientific R] [NatCast R]
  [IntCast R] [LT R] [DecidableLT R] [LE R] [DecidableLE R]

/-! ## The buffers -/

def packSC (sc : StreamConstants R) : List R :=
  [sc.a.x, sc.c.x, sc.a.y, sc.c.y, sc.a.z, sc.c.z, sc.sigma_sq2_inv, 0.0]

def createSCBuffer (sc : List (StreamConstants R)) : ℕ → R :=
  filled 8 fun i k => (sc[i]?.elim [] packSC).getD k 0

/-- The directions of an area: a row for each step in nu. -/
def precalculateLBTrig (L : Libm R) (ap : AstronomyParameters R) (ia : IntegralArea R) :
    ℕ → LBTrig R :=
  filled ia.mu_steps fun i j =>
    let nuid := calcNuStep L ia i
    let mu := ia.mu_min + ((j : R) + 0.5) * ia.mu_step_size
    lb_trig L (gc2lb L ap.wedge mu nuid.nu)

def createSeparationBuffers (L : Libm R) (sg : StreamGauss R) (ap : AstronomyParameters R)
    (sc : List (StreamConstants R)) (ia : IntegralArea R) : Buffers R :=
  let (r_pts, rc) := precalculateRPts L ap ia sg
  let lbts := precalculateLBTrig L ap ia
  { rc := fun i => ⟨(rc i).irv_reff_xr_rp3, (rc i).gPrime⟩
    rPts := r_pts
    lTrig := fun idx => ⟨(lbts idx).lCosBCos, (lbts idx).lSinBCos⟩
    bSin := fun idx => (lbts idx).bSin
    sc := createSCBuffer sc
    sg_dx := sg.dx }

/-! ## The kernel -/

def mad (a b c : R) : R := a * b + c

def auxProbCL (F : CompilerFlags R) (r_in_mag : R) : R :=
  mad F.BG_A (sqr r_in_mag) (mad F.BG_B r_in_mag F.BG_C)

def prob_thick_disk (L : Libm R) (rz : R × R) : R :=
  let ls := -0.285714286
  let hs := -1.428571429
  L.exp (mad rz.1 ls (mw_fabs rz.2 * hs))

def backgroundCL (L : Libm R) (F : CompilerFlags R) (rPt : RPoints R) (g x y z bg_prob : R) : R :=
  let tmp := x * x
  let tmp := mad y y tmp
  let tmp := mad F.Q_INV_SQR (z * z) tmp
  let rg := L.sqrt tmp
  let rs := rg + F.R0
  let cylindricalCoords := (L.sqrt (mad y y (x * x)), z)
  let withAux := fun bg_prob =>
    if F.AUX_BG_PROFILE then mad rPt.qw_r3_N (auxProbCL F g) bg_prob else bg_prob
  match F.BACKGROUND_PROFILE with
  | .fastHernquist =>
      withAux (mad rPt.qw_r3_N (mad F.THICK_DISK_WEIGHT (prob_thick_disk L cylindricalCoords)
        (F.BACKGROUND_WEIGHT / (rg * cube rs))) bg_prob)
  | .slowHernquist =>
      withAux (mad rPt.qw_r3_N (mad F.THICK_DISK_WEIGHT (prob_thick_disk L cylindricalCoords)
        (F.BACKGROUND_WEIGHT / (L.powr rg F.INNERPOWER * L.powr rs F.ALPHA_DELTA_3))) bg_prob)
  | .brokenPowerLaw =>
      let n := mad (if F.R0 ≤ rg then 1.0 else 0.0) F.ALPHA_DELTA_3 F.INNERPOWER
      mad rPt.qw_r3_N (L.powr (F.SUN_R0 / rg) n) bg_prob

def streamCL (L : Libm R) (sc : SC R) (x y z : R) : R :=
  let xs := x - sc.x_c
  let ys := y - sc.y_c
  let zs := z - sc.z_c
  let dotted := sc.x_a * xs
  let dotted := mad sc.y_a ys dotted
  let dotted := mad sc.z_a zs dotted
  let xs := mad dotted (-sc.x_a) xs
  let ys := mad dotted (-sc.y_a) ys
  let zs := mad dotted (-sc.z_a) zs
  let sqrv := xs * xs
  let sqrv := mad ys ys sqrv
  let sqrv := mad zs zs sqrv
  L.exp (-sqrv * sc.sigma_sq2_inv)

/-- What a work-item of the kernel adds to its sums. -/
def probabilities (L : Libm R) (F : CompilerFlags R) (B : Buffers R) (mu_steps : ℕ) (nu_id : R)
    (nu_step mu_step r_step : ℕ) : R × List R :=
  let trigIdx := nu_step * mu_steps + mu_step
  let lTrig := B.lTrig trigIdx
  let bSin := B.bSin trigIdx
  let rc := B.rc r_step
  let (bg_prob, st_probs) := (List.range F.CONVOLVE).foldl (fun probs i =>
    let rPt := B.rPts (F.CONVOLVE * r_step + i)
    let x := mad rPt.r_point lTrig.lCosBCos (-F.SUN_R0)
    let y := rPt.r_point * lTrig.lSinBCos
    let z := rPt.r_point * bSin
    (backgroundCL L F rPt (rc.gPrime + B.sg_dx i) x y z probs.1,
      probs.2.mapIdx fun j st_prob =>
        mad rPt.qw_r3_N (streamCL L (SC.read B.sc j) x y z) st_prob))
    (0.0, List.replicate F.NSTREAM 0.0)
  let V_reff_xr_rp3 := nu_id * rc.irv_reff_xr_rp3
  (bg_prob * V_reff_xr_rp3, st_probs.map fun prob => prob * V_reff_xr_rp3)

/-- The value of a work-item for an area with the flags and buffers made for it. -/
def probabilitiesCL (L : Libm R) (sg : StreamGauss R) (ap : AstronomyParameters R)
    (sc : List (StreamConstants R)) (ia : IntegralArea R) (nu_step mu_step r_step : ℕ) :
    R × List R :=
  probabilities L (getCompilerFlags ap) (createSeparationBuffers L sg ap sc ia) ia.mu_steps
    (calcNuStep L ia nu_step).id nu_step mu_step r_step

end

/-! ## Comparison with the processor -/

section
variable {R : Type} [Field R] [LinearOrder R] (L : Libm R) (ap : AstronomyParameters R)

/-- The part of the auxiliary background that the kernel has beyond the processor, which
multiplies it by the weight of the background. -/
def auxExcess (qw_r3_N g : R) : R :=
  if ap.background_profile = .brokenPowerLaw ∨ ap.aux_bg_profile = false then 0
  else (1 - ap.background_weight) * aux_prob ap qw_r3_N g

theorem backgroundCL_eq (rPt : RPoints R) (g bg_prob excess : R) (xyz : Vec3 R) :
    backgroundCL L (getCompilerFlags ap) rPt g xyz.x xyz.y xyz.z (bg_prob + excess) =
      standardBackground L ap rPt.qw_r3_N g xyz bg_prob +
        (excess + auxExcess ap rPt.qw_r3_N g) := by
  have disk : prob_thick_disk L (L.sqrt (mad xyz.y xyz.y (xyz.x * xyz.x)), xyz.z) *
      rPt.qw_r3_N = disk_prob_thick L rPt.qw_r3_N (xyz2cyl L xyz) := by
    rw [prob_thick_disk, disk_prob_thick, xyz2cyl, mul_comm, mad, mad, sqr, sqr,
      add_comm (xyz.x * xyz.x)]
  have rg : L.sqrt (mad ap.q_inv_sqr (xyz.z * xyz.z) (mad xyz.y xyz.y (xyz.x * xyz.x))) =
      rg_calc L ap xyz := rfl
  have power : ∀ c : R, c * ap.alpha_delta3 + ap.innerPower = ap.innerPower + c * ap.alpha_delta3 :=
    fun c => add_comm _ _
  unfold backgroundCL standardBackground auxExcess
  simp only [getCompilerFlags, rg]
  cases ap.background_profile
  case brokenPowerLaw =>
    simp only [mad, power, broken_power_law_prob, true_or, if_true]
    ring
  all_goals
    rw [← disk]
    cases ap.aux_bg_profile <;>
      simp only [mad, auxProbCL, aux_prob, hernquist_prob_fast, hernquist_prob_slow, reduceCtorEq,
        Bool.false_eq_true, Bool.true_eq_false, or_true, or_false, if_true, if_false] <;> ring

omit [LinearOrder R] in
theorem SC.read_createSCBuffer {sc : List (StreamConstants R)} {j : ℕ} (lt : j < sc.length) :
    SC.read (createSCBuffer sc) j = ⟨sc[j].a.x, sc[j].c.x, sc[j].a.y, sc[j].c.y, sc[j].a.z,
      sc[j].c.z, sc[j].sigma_sq2_inv, 0.0⟩ := by
  have element : ∀ k, k < 8 → createSCBuffer sc (8 * j + k) = (packSC sc[j]).getD k 0 := by
    intro k small
    rw [createSCBuffer, Nat.mul_comm 8 j, filled_apply _ _ small, List.getElem?_eq_getElem lt]
    rfl
  rw [SC.read, element 0 (by decide), element 1 (by decide), element 2 (by decide),
    element 3 (by decide), element 4 (by decide), element 5 (by decide), element 6 (by decide),
    element 7 (by decide)]
  rfl

omit [LinearOrder R] in
theorem streamCL_eq (sc : StreamConstants R) (xyz : Vec3 R) :
    streamCL L ⟨sc.a.x, sc.c.x, sc.a.y, sc.c.y, sc.a.z, sc.c.z, sc.sigma_sq2_inv, 0.0⟩
      xyz.x xyz.y xyz.z = streamIncrement L sc xyz := by
  simp only [streamCL, streamIncrement, mad, mw_dotv, mw_sqrv, Vec3.sub_x, Vec3.sub_y, Vec3.sub_z,
    Vec3.smul_x, Vec3.smul_y, Vec3.smul_z]
  ring_nf

omit [LinearOrder R] in
theorem length_streamSums (st_probs : List R) (sc : List (StreamConstants R)) (xyz : Vec3 R)
    (qw_r3_N : R) :
    (streamSums L st_probs sc xyz qw_r3_N).length = min st_probs.length sc.length :=
  List.length_zipWith

omit [LinearOrder R] in
theorem mapIdx_streamCL {sc : List (StreamConstants R)} {st_probs : List R}
    (length : st_probs.length = sc.length) (qw_r3_N : R) (xyz : Vec3 R) :
    (st_probs.mapIdx fun j st_prob => mad qw_r3_N
      (streamCL L (SC.read (createSCBuffer sc) j) xyz.x xyz.y xyz.z) st_prob) =
      streamSums L st_probs sc xyz qw_r3_N := by
  refine List.ext_getElem (by simp [streamSums, length]) fun j left right => ?_
  have lt : j < sc.length := length ▸ (by simpa using left)
  rw [List.getElem_mapIdx, SC.read_createSCBuffer lt, streamCL_eq]
  simp only [streamSums, List.getElem_zipWith, mad]
  exact add_comm _ _

theorem foldl_backgroundCL {sc : List (StreamConstants R)} {st_probs : List R}
    (length : st_probs.length = sc.length) (points : ℕ → RPoints R) (g : ℕ → R)
    (xyz : ℕ → Vec3 R) (bg_prob : R) (n : ℕ) :
    let standard := (List.range n).foldl (fun probs i =>
      (standardBackground L ap (points i).qw_r3_N (g i) (xyz i) probs.1,
        streamSums L probs.2 sc (xyz i) (points i).qw_r3_N)) (bg_prob, st_probs)
    ((List.range n).foldl (fun probs i =>
      (backgroundCL L (getCompilerFlags ap) (points i) (g i) (xyz i).x (xyz i).y (xyz i).z probs.1,
        probs.2.mapIdx fun j st_prob => mad (points i).qw_r3_N (streamCL L
          (SC.read (createSCBuffer sc) j) (xyz i).x (xyz i).y (xyz i).z) st_prob))
      (bg_prob, st_probs)) =
      (standard.1 + ∑ i ∈ Finset.range n, auxExcess ap (points i).qw_r3_N (g i), standard.2) ∧
      standard.2.length = sc.length := by
  intro standard
  induction n with
  | zero => exact ⟨by simp [standard], length⟩
  | succ n ih =>
      obtain ⟨same, lengthN⟩ := ih
      constructor
      · rw [List.range_succ, List.foldl_append, same]
        simp only [List.foldl_cons, List.foldl_nil]
        rw [backgroundCL_eq, mapIdx_streamCL L lengthN]
        simp only [standard, List.range_succ, List.foldl_append, List.foldl_cons, List.foldl_nil,
          Finset.sum_range_succ]
      · simp only [standard, List.range_succ, List.foldl_append, List.foldl_cons, List.foldl_nil]
        rw [length_streamSums, lengthN, min_self]

theorem probabilitiesCL_eq {E : Integration R} {ap : AstronomyParameters R}
    {sc : List (StreamConstants R)} {ia : IntegralArea R} {mu_step : ℕ}
    (selected : E.probabilityFunc = selectStandardFunction E.L ap)
    (streams : sc.length = ap.number_streams) (sun : ap.m_sun_r0 = -ap.sun_r0)
    (lt : mu_step < ia.mu_steps) (nu_step r_step : ℕ) :
    let nuid := calcNuStep E.L ia nu_step
    let (rPts, rc) := precalculateRPts E.L ap ia E.sg
    let probs := atPoint E ap sc ia (muTrig E ap ia nuid mu_step) nuid.id r_step
    probabilitiesCL E.L E.sg ap sc ia nu_step mu_step r_step =
      (probs.1 + (∑ i ∈ Finset.range ap.convolve,
          auxExcess ap (rPts (r_step * ap.convolve + i)).qw_r3_N ((rc r_step).gPrime + E.sg.dx i)) *
        (nuid.id * (rc r_step).irv_reff_xr_rp3), probs.2) := by
  have trig : precalculateLBTrig E.L ap ia (nu_step * ia.mu_steps + mu_step) =
      muTrig E ap ia (calcNuStep E.L ia nu_step) mu_step := by
    rw [precalculateLBTrig, filled_apply _ _ lt]
    rfl
  intro nuid
  have length : (List.replicate ap.number_streams (0.0 : R)).length = sc.length := by
    rw [List.length_replicate, streams]
  have loops := foldl_backgroundCL E.L ap length
    (fun i => (precalculateRPts E.L ap ia E.sg).1 (r_step * ap.convolve + i))
    (fun i => ((precalculateRPts E.L ap ia E.sg).2 r_step).gPrime + E.sg.dx i)
    (fun i => lbr2xyz_2 ap ((precalculateRPts E.L ap ia E.sg).1 (r_step * ap.convolve + i)).r_point
      (muTrig E ap ia nuid mu_step)) 0.0 ap.convolve
  simp only [probabilitiesCL, probabilities, createSeparationBuffers, trig, getCompilerFlags,
    mul_comm ap.convolve r_step, atPoint, selected, selectStandardFunction_eq, convolved,
    zero_st_probs]
  simp only [lbr2xyz_2, sun, getCompilerFlags] at loops
  simp only [mad] at loops ⊢
  simp only [lbr2xyz_2, sun]
  rw [loops.1]
  simp only [add_mul]
  rfl

/-- A work-item adds what the standard function gives for its point unless there is an
auxiliary background and its unweighted terms make a difference. -/
theorem probabilitiesCL_eq_atPoint_iff {E : Integration R} {ap : AstronomyParameters R}
    {sc : List (StreamConstants R)} {ia : IntegralArea R} {mu_step : ℕ}
    (selected : E.probabilityFunc = selectStandardFunction E.L ap)
    (streams : sc.length = ap.number_streams) (sun : ap.m_sun_r0 = -ap.sun_r0)
    (lt : mu_step < ia.mu_steps) (nu_step r_step : ℕ) :
    let nuid := calcNuStep E.L ia nu_step
    let (rPts, rc) := precalculateRPts E.L ap ia E.sg
    probabilitiesCL E.L E.sg ap sc ia nu_step mu_step r_step =
        atPoint E ap sc ia (muTrig E ap ia nuid mu_step) nuid.id r_step ↔
      ap.background_profile = .brokenPowerLaw ∨ ap.aux_bg_profile = false ∨
        ap.background_weight = 1 ∨ nuid.id * (rc r_step).irv_reff_xr_rp3 = 0 ∨
        ∑ i ∈ Finset.range ap.convolve, aux_prob ap (rPts (r_step * ap.convolve + i)).qw_r3_N
          ((rc r_step).gPrime + E.sg.dx i) = 0 := by
  have added := probabilitiesCL_eq selected streams sun lt nu_step r_step
  simp only at added ⊢
  rw [added, Prod.ext_iff]
  by_cases without : ap.background_profile = .brokenPowerLaw ∨ ap.aux_bg_profile = false
  · simp only [auxExcess, if_pos without, Finset.sum_const_zero, zero_mul, add_zero, and_self,
      true_iff]
    exact without.imp_right Or.inl
  · simp only [auxExcess, if_neg without, ← Finset.mul_sum, and_true, add_eq_left]
    rw [mul_eq_zero, mul_eq_zero, sub_eq_zero, eq_comm (a := (1 : R))]
    tauto

end

/-! ## An auxiliary background -/

def onePoint : IntegralArea ℚ := ⟨20, 1, 0, 1, 0, 1, 1, 1, 1⟩

def rational : Integration ℚ where
  L := ⟨id, fun _ => 1, id, id, id, fun x => if 0 < x then x else 0, id, fun y _ => y,
    fun x _ => x, fun _ => false⟩
  ias := fun _ => onePoint
  sg := ⟨fun _ => 0, fun _ => 1⟩
  probabilityFunc := probabilities_fast_hprob ⟨id, fun _ => 1, id, id, id,
    fun x => if 0 < x then x else 0, id, fun y _ => y, fun x _ => x, fun _ => false⟩

/-- Half of the background is a Hernquist profile, and the auxiliary one is constant. -/
def halfHernquist : AstronomyParameters ℚ where
  params_per_workunit := 2
  currentWU := 0
  totalWUs := 1
  m_sun_r0 := -8.5
  q_inv := 1
  q_inv_sqr := 1
  r0 := 12
  convolve := 2
  number_streams := 0
  background_profile := .fastHernquist
  aux_bg_profile := true
  innerPower := 1
  outerPower := 1
  alpha_delta3 := 3
  bg_a := 0
  bg_b := 0
  bg_c := 1
  wedge := 10
  sun_r0 := 8.5
  q := 1
  modfit := false
  number_integrals := 1
  background_weight := 0.5
  thick_disk_weight := 0.5

theorem probabilitiesCL_eq_atPoint_iff_halfHernquist :
    probabilitiesCL rational.L rational.sg halfHernquist [] onePoint 0 0 0 =
        atPoint rational halfHernquist [] onePoint
          (muTrig rational halfHernquist onePoint (calcNuStep rational.L onePoint 0) 0)
          (calcNuStep rational.L onePoint 0).id 0 ↔
      halfHernquist.background_profile = .brokenPowerLaw ∨
        halfHernquist.aux_bg_profile = false ∨ halfHernquist.background_weight = 1 ∨
        (calcNuStep rational.L onePoint 0).id *
          ((precalculateRPts rational.L halfHernquist onePoint rational.sg).2 0).irv_reff_xr_rp3 =
          0 ∨
        ∑ i ∈ Finset.range 2, aux_prob halfHernquist
          ((precalculateRPts rational.L halfHernquist onePoint rational.sg).1
            (0 * 2 + i)).qw_r3_N
          (((precalculateRPts rational.L halfHernquist onePoint rational.sg).2 0).gPrime +
            rational.sg.dx i) = 0 :=
  probabilitiesCL_eq_atPoint_iff rfl rfl (by decide +kernel) (by decide) 0 0

theorem probabilitiesCL_ne_atPoint :
    ¬ probabilitiesCL rational.L rational.sg halfHernquist [] onePoint 0 0 0 =
      atPoint rational halfHernquist [] onePoint
        (muTrig rational halfHernquist onePoint (calcNuStep rational.L onePoint 0) 0)
        (calcNuStep rational.L onePoint 0).id 0 := by
  decide +kernel

end MilkyWay.Separation
