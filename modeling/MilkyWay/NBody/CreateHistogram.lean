import MilkyWay.Foundation.Fold
import MilkyWay.NBody.Histogram

/-! The histograms of a run. One pass counts the bodies in the bins and fills arrays that
were sized by another test on the type of a body; `nbCreateHistogram_iff` states when every
body in range is counted in its bin and nothing else happens. -/

namespace MilkyWay.NBody

open Foundation

structure HistogramParams (R : Type) where
  phi : R
  theta : R
  psi : R
  lambdaStart : R
  lambdaEnd : R
  lambdaBins : ℕ
  betaStart : R
  betaEnd : R
  betaBins : ℕ

/-- The mathematics library; `floorQuotient a b` is the floor of `a / b` as an unsigned
number, whatever becomes of a floor that is none and of a quotient by zero. -/
structure TrigLib (R : Type) where
  M_PI : R
  cos : R → R
  sin : R → R
  atan2 : R → R → R
  asin : R → R
  sqrt : R → R
  floorQuotient : R → R → ℕ

structure CountedBin (R : Type) extends HistData R where
  rawCount : ℕ
  sum : R
  sq_sum : R
  outliersRemoved : R

structure CountedHistogram (R : Type) where
  lambdaBins : ℕ
  betaBins : ℕ
  totalNum : ℕ
  totalSimulated : ℕ
  hasRawCounts : Bool
  params : HistogramParams R
  massPerParticle : R
  data : ℕ → CountedBin R

/-- The six histograms, those that are used. -/
abbrev CountedMain (R : Type) := Fin 6 → Option (CountedHistogram R)

structure WorkEntry (R : Type) where
  use_velbody : Option ℕ
  use_betabody : Option ℕ
  use_distbody : Option ℕ
  vlos : R
  betas : R
  distances : R

/-- What the histograms take from the context. -/
structure HistogramCtx (R : Type) where
  sunGCDist : R
  IterMax : ℕ
  BetaSigma : R
  VelSigma : R
  DistSigma : R
  BetaCorrect : R
  VelCorrect : R
  DistCorrect : R

section
variable {R : Type} [Sub R] [Mul R] [Div R] [NatCast R] [OfScientific R]

def nbNormalizedHistogramError (lib : TrigLib R) (n : ℕ)
    (total_histogram total_simulated : R) : R :=
  let real_n : R := n
  let inv := 1.0 / total_simulated
  (if n = 0 then lib.sqrt (inv * (1.0 - inv))
    else lib.sqrt (real_n * (real_n / total_simulated) * (1.0 - real_n / total_simulated))) /
      total_histogram

end

section
variable {R : Type} [Field R] [LinearOrder R]

def nbHistogramLambdaBinSize (hp : HistogramParams R) : R :=
  (hp.lambdaEnd - hp.lambdaStart) / (hp.lambdaBins : R)

def nbHistogramBetaBinSize (hp : HistogramParams R) : R :=
  (hp.betaEnd - hp.betaStart) / (hp.betaBins : R)

/-- The number of bins that there is room for. -/
def HistogramParams.nBin (hp : HistogramParams R) : ℕ := hp.lambdaBins * hp.betaBins % 2 ^ 32

def ignoreBody (b : Body R) : Bool := b.type < 0

/-! ## Coordinates -/

def d2r (lib : TrigLib R) (x : R) : R := x * lib.M_PI / 180.0

def r2d (lib : TrigLib R) (x : R) : R := x * 180.0 / lib.M_PI

/-- Lambda and beta of a position. -/
def nbXYZToLambdaBeta (lib : TrigLib R) (hp : HistogramParams R) (xyz : Vec3 R) (sunGCDist : R) :
    R × R :=
  let rphi := d2r lib hp.phi
  let rpsi := d2r lib hp.psi
  let rth := d2r lib hp.theta
  let cosphi := lib.cos rphi
  let sinphi := lib.sin rphi
  let sinpsi := lib.sin rpsi
  let cospsi := lib.cos rpsi
  let costh := lib.cos rth
  let sinth := lib.sin rth
  let rot11 := cospsi * cosphi - costh * sinphi * sinpsi
  let rot12 := cospsi * sinphi + costh * cosphi * sinpsi
  let rot13 := sinpsi * sinth
  let rot21 := -sinpsi * cosphi - costh * sinphi * cospsi
  let rot22 := -sinpsi * sinphi + costh * cosphi * cospsi
  let rot23 := cospsi * sinth
  let rot31 := sinth * sinphi
  let rot32 := -sinth * cosphi
  let rot33 := costh
  let x := xyz.x + sunGCDist
  let tempX := rot11 * x + rot12 * xyz.y + rot13 * xyz.z
  let tempY := rot21 * x + rot22 * xyz.y + rot23 * xyz.z
  let tempZ := rot31 * x + rot32 * xyz.y + rot33 * xyz.z
  let r := lib.sqrt (tempX * tempX + tempY * tempY + tempZ * tempZ)
  let tempZ := -tempZ
  (r2d lib (lib.atan2 tempY tempX), r2d lib (lib.asin (tempZ / r)))

def calc_vLOS (lib : TrigLib R) (v p : Vec3 R) (sunGCdist : R) : R :=
  let xsol := p.x + sunGCdist
  let mag := lib.sqrt (xsol * xsol + p.y * p.y + p.z * p.z)
  let vl := xsol * v.x + p.y * v.y + p.z * v.z
  vl / mag

def calc_distance (lib : TrigLib R) (p : Vec3 R) (sunGCdist : R) : R :=
  let xsol := p.x + sunGCdist
  lib.sqrt (xsol * xsol + p.y * p.y + p.z * p.z)

/-! ## The pass over the bodies -/

structure CountState (R : Type) where
  all : CountedMain R
  work : List (WorkEntry R)
  ub_counter : ℕ
  totalNum : ℕ

/-- One more body in a bin, with what is added to the sums if there are any. -/
def CountedHistogram.count (h : CountedHistogram R) (Histindex : ℕ) (var : Option R) :
    CountedHistogram R :=
  let bin := h.data Histindex
  { h with data := Function.update h.data Histindex { bin with
      rawCount := bin.rawCount + 1
      sum := var.elim bin.sum (bin.sum + ·)
      sq_sum := var.elim bin.sq_sum (bin.sq_sum + sqr ·) } }

def variableOf (beta v_line_of_sight location : R) : Fin 6 → Option R :=
  ![none, some beta, some v_line_of_sight, some v_line_of_sight, some beta, some location]

/-- The indices of a body. -/
def binIndices (lib : TrigLib R) (ctx : HistogramCtx R) (hp : HistogramParams R) (b : Body R) :
    ℕ × ℕ :=
  let lambdaBeta := nbXYZToLambdaBeta lib hp b.pos ctx.sunGCDist
  (lib.floorQuotient (lambdaBeta.1 - hp.lambdaStart) (nbHistogramLambdaBinSize hp),
    lib.floorQuotient (lambdaBeta.2 - hp.betaStart) (nbHistogramBetaBinSize hp))

/-- The turn for one body. It is none where an array is written behind its end. -/
def countBody (lib : TrigLib R) (ctx : HistogramCtx R) (hp : HistogramParams R)
    (s : CountState R) (b : Body R) : Option (CountState R) :=
  if ignoreBody b then some s
  else
    let beta := (nbXYZToLambdaBeta lib hp b.pos ctx.sunGCDist).2
    let (lambdaIndex, betaIndex) := binIndices lib ctx hp b
    if s.ub_counter < s.work.length then
      if lambdaIndex < hp.lambdaBins ∧ betaIndex < hp.betaBins then
        let Histindex := (lambdaIndex * hp.betaBins + betaIndex) % 2 ^ 32
        if Histindex < hp.nBin then
          let v_line_of_sight := calc_vLOS lib b.vel b.pos ctx.sunGCDist
          let location := calc_distance lib b.pos ctx.sunGCDist
          some
            { all := fun k => (s.all k).map
                (·.count Histindex (variableOf beta v_line_of_sight location k))
              work := s.work.set s.ub_counter ⟨some Histindex, some Histindex, some Histindex,
                v_line_of_sight, beta, location⟩
              ub_counter := s.ub_counter + 1
              totalNum := s.totalNum + 1 }
        else none
      else some { s with
        work := s.work.set s.ub_counter ⟨none, none, none, -1, -1, -1⟩
        ub_counter := s.ub_counter + 1 }
    else none

/-! ## Dispersions, outliers and averages -/

def binTurn (f : CountedHistogram R → ℕ → ℕ → CountedBin R → CountedBin R)
    (lambdaBins betaBins i : ℕ) (h : CountedHistogram R) (j : ℕ) : Option (CountedHistogram R) :=
  let Histindex := (i * betaBins + j) % 2 ^ 32
  if Histindex < lambdaBins * betaBins % 2 ^ 32 then
    some { h with data := Function.update h.data Histindex (f h i j (h.data Histindex)) }
  else none

def forBins (f : CountedHistogram R → ℕ → ℕ → CountedBin R → CountedBin R)
    (h : CountedHistogram R) : Option (CountedHistogram R) :=
  (List.range h.lambdaBins).foldlM (fun h' i =>
    (List.range h.betaBins).foldlM (binTurn f h.lambdaBins h.betaBins i) h') h

/-- Get the dispersion in each bin. -/
def nbCalcDisp (lib : TrigLib R) (initial : Bool) (correction_factor : R)
    (histogram : CountedHistogram R) : Option (CountedHistogram R) :=
  forBins (fun _ _ _ bin =>
    let count := (bin.rawCount : R) - bin.outliersRemoved
    if 10.0 < count then
      let n_new := count - 1.0
      let n_ratio := count / n_new
      let dispsq := bin.sq_sum / n_new - n_ratio * sqr (bin.sum / count)
      let dispsq := if initial then dispsq else dispsq * correction_factor
      let variable_ := lib.sqrt dispsq
      { bin with
        variable_
        err := lib.sqrt ((count + 1) / (count * n_new)) * variable_ }
    else bin) histogram

structure Removal (R : Type) where
  counter : ℕ
  temp_sum : ℕ → R
  temp_sqr : ℕ → R
  temp_removed : ℕ → R

def removeBody (histogram : CountedHistogram R) (work : List (WorkEntry R))
    (use_body : WorkEntry R → Option ℕ) (var : WorkEntry R → R) (sigma_cutoff : R) (histBins : ℕ)
    (s : Removal R) (b : Body R) : Option (Removal R) :=
  if ignoreBody b then some s
  else
    match work[s.counter]? with
    | none => none
    | some entry =>
        match use_body entry with
        | none => some { s with counter := s.counter + 1 }
        | some Histindex =>
            if Histindex < histBins then
              let bin := histogram.data Histindex
              let new_count := (bin.rawCount : R) - bin.outliersRemoved
              let bin_ave := bin.sum / new_count
              let this_var := var entry
              -- the mean of no bodies is no number and near none of them
              if new_count ≠ 0 ∧ mw_abs (bin_ave - this_var) < sigma_cutoff * bin.variable_ then
                some { s with
                  counter := s.counter + 1
                  temp_sum := Function.update s.temp_sum Histindex
                    (s.temp_sum Histindex + this_var)
                  temp_sqr := Function.update s.temp_sqr Histindex
                    (s.temp_sqr Histindex + this_var * this_var) }
              else some { s with
                counter := s.counter + 1
                temp_removed := Function.update s.temp_removed Histindex
                  (s.temp_removed Histindex + 1.0) }
            else none

/-- The temporary arrays have a signed number of entries. -/
def nbRemoveOutliers (bodies : List (Body R)) (work : List (WorkEntry R))
    (use_body : WorkEntry R → Option ℕ) (var : WorkEntry R → R) (sigma_cutoff : R) (histBins : ℕ)
    (histogram : CountedHistogram R) : Option (CountedHistogram R) :=
  if 2 ^ 31 ≤ histBins then none
  else do
    let s ← bodies.foldlM (removeBody histogram work use_body var sigma_cutoff histBins)
      ⟨0, fun _ => 0.0, fun _ => 0.0, fun _ => 0.0⟩
    return { histogram with data := fun n =>
      let bin := histogram.data n
      if n < histBins then { bin with
        sum := s.temp_sum n
        sq_sum := s.temp_sqr n
        outliersRemoved := s.temp_removed n }
      else bin }

def refine_ (lib : TrigLib R) (ctx : HistogramCtx R) (bodies : List (Body R))
    (work : List (WorkEntry R)) (use_body : WorkEntry R → Option ℕ) (var : WorkEntry R → R)
    (sigma correct : R) (nBin : ℕ) (histogram : CountedHistogram R) :
    Option (CountedHistogram R) :=
  (List.range ctx.IterMax).foldlM (fun h _ => do
    let h ← nbRemoveOutliers bodies work use_body var sigma nBin h
    nbCalcDisp lib false correct h) histogram

open Foundation.Numerals in
def averageBins (lib : TrigLib R) (nBin : ℕ) (histogram : CountedHistogram R) :
    Option (CountedHistogram R) :=
  some { histogram with data := fun n =>
    let bin := histogram.data n
    let denom := (bin.rawCount : R) - bin.outliersRemoved
    if n < nBin then
      if 10 < denom then
        { bin with err := bin.variable_ / lib.sqrt denom, variable_ := bin.sum / denom }
      else { bin with err := -1, variable_ := 0 }
    else bin }

/-- Normalized counts and errors; the count for the error is that of bin `i`. -/
def nbNormalizeHistogram (lib : TrigLib R) (histogram : CountedHistogram R) :
    Option (CountedHistogram R) :=
  let hp := histogram.params
  forBins (fun h i j bin =>
    { bin with
      lambda := ((i : R) + 0.5) * nbHistogramLambdaBinSize hp + hp.lambdaStart
      beta := ((j : R) + 0.5) * nbHistogramBetaBinSize hp + hp.betaStart
      variable_ := (bin.rawCount : R) / (histogram.totalNum : R)
      err := nbNormalizedHistogramError lib (h.data i).rawCount histogram.totalNum
        histogram.totalSimulated }) histogram

/-! ## The histograms -/

open Foundation.Numerals in
def histogramSteps (lib : TrigLib R) (ctx : HistogramCtx R) (bodies : List (Body R))
    (work : List (WorkEntry R)) (nBin : ℕ) :
    List (Fin 6 × (CountedHistogram R → Option (CountedHistogram R))) :=
  [(1, nbCalcDisp lib true ctx.BetaCorrect),
    (2, nbCalcDisp lib true ctx.VelCorrect),
    (3, nbCalcDisp lib true ctx.VelCorrect),
    (4, nbCalcDisp lib true ctx.BetaCorrect),
    (5, nbCalcDisp lib true ctx.DistCorrect),
    (1, refine_ lib ctx bodies work (·.use_betabody) (·.betas) ctx.BetaSigma ctx.BetaCorrect nBin),
    (2, refine_ lib ctx bodies work (·.use_velbody) (·.vlos) ctx.VelSigma ctx.VelCorrect nBin),
    (3, refine_ lib ctx bodies work (·.use_velbody) (·.vlos) ctx.VelSigma ctx.VelCorrect nBin),
    (3, averageBins lib nBin),
    (4, refine_ lib ctx bodies work (·.use_betabody) (·.betas) ctx.BetaSigma ctx.BetaCorrect nBin),
    (4, averageBins lib nBin),
    (5, refine_ lib ctx bodies work (·.use_distbody) (·.distances) ctx.DistSigma ctx.DistCorrect
      nBin),
    (5, averageBins lib nBin),
    (0, nbNormalizeHistogram lib)]

def applyStep (all : CountedMain R)
    (step : Fin 6 × (CountedHistogram R → Option (CountedHistogram R))) : Option (CountedMain R) :=
  match all step.1 with
  | none => some all
  | some h => (step.2 h).map fun h => Function.update all step.1 (some h)

def clearBin : CountedBin R := ⟨⟨true, 0.0, 0.0, 0.0, 0.0⟩, 0, 0.0, 0.0, 0.0⟩

/-- The number of bodies that the arrays are made for, and the mass of the last of them. -/
def countBodies (bodies : List (Body R)) : ℕ × R :=
  bodies.foldl (fun s b => if b.type = 1 then (s.1 + 1, b.mass) else s) (0, 0.0)

def startHistograms (st : LikelihoodUse) (hp : HistogramParams R) (body_count : ℕ) (mass : R) :
    CountedMain R := fun k =>
  if k.val < 3 ∨ st.useVlos ∨ st.useBetaComp ∨ st.useDist then
    some ⟨hp.lambdaBins, hp.betaBins, 0, body_count, true, hp, mass, fun _ => clearBin⟩
  else none

def nbCreateHistogram (lib : TrigLib R) (ctx : HistogramCtx R) (st : LikelihoodUse)
    (bodies : List (Body R)) (hp : HistogramParams R) : Option (CountedMain R) := do
  let (body_count, mass) := countBodies bodies
  let s ← bodies.foldlM (countBody lib ctx hp)
    ⟨startHistograms st hp body_count mass,
      List.replicate body_count ⟨some 0, some 0, some 0, 0.0, 0.0, 0.0⟩, 0, 0⟩
  let all : CountedMain R := fun k => (s.all k).map fun h => { h with totalNum := s.totalNum }
  (histogramSteps lib ctx bodies s.work hp.nBin).foldlM applyStep all

/-! ## What the steps keep -/

structure SameCounts (h h' : CountedHistogram R) : Prop where
  lambdaBins : h'.lambdaBins = h.lambdaBins
  betaBins : h'.betaBins = h.betaBins
  totalNum : h'.totalNum = h.totalNum
  rawCount : ∀ n, (h'.data n).rawCount = (h.data n).rawCount

omit [Field R] [LinearOrder R] in
theorem SameCounts.refl (h : CountedHistogram R) : SameCounts h h := ⟨rfl, rfl, rfl, fun _ => rfl⟩

omit [Field R] [LinearOrder R] in
theorem SameCounts.trans {h h' h'' : CountedHistogram R} (first : SameCounts h h')
    (second : SameCounts h' h'') : SameCounts h h'' :=
  ⟨second.lambdaBins.trans first.lambdaBins, second.betaBins.trans first.betaBins,
    second.totalNum.trans first.totalNum,
    fun n => (second.rawCount n).trans (first.rawCount n)⟩

structure KeptHistogram (h h' : CountedHistogram R) : Prop extends SameCounts h h' where
  totalSimulated : h'.totalSimulated = h.totalSimulated
  massPerParticle : h'.massPerParticle = h.massPerParticle
  useBin : ∀ n, (h'.data n).useBin = (h.data n).useBin

omit [Field R] [LinearOrder R] in
theorem KeptHistogram.refl (h : CountedHistogram R) : KeptHistogram h h :=
  ⟨.refl h, rfl, rfl, fun _ => rfl⟩

omit [Field R] [LinearOrder R] in
theorem KeptHistogram.trans {h h' h'' : CountedHistogram R} (first : KeptHistogram h h')
    (second : KeptHistogram h' h'') : KeptHistogram h h'' :=
  ⟨first.toSameCounts.trans second.toSameCounts,
    second.totalSimulated.trans first.totalSimulated,
    second.massPerParticle.trans first.massPerParticle,
    fun n => (second.useBin n).trans (first.useBin n)⟩

def KeepsBin (bin bin' : CountedBin R) : Prop :=
  bin'.rawCount = bin.rawCount ∧ bin'.useBin = bin.useBin

variable {f : CountedHistogram R → ℕ → ℕ → CountedBin R → CountedBin R}
  {h h' : CountedHistogram R}

omit [Field R] [LinearOrder R] in
theorem kept_of_bins {data : ℕ → CountedBin R} (keeps : ∀ n, KeepsBin (h.data n) (data n)) :
    KeptHistogram h { h with data } :=
  ⟨⟨rfl, rfl, rfl, fun n => (keeps n).1⟩, rfl, rfl, fun n => (keeps n).2⟩

omit [Field R] [LinearOrder R] in
theorem binTurn_same {lambdaBins betaBins i j : ℕ}
    (keeps : ∀ h i j bin, KeepsBin bin (f h i j bin))
    (turn : binTurn f lambdaBins betaBins i h j = some h') : KeptHistogram h h' := by
  rw [binTurn] at turn
  split at turn
  · rw [Option.some.injEq] at turn
    subst turn
    refine kept_of_bins fun m => ?_
    by_cases own : m = (i * betaBins + j) % 2 ^ 32
    · rw [own, Function.update_self]
      exact keeps h i j _
    · rw [Function.update_of_ne own]
      exact ⟨rfl, rfl⟩
  · cases turn

omit [Field R] [LinearOrder R] in
theorem forBins_same (keeps : ∀ h i j bin, KeepsBin bin (f h i j bin))
    (run : forBins f h = some h') : KeptHistogram h h' := by
  refine foldlM_invariant (fun _ s => KeptHistogram h s) (.refl h) ?_ run
  intro _ i _ s s' _ inv row
  refine foldlM_invariant (fun _ s => KeptHistogram h s) inv ?_ row
  exact fun _ j _ t t' _ inv turn => inv.trans (binTurn_same keeps turn)

omit [Field R] [LinearOrder R] in
theorem forBins_some (fits : h.lambdaBins * h.betaBins < 2 ^ 32) :
    ∃ h', forBins f h = some h' := by
  obtain ⟨h', run, -⟩ := foldlM_success (l := List.range h.lambdaBins) (b := h)
    (f := fun h' i => (List.range h.betaBins).foldlM (binTurn f h.lambdaBins h.betaBins i) h')
    (fun _ _ => True) trivial (by
      intro done i rest s split _
      have hi : i < h.lambdaBins := List.mem_range.mp (split ▸ by simp)
      obtain ⟨s', row, -⟩ := foldlM_success (l := List.range h.betaBins) (b := s)
        (f := binTurn f h.lambdaBins h.betaBins i) (fun _ _ => True) trivial (by
          intro done j rest t split _
          have hj : j < h.betaBins := List.mem_range.mp (split ▸ by simp)
          have index : i * h.betaBins + j < h.lambdaBins * h.betaBins :=
            calc i * h.betaBins + j < i * h.betaBins + h.betaBins := by omega
              _ = (i + 1) * h.betaBins := by ring
              _ ≤ h.lambdaBins * h.betaBins := Nat.mul_le_mul_right _ hi
          rw [binTurn, Nat.mod_eq_of_lt fits, Nat.mod_eq_of_lt (index.trans fits)]
          exact ⟨_, if_pos index, trivial⟩)
      exact ⟨s', row, trivial⟩)
  exact ⟨h', run⟩

omit [Field R] [LinearOrder R] in
theorem forBins_none (wraps : 2 ^ 32 ≤ h.lambdaBins * h.betaBins) : forBins f h = none := by
  have some_ : 0 < h.betaBins := Nat.pos_of_ne_zero fun zero => by
    rw [zero, Nat.mul_zero] at wraps
    omega
  have row : (2 ^ 32 - 1) / h.betaBins < h.lambdaBins := by
    rw [Nat.div_lt_iff_lt_mul some_]
    omega
  have last : (2 ^ 32 - 1) / h.betaBins * h.betaBins + (2 ^ 32 - 1) % h.betaBins = 2 ^ 32 - 1 :=
    Nat.div_add_mod' _ _
  have room := Nat.mod_lt (h.lambdaBins * h.betaBins) (show 0 < 2 ^ 32 by norm_num)
  refine foldlM_range_none row (fun s => ?_) h
  refine foldlM_range_none (Nat.mod_lt (2 ^ 32 - 1) some_) (fun t => ?_) s
  rw [binTurn, last, Nat.mod_eq_of_lt (by norm_num)]
  exact if_neg (by omega)

variable {lib : TrigLib R} {ctx : HistogramCtx R} {bodies : List (Body R)}
  {work : List (WorkEntry R)} {use_body : WorkEntry R → Option ℕ} {var : WorkEntry R → R}

theorem nbCalcDisp_same {initial : Bool} {factor : R}
    (run : nbCalcDisp lib initial factor h = some h') : KeptHistogram h h' := by
  refine forBins_same (fun _ _ _ bin => ?_) run
  dsimp only
  split <;> exact ⟨rfl, rfl⟩

theorem nbRemoveOutliers_same {sigma : R} {nBin : ℕ}
    (run : nbRemoveOutliers bodies work use_body var sigma nBin h = some h') :
    KeptHistogram h h' := by
  rw [nbRemoveOutliers] at run
  split at run
  · cases run
  · simp only [Option.bind_eq_bind, Option.bind_eq_some_iff, Option.pure_def,
      Option.some.injEq] at run
    obtain ⟨s, -, rfl⟩ := run
    refine kept_of_bins fun n => ?_
    split <;> exact ⟨rfl, rfl⟩

theorem refine_same {sigma correct : R} {nBin : ℕ}
    (run : refine_ lib ctx bodies work use_body var sigma correct nBin h = some h') :
    KeptHistogram h h' := by
  refine foldlM_invariant (fun _ s => KeptHistogram h s) (.refl h) ?_ run
  intro _ i _ s s' _ inv turn
  rw [Option.bind_eq_bind, Option.bind_eq_some_iff] at turn
  obtain ⟨t, removed, disp⟩ := turn
  exact (inv.trans (nbRemoveOutliers_same removed)).trans (nbCalcDisp_same disp)

theorem averageBins_same {nBin : ℕ} (run : averageBins lib nBin h = some h') :
    KeptHistogram h h' := by
  rw [averageBins, Option.some.injEq] at run
  subst run
  refine kept_of_bins fun n => ?_
  dsimp only
  split
  · split <;> exact ⟨rfl, rfl⟩
  · exact ⟨rfl, rfl⟩

omit [LinearOrder R] in
theorem nbNormalizeHistogram_same (run : nbNormalizeHistogram lib h = some h') :
    KeptHistogram h h' := by
  rw [nbNormalizeHistogram] at run
  refine forBins_same ?_ run
  exact fun _ _ _ _ => ⟨rfl, rfl⟩

theorem histogramSteps_same {nBin : ℕ} : ∀ step ∈ histogramSteps lib ctx bodies work nBin,
    ∀ h h', step.2 h = some h' → KeptHistogram h h' := by
  intro step mem h h' run
  simp only [histogramSteps, List.mem_cons, List.not_mem_nil, or_false] at mem
  rcases mem with rfl | rfl | rfl | rfl | rfl | rfl | rfl | rfl | rfl | rfl | rfl | rfl | rfl | rfl
  all_goals first
    | exact nbCalcDisp_same run
    | exact refine_same run
    | exact averageBins_same run
    | exact nbNormalizeHistogram_same run

/-! ## When the steps succeed -/

def WorkWithin (bodies : List (Body R)) (work : List (WorkEntry R)) (nBin : ℕ) : Prop :=
  ∀ n < bodies.countP (!ignoreBody ·), ∃ entry, work[n]? = some entry ∧ ∀ m,
    entry.use_velbody = some m ∨ entry.use_betabody = some m ∨ entry.use_distbody = some m →
      m < nBin

theorem nbRemoveOutliers_some {sigma : R} {nBin : ℕ} (within : WorkWithin bodies work nBin)
    (use : ∀ entry m, use_body entry = some m →
      entry.use_velbody = some m ∨ entry.use_betabody = some m ∨ entry.use_distbody = some m)
    (small : nBin < 2 ^ 31) (h : CountedHistogram R) :
    ∃ h', nbRemoveOutliers bodies work use_body var sigma nBin h = some h' := by
  obtain ⟨s, run, -⟩ := foldlM_success (l := bodies)
    (f := removeBody h work use_body var sigma nBin)
    (b := ⟨0, fun _ => 0.0, fun _ => 0.0, fun _ => 0.0⟩)
    (fun done s => s.counter = done.countP (!ignoreBody ·)) rfl (by
      intro done b rest s split counter
      rw [removeBody]
      cases ignored : ignoreBody b with
      | true => exact ⟨s, if_pos rfl, by simp [counter, ignored]⟩
      | false =>
          have next : ∀ t : Removal R, t.counter = s.counter + 1 →
              t.counter = (done ++ [b]).countP (!ignoreBody ·) := fun t ht => by
            simp [ht, counter, ignored]
          have place : s.counter < bodies.countP (!ignoreBody ·) := by
            rw [← split, counter]
            simp [ignored]
          obtain ⟨entry, here, bins⟩ := within s.counter place
          rw [if_neg (by decide), here]
          dsimp only
          cases used : use_body entry with
          | none => exact ⟨_, rfl, next _ rfl⟩
          | some m =>
              dsimp only
              rw [if_pos (bins m (use entry m used))]
              split
              · exact ⟨_, rfl, next _ rfl⟩
              · exact ⟨_, rfl, next _ rfl⟩)
  rw [nbRemoveOutliers, if_neg (by omega), run]
  exact ⟨_, rfl⟩

/-- The number of bins does not wrap around, nor does it become negative where outliers are
removed. -/
def BinsFit (ctx : HistogramCtx R) (hp : HistogramParams R) : Prop :=
  hp.lambdaBins * hp.betaBins < 2 ^ 32 ∧
    (ctx.IterMax = 0 ∨ hp.lambdaBins * hp.betaBins < 2 ^ 31)

/-- The shape of the histograms for some parameters. -/
def Shaped (hp : HistogramParams R) (h : CountedHistogram R) : Prop :=
  h.lambdaBins = hp.lambdaBins ∧ h.betaBins = hp.betaBins

omit [Field R] [LinearOrder R] in
theorem Shaped.same {hp : HistogramParams R} (shaped : Shaped hp h) (same : KeptHistogram h h') :
    Shaped hp h' :=
  ⟨same.lambdaBins.trans shaped.1, same.betaBins.trans shaped.2⟩

variable {hp : HistogramParams R}

omit [Field R] [LinearOrder R] in
theorem Shaped.forBins_some (shaped : Shaped hp h) (fits : BinsFit ctx hp) :
    ∃ h', forBins f h = some h' :=
  NBody.forBins_some (by rw [shaped.1, shaped.2]; exact fits.1)

theorem refine_some {sigma correct : R} (within : WorkWithin bodies work hp.nBin)
    (use : ∀ entry m, use_body entry = some m →
      entry.use_velbody = some m ∨ entry.use_betabody = some m ∨ entry.use_distbody = some m)
    (fits : BinsFit ctx hp) (shaped : Shaped hp h) :
    ∃ h', refine_ lib ctx bodies work use_body var sigma correct hp.nBin h = some h' := by
  obtain ⟨h', run, -⟩ := foldlM_success (l := List.range ctx.IterMax) (b := h)
    (f := fun h _ => do
      let h ← nbRemoveOutliers bodies work use_body var sigma hp.nBin h
      nbCalcDisp lib false correct h) (fun _ h => Shaped hp h) shaped (by
      intro done i rest s split shaped
      have some_ : ctx.IterMax ≠ 0 := fun zero => by
        rw [zero] at split
        simp at split
      have small : hp.nBin < 2 ^ 31 :=
        (Nat.mod_le _ _).trans_lt (fits.2.resolve_left some_)
      obtain ⟨s', removed⟩ : ∃ s', nbRemoveOutliers bodies work use_body var sigma hp.nBin s =
          some s' := nbRemoveOutliers_some within use small s
      have shaped' := shaped.same (nbRemoveOutliers_same removed)
      obtain ⟨s'', disp⟩ : ∃ s'', nbCalcDisp lib false correct s' = some s'' :=
        shaped'.forBins_some fits
      refine ⟨s'', ?_, shaped'.same (nbCalcDisp_same disp)⟩
      rw [removed]
      exact disp)
  exact ⟨h', run⟩

theorem histogramSteps_some (within : WorkWithin bodies work hp.nBin) (fits : BinsFit ctx hp) :
    ∀ step ∈ histogramSteps lib ctx bodies work hp.nBin, ∀ h, Shaped hp h →
      ∃ h', step.2 h = some h' := by
  intro step mem h shaped
  simp only [histogramSteps, List.mem_cons, List.not_mem_nil, or_false] at mem
  rcases mem with rfl | rfl | rfl | rfl | rfl | rfl | rfl | rfl | rfl | rfl | rfl | rfl | rfl | rfl
  all_goals first
    | exact shaped.forBins_some fits
    | exact refine_some within (fun _ _ used => .inl used) fits shaped
    | exact refine_some within (fun _ _ used => .inr (.inl used)) fits shaped
    | exact refine_some within (fun _ _ used => .inr (.inr used)) fits shaped
    | exact ⟨_, rfl⟩

omit [Field R] [LinearOrder R] in
theorem foldlM_applyStep {steps : List (Fin 6 × (CountedHistogram R → Option (CountedHistogram R)))}
    (keeps : ∀ step ∈ steps, ∀ h h', step.2 h = some h' → KeptHistogram h h')
    {all all' : CountedMain R} (run : steps.foldlM applyStep all = some all') (k : Fin 6) :
    Option.Rel KeptHistogram (all k) (all' k) := by
  refine foldlM_invariant (fun _ s => Option.Rel KeptHistogram (all k) (s k)) ?_ ?_ run
  · cases all k with
    | none => exact .none
    | some h => exact .some (.refl h)
  · intro done step rest s s' split inv turn
    rw [applyStep] at turn
    cases used : s step.1 with
    | none =>
        rw [used, Option.some.injEq] at turn
        exact turn ▸ inv
    | some h =>
        rw [used, Option.map_eq_some_iff] at turn
        obtain ⟨h', stepped, rfl⟩ := turn
        by_cases own : k = step.1
        · rw [own, used] at inv
          rw [own, Function.update_self]
          cases before : all step.1 with
          | none => rw [before] at inv; cases inv
          | some h₀ =>
              rw [before] at inv
              cases inv with
              | some same =>
                  exact .some (same.trans (keeps step (split ▸ by simp) h h' stepped))
        · rw [Function.update_of_ne own]
          exact inv

omit [Field R] [LinearOrder R] in
theorem foldlM_applyStep_some
    {steps : List (Fin 6 × (CountedHistogram R → Option (CountedHistogram R)))}
    (keeps : ∀ step ∈ steps, ∀ h h', step.2 h = some h' → KeptHistogram h h')
    (works : ∀ step ∈ steps, ∀ h, Shaped hp h → ∃ h', step.2 h = some h')
    {all : CountedMain R} (shaped : ∀ k h, all k = some h → Shaped hp h) :
    ∃ all', steps.foldlM applyStep all = some all' := by
  obtain ⟨all', run, -⟩ := foldlM_success (l := steps) (b := all) (f := applyStep)
    (fun _ s => ∀ k h, s k = some h → Shaped hp h) shaped (by
      intro done step rest s split shaped
      have mem : step ∈ steps := split ▸ by simp
      rw [applyStep]
      cases used : s step.1 with
      | none => exact ⟨s, rfl, shaped⟩
      | some h =>
          obtain ⟨h', stepped⟩ := works step mem h (shaped _ h used)
          refine ⟨Function.update s step.1 (some h'), by dsimp only; rw [stepped]; rfl,
            fun k h'' used' => ?_⟩
          by_cases own : k = step.1
          · rw [own, Function.update_self, Option.some.injEq] at used'
            exact used' ▸ (shaped _ h used).same (keeps step mem h h' stepped)
          · rw [Function.update_of_ne own] at used'
            exact shaped k h'' used')
  exact ⟨all', run⟩

/-! ## The counts -/

def histSlot (lib : TrigLib R) (ctx : HistogramCtx R) (hp : HistogramParams R) (b : Body R) :
    Option ℕ :=
  let index := binIndices lib ctx hp b
  if ignoreBody b = false ∧ index.1 < hp.lambdaBins ∧ index.2 < hp.betaBins then
    some ((index.1 * hp.betaBins + index.2) % 2 ^ 32)
  else none

structure CountedFrom (slot : Body R → Option ℕ) (bodies : List (Body R))
    (h h' : CountedHistogram R) : Prop where
  lambdaBins : h'.lambdaBins = h.lambdaBins
  betaBins : h'.betaBins = h.betaBins
  rawCount : ∀ n, (h'.data n).rawCount = (h.data n).rawCount + bodies.countP (slot · = some n)

structure Counting (lib : TrigLib R) (ctx : HistogramCtx R) (hp : HistogramParams R)
    (all : CountedMain R) (body_count : ℕ) (done : List (Body R)) (s : CountState R) : Prop where
  length : s.work.length = body_count
  counter : s.ub_counter = done.countP (!ignoreBody ·)
  room : s.ub_counter ≤ body_count
  work : WorkWithin done s.work hp.nBin
  counts : ∀ k, Option.Rel (CountedFrom (histSlot lib ctx hp) done) (all k) (s.all k)
  totalNum : s.totalNum = done.countP fun b => (histSlot lib ctx hp b).isSome

def bodyVariables (lib : TrigLib R) (ctx : HistogramCtx R) (hp : HistogramParams R) (b : Body R) :
    Fin 6 → Option R :=
  variableOf (nbXYZToLambdaBeta lib hp b.pos ctx.sunGCDist).2
    (calc_vLOS lib b.vel b.pos ctx.sunGCDist) (calc_distance lib b.pos ctx.sunGCDist)

def entryOf (lib : TrigLib R) (ctx : HistogramCtx R) (hp : HistogramParams R) (b : Body R) :
    WorkEntry R :=
  match histSlot lib ctx hp b with
  | some n => ⟨some n, some n, some n, calc_vLOS lib b.vel b.pos ctx.sunGCDist,
      (nbXYZToLambdaBeta lib hp b.pos ctx.sunGCDist).2, calc_distance lib b.pos ctx.sunGCDist⟩
  | none => ⟨none, none, none, -1, -1, -1⟩

omit [LinearOrder R] in
theorem entryOf_bins (b : Body R) {m : ℕ} (used : (entryOf lib ctx hp b).use_velbody = some m ∨
    (entryOf lib ctx hp b).use_betabody = some m ∨ (entryOf lib ctx hp b).use_distbody = some m) :
    histSlot lib ctx hp b = some m := by
  unfold entryOf at used
  cases slot : histSlot lib ctx hp b with
  | none =>
      rw [slot] at used
      rcases used with e | e | e <;> cases e
  | some n =>
      rw [slot] at used
      rcases used with e | e | e <;> exact e

omit [LinearOrder R] in
theorem countBody_eq (s : CountState R) (b : Body R) (kept : ignoreBody b = false)
    (room : s.ub_counter < s.work.length) :
    countBody lib ctx hp s b = match histSlot lib ctx hp b with
      | some n => if n < hp.nBin then some
            { all := fun k => (s.all k).map (·.count n (bodyVariables lib ctx hp b k))
              work := s.work.set s.ub_counter (entryOf lib ctx hp b)
              ub_counter := s.ub_counter + 1
              totalNum := s.totalNum + 1 }
          else none
      | none => some { s with
          work := s.work.set s.ub_counter (entryOf lib ctx hp b)
          ub_counter := s.ub_counter + 1 } := by
  rw [countBody, if_neg (by rw [kept]; decide), entryOf]
  dsimp only
  rw [if_pos room]
  by_cases inside : (binIndices lib ctx hp b).1 < hp.lambdaBins ∧
      (binIndices lib ctx hp b).2 < hp.betaBins
  · have slot : histSlot lib ctx hp b = some _ := if_pos ⟨kept, inside⟩
    rw [if_pos inside, slot]
    rfl
  · have slot : histSlot lib ctx hp b = none := if_neg fun all => inside all.2
    rw [if_neg inside, slot]

omit [LinearOrder R] in
theorem room_of_countBody {s s' : CountState R} {b : Body R}
    (turn : countBody lib ctx hp s b = some s') (kept : ignoreBody b = false) :
    s.ub_counter < s.work.length := by
  by_contra full
  rw [countBody, if_neg (by rw [kept]; decide)] at turn
  simp only [if_neg full] at turn
  cases turn

omit [LinearOrder R] in
theorem histSlot_ignored {b : Body R} (ignored : ignoreBody b = true) :
    histSlot lib ctx hp b = none :=
  if_neg fun kept => by rw [ignored] at kept; cases kept.1

omit [Field R] [LinearOrder R] in
theorem CountedFrom.none_ {slot : Body R → Option ℕ} {done : List (Body R)} {b : Body R}
    (counted : CountedFrom slot done h h') (out : slot b = none) :
    CountedFrom slot (done ++ [b]) h h' :=
  ⟨counted.lambdaBins, counted.betaBins, fun n => by simp [counted.rawCount, out]⟩

omit [LinearOrder R] in
theorem CountedFrom.count {slot : Body R → Option ℕ} {done : List (Body R)} {b : Body R} {n : ℕ}
    (counted : CountedFrom slot done h h') (here : slot b = some n) (var : Option R) :
    CountedFrom slot (done ++ [b]) h (h'.count n var) := by
  refine ⟨counted.lambdaBins, counted.betaBins, fun m => ?_⟩
  have counts : ((h'.count n var).data m).rawCount =
      (h'.data m).rawCount + if n = m then 1 else 0 := by
    show (Function.update h'.data n _ m).rawCount = _
    by_cases own : m = n
    · rw [own, Function.update_self, if_pos rfl]
    · rw [Function.update_of_ne own, if_neg (Ne.symm own), Nat.add_zero]
  rw [counts, counted.rawCount, List.countP_append, Nat.add_assoc]
  by_cases own : n = m <;> simp [here, own]

omit [Field R] [LinearOrder R] in
theorem WorkWithin.snoc {done : List (Body R)} {b : Body R} {nBin : ℕ} {entry : WorkEntry R}
    (within : WorkWithin done work nBin) (room : done.countP (!ignoreBody ·) < work.length)
    (bins : ∀ m, entry.use_velbody = some m ∨ entry.use_betabody = some m ∨
      entry.use_distbody = some m → m < nBin) :
    WorkWithin (done ++ [b]) (work.set (done.countP (!ignoreBody ·)) entry) nBin := by
  intro n hn
  by_cases own : n = done.countP (!ignoreBody ·)
  · exact ⟨entry, by rw [own, List.getElem?_set_self room], bins⟩
  · have before : n < done.countP (!ignoreBody ·) := by
      rw [List.countP_append] at hn
      have one : [b].countP (!ignoreBody ·) ≤ 1 := List.countP_le_length
      omega
    obtain ⟨entry', here, bins'⟩ := within n before
    exact ⟨entry', by rw [List.getElem?_set_ne (Ne.symm own)]; exact here, bins'⟩

theorem rel_map {α : Type*} {r r' : α → α → Prop} {x y : Option α} {g : α → α}
    (rel : Option.Rel r x y) (imp : ∀ a b, r a b → r' a (g b)) : Option.Rel r' x (y.map g) := by
  cases rel with
  | none => exact .none
  | some h => exact .some (imp _ _ h)

theorem rel_imp {α : Type*} {r r' : α → α → Prop} {x y : Option α} (rel : Option.Rel r x y)
    (imp : ∀ a b, r a b → r' a b) : Option.Rel r' x y := by
  cases rel with
  | none => exact .none
  | some h => exact .some (imp _ _ h)

variable {all : CountedMain R} {body_count : ℕ} {done : List (Body R)} {s s' : CountState R}
  {b : Body R}

omit [LinearOrder R] in
theorem Counting.step (inv : Counting lib ctx hp all body_count done s)
    (turn : countBody lib ctx hp s b = some s') :
    Counting lib ctx hp all body_count (done ++ [b]) s' := by
  cases ignored : ignoreBody b with
  | true =>
      have out : histSlot lib ctx hp b = none := histSlot_ignored ignored
      rw [countBody, if_pos ignored, Option.some.injEq] at turn
      subst turn
      refine ⟨inv.length, by simp [inv.counter, ignored], inv.room, ?_, fun k => ?_, ?_⟩
      · intro n hn
        exact inv.work n (by simpa [ignored] using hn)
      · exact rel_imp (inv.counts k) fun _ _ counted => counted.none_ out
      · simp [inv.totalNum, out]
  | false =>
      have room := room_of_countBody turn ignored
      have eq := @countBody_eq R _ lib ctx hp s b ignored room
      have counter : s.ub_counter + 1 = (done ++ [b]).countP (!ignoreBody ·) := by
        simp [inv.counter, ignored]
      have place := inv.counter
      have more : s.ub_counter + 1 ≤ body_count := by
        rw [← inv.length]
        exact room
      rw [eq] at turn
      cases slot : histSlot lib ctx hp b with
      | none =>
          rw [slot, Option.some.injEq] at turn
          subst turn
          refine ⟨by rw [← inv.length]; simp, counter, more, ?_, fun k => ?_, ?_⟩
          · rw [place] at room ⊢
            exact inv.work.snoc room fun m used => by
              have none_ := entryOf_bins b used
              rw [slot] at none_
              cases none_
          · exact rel_imp (inv.counts k) fun _ _ counted => counted.none_ slot
          · simp [inv.totalNum, slot]
      | some n =>
          rw [slot] at turn
          dsimp only at turn
          split at turn
          · rename_i inside
            rw [Option.some.injEq] at turn
            subst turn
            refine ⟨by rw [← inv.length]; simp, counter, more, ?_, fun k => ?_, ?_⟩
            · rw [place] at room ⊢
              exact inv.work.snoc room fun m used => by
                have same := entryOf_bins b used
                rw [slot, Option.some.injEq] at same
                rw [← same]
                exact inside
            · exact rel_map (inv.counts k) fun _ _ counted => counted.count slot _
            · simp [inv.totalNum, slot]
          · cases turn

omit [LinearOrder R] in
theorem Counting.succeeds (inv : Counting lib ctx hp all body_count done s)
    (room : ignoreBody b = false → s.ub_counter < body_count)
    (bins : ∀ n, histSlot lib ctx hp b = some n → n < hp.nBin) :
    ∃ s', countBody lib ctx hp s b = some s' := by
  cases ignored : ignoreBody b with
  | true => exact ⟨s, if_pos ignored⟩
  | false =>
      have eq := @countBody_eq R _ lib ctx hp s b ignored
        (by rw [inv.length]; exact room ignored)
      rw [eq]
      cases slot : histSlot lib ctx hp b with
      | none => exact ⟨_, rfl⟩
      | some n => exact ⟨_, if_pos (bins n slot)⟩

/-! ## Bins -/

def InAxis (start size x : R) (i : ℕ) : Prop :=
  size ≠ 0 ∧ (i : R) ≤ (x - start) / size ∧ (x - start) / size < (i : R) + 1

instance (start size x : R) (i : ℕ) : Decidable (InAxis start size x i) :=
  inferInstanceAs (Decidable (_ ∧ _ ∧ _))

theorem inAxis_iff [IsStrictOrderedRing R] {start size x : R} {i : ℕ} (pos : 0 < size) :
    InAxis start size x i ↔ start + i * size ≤ x ∧ x < start + (i + 1) * size := by
  rw [InAxis, le_div_iff₀ pos, div_lt_iff₀ pos]
  constructor
  · rintro ⟨-, low, high⟩
    exact ⟨by linarith, by linarith⟩
  · rintro ⟨low, high⟩
    exact ⟨pos.ne', by linarith, by linarith⟩

def InBin (lib : TrigLib R) (ctx : HistogramCtx R) (hp : HistogramParams R) (b : Body R)
    (i j : ℕ) : Prop :=
  InAxis hp.lambdaStart (nbHistogramLambdaBinSize hp)
      (nbXYZToLambdaBeta lib hp b.pos ctx.sunGCDist).1 i ∧
    InAxis hp.betaStart (nbHistogramBetaBinSize hp)
      (nbXYZToLambdaBeta lib hp b.pos ctx.sunGCDist).2 j

instance (lib : TrigLib R) (ctx : HistogramCtx R) (hp : HistogramParams R) (b : Body R)
    (i j : ℕ) : Decidable (InBin lib ctx hp b i j) :=
  inferInstanceAs (Decidable (_ ∧ _))

/-- A body is in the range of the histogram. -/
def InRange (lib : TrigLib R) (ctx : HistogramCtx R) (hp : HistogramParams R) (b : Body R) :
    Prop :=
  ∃ i < hp.lambdaBins, ∃ j < hp.betaBins, InBin lib ctx hp b i j

instance (lib : TrigLib R) (ctx : HistogramCtx R) (hp : HistogramParams R) (b : Body R) :
    Decidable (InRange lib ctx hp b) :=
  inferInstanceAs (Decidable (∃ i < hp.lambdaBins, ∃ j < hp.betaBins, InBin lib ctx hp b i j))

/-- A histogram in which each body that is not ignored and in range is counted in its bin,
and no other body. -/
structure HistConserved (lib : TrigLib R) (ctx : HistogramCtx R) (hp : HistogramParams R)
    (bodies : List (Body R)) (h : CountedHistogram R) : Prop where
  counted : ∀ i < hp.lambdaBins, ∀ j < hp.betaBins, (h.data (i * hp.betaBins + j)).rawCount =
    bodies.countP fun b => !ignoreBody b && decide (InBin lib ctx hp b i j)
  inRange : h.totalNum = bodies.countP fun b => !ignoreBody b && decide (InRange lib ctx hp b)
  total : ∑ n ∈ Finset.range (hp.lambdaBins * hp.betaBins), (h.data n).rawCount = h.totalNum

/-- The floors of quotients that fit are right. -/
def ExactFloors (lib : TrigLib R) : Prop :=
  ∀ (a b : R) (n : ℕ), n < 2 ^ 32 → b ≠ 0 → (n : R) ≤ a / b → a / b < (n : R) + 1 →
    lib.floorQuotient a b = n

theorem InBin.indices (exact_ : ExactFloors lib) {i j : ℕ} (hi : i < 2 ^ 32) (hj : j < 2 ^ 32)
    (inside : InBin lib ctx hp b i j) : binIndices lib ctx hp b = (i, j) := by
  obtain ⟨⟨wide, low, high⟩, ⟨tall, left, right⟩⟩ := inside
  rw [binIndices, exact_ _ _ i hi wide low high, exact_ _ _ j hj tall left right]

theorem index_lt {lambdaBins betaBins i j : ℕ} (hi : i < lambdaBins) (hj : j < betaBins) :
    i * betaBins + j < lambdaBins * betaBins :=
  calc i * betaBins + j < i * betaBins + betaBins := by omega
    _ = (i + 1) * betaBins := by ring
    _ ≤ lambdaBins * betaBins := Nat.mul_le_mul_right _ hi

omit [LinearOrder R] in
theorem histSlot_lt (fits : hp.lambdaBins * hp.betaBins < 2 ^ 32) {n : ℕ}
    (slot : histSlot lib ctx hp b = some n) : n < hp.lambdaBins * hp.betaBins := by
  rw [histSlot] at slot
  split at slot
  · rename_i inside
    have index := index_lt inside.2.1 inside.2.2
    rw [Nat.mod_eq_of_lt (index.trans fits), Option.some.injEq] at slot
    exact slot ▸ index
  · cases slot

omit [LinearOrder R] in
theorem histSlot_eq_iff (fits : hp.lambdaBins * hp.betaBins < 2 ^ 32) {i j : ℕ}
    (hi : i < hp.lambdaBins) (hj : j < hp.betaBins) :
    histSlot lib ctx hp b = some (i * hp.betaBins + j) ↔
      ignoreBody b = false ∧ binIndices lib ctx hp b = (i, j) := by
  have parts : ∀ {i j : ℕ}, j < hp.betaBins →
      (i * hp.betaBins + j) / hp.betaBins = i ∧ (i * hp.betaBins + j) % hp.betaBins = j :=
    fun {i j} hj => by
      rw [Nat.mul_comm, Nat.mul_add_div (by omega), Nat.div_eq_of_lt hj, Nat.mul_add_mod,
        Nat.mod_eq_of_lt hj]
      exact ⟨rfl, rfl⟩
  rw [histSlot]
  constructor
  · intro slot
    split at slot
    · rename_i inside
      have index := index_lt inside.2.1 inside.2.2
      rw [Nat.mod_eq_of_lt (index.trans fits), Option.some.injEq] at slot
      obtain ⟨row, column⟩ := parts (i := (binIndices lib ctx hp b).1) inside.2.2
      rw [slot, (parts hj).1] at row
      rw [slot, (parts hj).2] at column
      exact ⟨inside.1, Prod.ext row.symm column.symm⟩
    · cases slot
  · rintro ⟨kept, indices⟩
    rw [indices, if_pos ⟨kept, hi, hj⟩, Nat.mod_eq_of_lt ((index_lt hi hj).trans fits)]

theorem sum_countP {α : Type*} (slot : α → Option ℕ) (N : ℕ) (l : List α)
    (inside : ∀ a ∈ l, ∀ n, slot a = some n → n < N) :
    ∑ n ∈ Finset.range N, l.countP (slot · = some n) = l.countP fun a => (slot a).isSome := by
  induction l with
  | nil => simp
  | cons a l ih =>
      simp only [List.countP_cons, Finset.sum_add_distrib]
      rw [ih fun a' ha' => inside a' (List.mem_cons_of_mem _ ha')]
      congr 1
      cases slot' : slot a with
      | none => simp
      | some n =>
          have lt := inside a List.mem_cons_self n slot'
          simp [lt]

theorem countP_le_iff {α : Type*} {P Q : α → Bool} {l : List α}
    (imp : ∀ a ∈ l, P a = true → Q a = true) :
    l.countP Q ≤ l.countP P ↔ ∀ a ∈ l, Q a = true → P a = true := by
  induction l with
  | nil => simp
  | cons a l ih =>
      have imp' := fun a' ha' => imp a' (List.mem_cons_of_mem a ha')
      have mono := List.countP_mono_left (l := l) imp'
      rw [List.forall_mem_cons, ← ih imp', List.countP_cons, List.countP_cons]
      have here := imp a List.mem_cons_self
      cases hP : P a with
      | true => simp [here hP]
      | false =>
          cases hQ : Q a with
          | true =>
              simp
              omega
          | false => simp

/-! ## Conservation -/

omit [LinearOrder R] in
theorem countBodies_eq (bodies : List (Body R)) :
    (countBodies bodies).1 = bodies.countP (·.type = 1) := by
  have rule : ∀ (l : List (Body R)) (s : ℕ × R),
      (l.foldl (fun s b => if b.type = 1 then (s.1 + 1, b.mass) else s) s).1 =
        s.1 + l.countP (·.type = 1) := by
    intro l
    induction l with
    | nil => simp
    | cons b l ih =>
        intro s
        rw [List.foldl_cons, ih, List.countP_cons]
        by_cases light : b.type = 1 <;> simp [light]
        omega
  rw [countBodies, rule, Nat.zero_add]

omit [Field R] [LinearOrder R] in
theorem kept_of_light (bodies : List (Body R)) : ∀ b ∈ bodies, decide (b.type = 1) = true →
    (!ignoreBody b) = true := by
  intro b _ light
  simp [ignoreBody, of_decide_eq_true light]

omit [LinearOrder R] in
theorem Counting.start (st : LikelihoodUse) (simulated : ℕ) (mass : R) (body_count : ℕ) :
    Counting lib ctx hp (startHistograms st hp simulated mass) body_count []
      ⟨startHistograms st hp simulated mass,
        List.replicate body_count ⟨some 0, some 0, some 0, 0.0, 0.0, 0.0⟩, 0, 0⟩ := by
  refine ⟨by simp, rfl, Nat.zero_le _, fun n hn => by simp at hn, fun k => ?_, rfl⟩
  show Option.Rel _ (startHistograms st hp simulated mass k)
    (startHistograms st hp simulated mass k)
  cases startHistograms st hp simulated mass k with
  | none => exact .none
  | some h => exact .some ⟨rfl, rfl, fun _ => rfl⟩

/-- The histograms with their totals before the steps. -/
def totalled (s : CountState R) : CountedMain R := fun k =>
  (s.all k).map fun h => { h with totalNum := s.totalNum }

theorem nbCreateHistogram_eq (st : LikelihoodUse) :
    nbCreateHistogram lib ctx st bodies hp =
      (bodies.foldlM (countBody lib ctx hp)
        ⟨startHistograms st hp (countBodies bodies).1 (countBodies bodies).2,
          List.replicate (countBodies bodies).1 ⟨some 0, some 0, some 0, 0.0, 0.0, 0.0⟩, 0, 0⟩).bind
        fun s => (histogramSteps lib ctx bodies s.work hp.nBin).foldlM applyStep (totalled s) := rfl

omit [LinearOrder R] in
theorem Counting.totalled (st : LikelihoodUse) {simulated : ℕ} {mass : R}
    (counting : Counting lib ctx hp (startHistograms st hp simulated mass) body_count bodies s)
    {k : Fin 6} {h : CountedHistogram R} (used : totalled s k = some h) : Shaped hp h ∧
      (∀ n, (h.data n).rawCount = bodies.countP (histSlot lib ctx hp · = some n)) ∧
      h.totalNum = bodies.countP fun b => (histSlot lib ctx hp b).isSome := by
  rw [NBody.totalled, Option.map_eq_some_iff] at used
  obtain ⟨h₁, counted, rfl⟩ := used
  have rel := counting.counts k
  rw [counted] at rel
  cases start : startHistograms st hp simulated mass k with
  | none => rw [start] at rel; cases rel
  | some h₀ =>
      rw [start] at rel
      have fresh : h₀ = ⟨hp.lambdaBins, hp.betaBins, 0, simulated, true, hp, mass,
          fun _ => clearBin⟩ := by
        rw [startHistograms] at start
        split at start
        · exact (Option.some.inj start).symm
        · cases start
      cases rel with
      | some counts =>
          rw [fresh] at counts
          refine ⟨⟨counts.lambdaBins, counts.betaBins⟩, fun n => ?_, counting.totalNum⟩
          have count := counts.rawCount n
          simpa [clearBin] using count

omit [LinearOrder R] in
theorem Counting.used (st : LikelihoodUse) {simulated : ℕ} {mass : R}
    (counting : Counting lib ctx hp (startHistograms st hp simulated mass) body_count bodies s)
    {k : Fin 6} (always : k.val < 3) : ∃ h, NBody.totalled s k = some h := by
  have rel := counting.counts k
  have start : startHistograms st hp simulated mass k =
      some ⟨hp.lambdaBins, hp.betaBins, 0, simulated, true, hp, mass, fun _ => clearBin⟩ :=
    if_pos (.inl always)
  rw [start] at rel
  cases counted : s.all k with
  | none => rw [counted] at rel; cases rel
  | some h => exact ⟨{ h with totalNum := s.totalNum }, by rw [NBody.totalled, counted]; rfl⟩

omit [Field R] [LinearOrder R] in
theorem step_run {before after : List (Fin 6 × (CountedHistogram R → Option (CountedHistogram R)))}
    {step : Fin 6 × (CountedHistogram R → Option (CountedHistogram R))}
    (keeps : ∀ a ∈ before, ∀ h h', a.2 h = some h' → KeptHistogram h h')
    {all all' : CountedMain R} (run : (before ++ step :: after).foldlM applyStep all = some all')
    (used : all step.1 = some h) : ∃ h' h'', step.2 h' = some h'' ∧ KeptHistogram h h' := by
  rw [List.foldlM_append, Option.bind_eq_bind, Option.bind_eq_some_iff] at run
  obtain ⟨mid, first, run⟩ := run
  rw [List.foldlM_cons, Option.bind_eq_bind, Option.bind_eq_some_iff] at run
  obtain ⟨next, turn, -⟩ := run
  have rel := foldlM_applyStep keeps first step.1
  rw [used] at rel
  cases mid' : mid step.1 with
  | none => rw [mid'] at rel; cases rel
  | some h' =>
      rw [mid'] at rel
      cases rel with
      | some same =>
          rw [applyStep, mid', Option.map_eq_some_iff] at turn
          obtain ⟨h'', stepped, -⟩ := turn
          exact ⟨h', h'', stepped, same⟩

theorem fits_of_steps {all' : CountedMain R} (st : LikelihoodUse) {simulated : ℕ} {mass : R}
    (counting : Counting lib ctx hp (startHistograms st hp simulated mass) body_count bodies s)
    (run : (histogramSteps lib ctx bodies s.work hp.nBin).foldlM applyStep (totalled s) =
      some all') : BinsFit ctx hp := by
  obtain ⟨h, used⟩ := counting.used st (k := 1) (by decide)
  obtain ⟨shaped, -⟩ := counting.totalled st used
  have fits : hp.lambdaBins * hp.betaBins < 2 ^ 32 := by
    by_contra wraps
    obtain ⟨h', h'', stepped, same⟩ := step_run (List.forall_mem_nil _) run used
    have shaped' := shaped.same same
    have stuck : nbCalcDisp lib true ctx.BetaCorrect h' = none :=
      forBins_none (by rw [shaped'.1, shaped'.2]; omega)
    exact absurd (stuck.symm.trans stepped) (by simp)
  refine ⟨fits, or_iff_not_imp_left.mpr fun some_ => ?_⟩
  by_contra negative
  have nBin : hp.nBin = hp.lambdaBins * hp.betaBins := Nat.mod_eq_of_lt fits
  have before : ∀ step ∈ (histogramSteps lib ctx bodies s.work hp.nBin).take 5, ∀ h h',
      step.2 h = some h' → KeptHistogram h h' :=
    fun step mem => histogramSteps_same step (List.mem_of_mem_take mem)
  obtain ⟨h', h'', stepped, -⟩ : ∃ h' h'', refine_ lib ctx bodies s.work (·.use_betabody)
      (·.betas) ctx.BetaSigma ctx.BetaCorrect hp.nBin h' = some h'' ∧ KeptHistogram h h' :=
    step_run before run used
  have stuck : refine_ lib ctx bodies s.work (·.use_betabody) (·.betas) ctx.BetaSigma
      ctx.BetaCorrect hp.nBin h' = none := by
    refine foldlM_range_none (Nat.pos_of_ne_zero some_) (fun t => ?_) h'
    rw [nbRemoveOutliers, if_pos (by omega)]
    rfl
  exact absurd (stuck.symm.trans stepped) (by simp)

omit [LinearOrder R] in
theorem countBody_foldlM {all : CountedMain R}
    (room : bodies.countP (!ignoreBody ·) ≤ body_count)
    (fits : hp.lambdaBins * hp.betaBins < 2 ^ 32) {s : CountState R}
    (start : Counting lib ctx hp all body_count [] s) :
    ∃ s', bodies.foldlM (countBody lib ctx hp) s = some s' ∧
      Counting lib ctx hp all body_count bodies s' := by
  refine foldlM_success (Counting lib ctx hp all body_count) start ?_
  intro done b rest s split inv
  have place : ignoreBody b = false → s.ub_counter < body_count := fun kept => by
    refine Nat.lt_of_lt_of_le ?_ room
    rw [inv.counter, ← split]
    simp [kept]
  have bins : ∀ n, histSlot lib ctx hp b = some n → n < hp.nBin := fun n slot => by
    rw [HistogramParams.nBin, Nat.mod_eq_of_lt fits]
    exact histSlot_lt fits slot
  obtain ⟨s', turn⟩ := inv.succeeds place bins
  exact ⟨s', turn, inv.step turn⟩

theorem histConserved_of_counts (exact_ : ExactFloors lib) (lambdaBins : hp.lambdaBins < 2 ^ 32)
    (betaBins : hp.betaBins < 2 ^ 32) (fits : hp.lambdaBins * hp.betaBins < 2 ^ 32)
    (inRange : ∀ b ∈ bodies, ignoreBody b = false →
      (binIndices lib ctx hp b).1 < hp.lambdaBins → (binIndices lib ctx hp b).2 < hp.betaBins →
        InRange lib ctx hp b)
    (counts : ∀ n, (h.data n).rawCount = bodies.countP (histSlot lib ctx hp · = some n))
    (totalNum : h.totalNum = bodies.countP fun b => (histSlot lib ctx hp b).isSome) :
    HistConserved lib ctx hp bodies h := by
  have bins : ∀ b ∈ bodies, ∀ i < hp.lambdaBins, ∀ j < hp.betaBins,
      (histSlot lib ctx hp b = some (i * hp.betaBins + j) ↔
        ignoreBody b = false ∧ InBin lib ctx hp b i j) := by
    intro b hb i hi j hj
    rw [histSlot_eq_iff fits hi hj]
    refine and_congr_right fun kept => ⟨fun indices => ?_, fun inside => ?_⟩
    · obtain ⟨i', hi', j', hj', inside⟩ := inRange b hb kept (by rw [indices]; exact hi)
        (by rw [indices]; exact hj)
      have same := (inside.indices exact_ (by omega) (by omega)).symm.trans indices
      rw [Prod.mk.injEq] at same
      rw [← same.1, ← same.2]
      exact inside
    · exact inside.indices exact_ (by omega) (by omega)
  refine ⟨fun i hi j hj => ?_, ?_, ?_⟩
  · rw [counts]
    refine List.countP_congr fun b hb => ?_
    simp [bins b hb i hi j hj]
  · rw [totalNum]
    refine List.countP_congr fun b hb => ?_
    rw [Option.isSome_iff_exists]
    simp only [Bool.and_eq_true, Bool.not_eq_true', decide_eq_true_eq]
    constructor
    · rintro ⟨n, slot⟩
      have inside := slot
      rw [histSlot] at inside
      split at inside
      · rename_i all
        exact ⟨all.1, inRange b hb all.1 all.2.1 all.2.2⟩
      · cases inside
    · rintro ⟨kept, i, hi, j, hj, inside⟩
      exact ⟨_, (bins b hb i hi j hj).mpr ⟨kept, inside⟩⟩
  · rw [totalNum]
    simp only [counts]
    exact sum_countP _ _ _ fun b _ n slot => histSlot_lt fits slot

end

/-! ## Bodies in the direction of the centre -/

/-- Where only the angle zero is met; floors that are no unsigned number are reduced. -/
def zeroTrig : TrigLib ℚ where
  M_PI := 355 / 113
  cos _ := 1
  sin _ := 0
  atan2 _ _ := 0
  asin _ := 0
  sqrt x := if x = 0 then 0 else 1
  floorQuotient a b := (⌊a / b⌋ % 2 ^ 32).toNat

theorem zeroTrig_exact : ExactFloors zeroTrig := by
  intro a b n small _ low high
  have floor : ⌊a / b⌋ = (n : ℤ) :=
    Int.floor_eq_iff.mpr ⟨by exact_mod_cast low, by exact_mod_cast high⟩
  show (⌊a / b⌋ % 2 ^ 32).toNat = n
  rw [floor]
  omega

def zeroHistCtx : HistogramCtx ℚ := ⟨0, 2, 5 / 2, 5 / 2, 5 / 2, 1, 1, 1⟩

/-- Two bins of a degree on each axis. -/
def fourBins : HistogramParams ℚ := ⟨0, 0, 0, -1, 1, 2, -1, 1, 2⟩

def aheadBody (type : ℤ) : Body ℚ := { pos := ⟨1, 0, 0⟩, mass := 1, type, vel := 0 }

end MilkyWay.NBody
