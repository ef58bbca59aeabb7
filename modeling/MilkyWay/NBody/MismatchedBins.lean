import MilkyWay.Foundation.Simulation
import MilkyWay.NBody.SimulatedTotal

/-! Histograms whose bins do not match. The comparisons with every element that they read;
some read an element of the histogram for each bin of the data before they look at the
number of bins, and some never look. Each array has one bin more than it was made for. -/

namespace MilkyWay.NBody

open Foundation

/-- A set of histograms whose bins have been counted. -/
structure CountedSet (R : Type) where
  usage : Fin 6 → Bool
  histograms : Fin 6 → CountedHistogram R

def CountedSet.compared {R : Type} (s : CountedSet R) : MainStruct R :=
  ⟨s.usage, fun k => (s.histograms k).compared⟩

/-! ## The comparisons within the arrays -/

section
variable {R : Type} [Zero R] [Add R] [Neg R] [Sub R] [Mul R] [Div R] [OfScientific R] [BEq R]
  [LT R] [DecidableLT R] [LE R] [DecidableLE R] [NatCast R]

def spareBin : HistData R := ⟨false, 0, 0, 0, 0⟩

def NBodyHistogram.allocated (h : NBodyHistogram R) : NBodyHistogram R :=
  { h with data := fun i => if i < h.nBin then h.data i else spareBin }

def CountedHistogram.allocated (h : CountedHistogram R) : CountedHistogram R :=
  { h with data := fun i => if i < h.nBin then h.data i else ⟨spareBin, 0, 0, 0, 0⟩ }

def NBodyHistogram.bin? (h : NBodyHistogram R) (i : ℕ) : Option (HistData R) :=
  if i ≤ h.nBin then some (h.allocated.data i) else none

def nbCorrectTotalNumberInHistogramIn (histogram : CountedHistogram R)
    (data : NBodyHistogram R) : Option ℕ :=
  (List.range data.nBin).foldlM (fun totalNum i => do
    let bin ← data.bin? i
    if bin.useBin then return totalNum
    else if i ≤ histogram.nBin then
      return unsignedSub totalNum (histogram.allocated.data i).rawCount
    else none) histogram.totalNum

def nbCalcChisqIn (lib : ChisqLib R) (data : NBodyHistogram R) (histogram : CountedHistogram R)
    (method : NBodyLikelihoodMethod) : Option R :=
  if !histogram.hasRawCounts then some lib.NAN
  else if method = .saha ∧ (data.totalNum = 0 ∨ histogram.totalNum = 0) then some lib.NAN
  else if histogram.totalNum = 0 then some lib.INFINITY
  else do
    let effTotalNum ← nbCorrectTotalNumberInHistogramIn histogram data
    (chisqIndices data histogram).foldlM (fun chiSq i => do
      let bin ← data.bin? i
      if bin.useBin then
        if i ≤ histogram.nBin then
          (chisqTerm lib method data.allocated histogram.allocated (effTotalNum : R) i).map
            (chisqCombine method chiSq)
        else none
      else return chiSq) 0.0

open Foundation.Numerals in
def nbMatchEMDIn (lib : HistogramLib R) (data histogram : MainStruct R) : Option R := do
  let first_data := data.histograms 0
  let first_hist := histogram.histograms 0
  let nSim_uncut := first_hist.totalNum
  let nSim ← (List.range first_data.nBin).foldlM (fun nSim i => do
    let bin ← first_data.bin? i
    if bin.useBin then return nSim
    else
      let simulated ← first_hist.bin? i
      return unsignedSub nSim (lib.toUnsigned (lib.round (simulated.variable_ * (nSim_uncut : R)))))
    nSim_uncut
  let nData := first_data.totalNum
  if first_data.lambdaBins ≠ first_hist.lambdaBins ∨ first_data.betaBins ≠ first_hist.betaBins then
    return lib.NAN
  else if nSim = 0 ∨ nData = 0 then return lib.INFINITY
  else if first_hist.massPerParticle ≤ 0.0 ∨ first_data.massPerParticle ≤ 0.0 then return lib.NAN
  else
    let weights ← (List.range first_data.nBin).mapM fun i => do
      let bin ← first_data.bin? i
      if bin.useBin then
        let simulated ← first_hist.bin? i
        return ((⟨bin.variable_, bin.lambda, bin.beta⟩ : WeightPos R),
          (⟨simulated.variable_ * (nSim_uncut : R) / (1.0 * (nSim : R)), simulated.lambda,
            simulated.beta⟩ : WeightPos R))
      else return (⟨0.0, 0.0, 0.0⟩, ⟨0.0, 0.0, 0.0⟩)
    let emd := lib.round (lib.emdCalc (weights.map (·.1)) (weights.map (·.2)) * 1.0e9) * 1.0e-9
    return if 50.0 < emd then lib.NAN else -(300.0 * lib.log (1.0 - emd / 50.0))

def nbCostComponentIn (lib : HistogramLib R) (data histogram : NBodyHistogram R) : Option R :=
  let n : R := histogram.totalSimulated
  let nSim_uncut : R := histogram.totalNum
  let nData : R := data.totalNum
  let histMass := histogram.massPerParticle
  let dataMass := data.massPerParticle
  if data.lambdaBins ≠ histogram.lambdaBins ∨ data.betaBins ≠ histogram.betaBins then some lib.NAN
  else if nSim_uncut == 0.0 || nData == 0.0 then some lib.INFINITY
  else if histMass ≤ 0.0 ∨ dataMass ≤ 0.0 then some lib.NAN
  else do
    let (nSim, nDataVariance) ← (List.range data.nBin).foldlM (fun (s : R × R) i => do
      let bin ← data.bin? i
      if bin.useBin then return (s.1, s.2 + sqr (bin.err * nData))
      else
        let simulated ← histogram.bin? i
        return (s.1 - lib.round (simulated.variable_ * nSim_uncut), s.2)) (nSim_uncut, 0.0)
    let p := nSim / n
    let num := -sqr (dataMass * nData - histMass * nSim)
    let denom := 2.0 * (sqr dataMass * nDataVariance + sqr histMass * nSim * p * (1.0 - p))
    return -(num / denom)

def nbLikelihoodIn (data histogram : NBodyHistogram R) : Option R := do
  let Nsigma_sq ← (List.range data.nBin).foldlM (fun (Nsigma_sq : R) i => do
    let bin ← data.bin? i
    if bin.useBin then
      let simulated ← histogram.bin? i
      return if 0 < bin.err then
          if 0 < simulated.err then Nsigma_sq + sqr (bin.variable_ - simulated.variable_) /
            (sqr bin.err + sqr simulated.err)
          else Nsigma_sq + 25.0
        else Nsigma_sq
    else return Nsigma_sq) 0.0
  return Nsigma_sq / 2.0

/-- The comparison of the two histograms at `k`, if it is asked for; a histogram that is
not used has no data. -/
def componentIn (lib : HistogramLib R) (used : Bool) (data histogram : MainStruct R) (k : Fin 6) :
    Option R :=
  if used then
    if lacks data histogram k then none
    else nbLikelihoodIn (data.histograms k) (histogram.histograms k)
  else some lib.NAN

open Foundation.Numerals in
def geometryIn (lib : HistogramLib R) (chisq : ChisqLib R) (data : MainStruct R)
    (histogram : CountedSet R) (method : NBodyLikelihoodMethod) : Option R :=
  if method = .emd then nbMatchEMDIn lib data histogram.compared
  else nbCalcChisqIn chisq (data.histograms 0) (histogram.histograms 0) method

def addUsed (used : Bool) (likelihood component : R) : R :=
  if used then likelihood + component else likelihood

open Foundation.Numerals in
def nbSystemLikelihoodIn (lib : HistogramLib R) (chisq : ChisqLib R) (nbody : ℕ)
    (use : LikelihoodUse) (data : MainStruct R) (histogram : CountedSet R)
    (method : NBodyLikelihoodMethod) : Option (Likelihoods R) :=
  let hist := histogram.compared
  if (data.histograms 0).lambdaBins ≠ (hist.histograms 0).lambdaBins then
    some (filledLikelihoods lib.NAN)
  else if method = .emd ∧ ((hist.histograms 0).totalNum : R) < 0.0001 * (nbody : R) then
    some ⟨nbWorstCaseEMD, nbWorstCaseEMD, 0.0, 0.0, 0.0, 0.0, 0.0, 0.0⟩
  else do
    let geometry ← geometryIn lib chisq data histogram method
    let cost ← nbCostComponentIn lib (data.histograms 0) (hist.histograms 0)
    let likelihood := geometry + cost
    let betaDispersion ← componentIn lib use.useBetaDisp data hist 1
    let likelihood := addUsed use.useBetaDisp likelihood betaDispersion
    let velocityDispersion ← componentIn lib use.useVelDisp data hist 2
    let likelihood := addUsed use.useVelDisp likelihood velocityDispersion
    if use.useVlos && lacks data hist 3 then return filledLikelihoods lib.NAN
    else
      let LOS_velocity ← componentIn lib use.useVlos data hist 3
      let likelihood := addUsed use.useVlos likelihood LOS_velocity
      if use.useBetaComp && lacks data hist 4 then return filledLikelihoods lib.NAN
      else
        let beta ← componentIn lib use.useBetaComp data hist 4
        let likelihood := addUsed use.useBetaComp likelihood beta
        if use.useDist && lacks data hist 5 then return filledLikelihoods lib.NAN
        else
          let distance ← componentIn lib use.useDist data hist 5
          let likelihood := addUsed use.useDist likelihood distance
          return ⟨likelihood, geometry, cost, betaDispersion, velocityDispersion, beta,
            LOS_velocity, distance⟩

open Foundation.Numerals in
def nbMatchHistogramFilesIn (lib : HistogramLib R)
    (nbReadHistogram : String → Option (MainStruct R)) (use : LikelihoodUse)
    (datHist matchHist : String) : Option R :=
  match nbReadHistogram datHist, nbReadHistogram matchHist with
  | some dat, some hist => do
      let emd ← nbMatchEMDIn lib dat hist
      let cost ← nbCostComponentIn lib (dat.histograms 0) (hist.histograms 0)
      let likelihood := emd + cost
      let beta_disp ← componentIn lib use.useBetaDisp dat hist 1
      let likelihood := addUsed use.useBetaDisp likelihood beta_disp
      let vel_disp ← componentIn lib use.useVelDisp dat hist 2
      let likelihood := addUsed use.useVelDisp likelihood vel_disp
      if use.useBetaComp && lacks dat hist 4 then return lib.NAN
      else
        -- The pairs of the averages of beta and of the velocity are the other way round.
        let beta ← componentIn lib use.useBetaComp dat hist 3
        let likelihood := addUsed use.useBetaComp likelihood beta
        if use.useVlos && lacks dat hist 3 then return lib.NAN
        else
          let LOS_velocity ← componentIn lib use.useVlos dat hist 4
          let likelihood := addUsed use.useVlos likelihood LOS_velocity
          if use.useDist && lacks dat hist 5 then return lib.NAN
          else
            let distance ← componentIn lib use.useDist dat hist 5
            return addUsed use.useDist likelihood distance
  | _, _ => some lib.NAN

/-! ## What is read -/

def BinsWithin (used : Bool) (data histogram : NBodyHistogram R) : Prop :=
  ∀ i < data.nBin, (data.data i).useBin = used → i ≤ histogram.nBin

def PairWithin (data histogram : MainStruct R) (k : Fin 6) : Prop :=
  lacks data histogram k = false ∧
    BinsWithin true (data.histograms k) (histogram.histograms k)

def ChisqWithin (data : NBodyHistogram R) (histogram : CountedHistogram R)
    (method : NBodyLikelihoodMethod) : Prop :=
  histogram.hasRawCounts = false ∨ method = .saha ∧ data.totalNum = 0 ∨ histogram.totalNum = 0 ∨
    BinsWithin false data histogram.compared ∧ ∀ i ∈ chisqIndices data histogram,
      i ≤ data.nBin ∧ (i < data.nBin → (data.data i).useBin = true → i ≤ histogram.nBin)

variable {lib : HistogramLib R} {chisq : ChisqLib R} {data histogram : MainStruct R}
  {method : NBodyLikelihoodMethod}

theorem isSome_bind_some {α β : Type} (x : Option α) (f : α → β) :
    (x.bind fun a => some (f a)).isSome = x.isSome := by
  cases x <;> rfl

section
omit [Add R] [Neg R] [Sub R] [Mul R] [Div R] [OfScientific R] [BEq R] [LT R] [DecidableLT R]
  [LE R] [DecidableLE R] [NatCast R]

theorem NBodyHistogram.bin?_of_lt (h : NBodyHistogram R) {i : ℕ} (lt : i < h.nBin) :
    h.bin? i = some (h.data i) := by
  rw [NBodyHistogram.bin?, if_pos lt.le]
  exact congrArg some (if_pos lt)

theorem NBodyHistogram.bin?_isSome (h : NBodyHistogram R) (i : ℕ) :
    (h.bin? i).isSome = true ↔ i ≤ h.nBin := by
  rw [NBodyHistogram.bin?]
  by_cases inside : i ≤ h.nBin <;> simp [inside]

theorem readTurn_isSome {α : Type} (used : Bool) (data histogram : NBodyHistogram R)
    (f : HistData R → α) (g : HistData R → HistData R → α) {i : ℕ} (lt : i < data.nBin) :
    ((data.bin? i).bind fun bin =>
        if bin.useBin = used then (histogram.bin? i).bind fun simulated => some (g bin simulated)
        else some (f bin)).isSome = true ↔ ((data.data i).useBin = used → i ≤ histogram.nBin) := by
  rw [data.bin?_of_lt lt, Option.bind_some]
  by_cases here : (data.data i).useBin = used
  · rw [if_pos here, isSome_bind_some, histogram.bin?_isSome]
    simp [here]
  · simp [here]

end

omit [Neg R] [BEq R] [LE R] [DecidableLE R] [NatCast R] in
theorem nbLikelihoodIn_isSome (data histogram : NBodyHistogram R) :
    (nbLikelihoodIn data histogram).isSome = true ↔ BinsWithin true data histogram := by
  simp only [nbLikelihoodIn, Option.pure_def, Option.bind_eq_bind]
  rw [isSome_bind_some]
  refine foldlM_range_isSome_iff (fun i lt Nsigma_sq => ?_) _
  exact readTurn_isSome true data histogram _ _ lt

/-! ## Bins that match -/

omit [Neg R] [BEq R] [LE R] [DecidableLE R] [NatCast R] in
theorem nbLikelihoodIn_eq {data histogram : NBodyHistogram R}
    (lambdaBins : data.lambdaBins = histogram.lambdaBins)
    (betaBins : data.betaBins = histogram.betaBins)
    (fits : data.lambdaBins * data.betaBins < 2 ^ 32) :
    nbLikelihoodIn data histogram = some (nbLikelihood data histogram) := by
  have nBin : data.nBin = data.lambdaBins * data.betaBins := Nat.mod_eq_of_lt fits
  have same : histogram.nBin = data.nBin := by
    rw [NBodyHistogram.nBin, NBodyHistogram.nBin, lambdaBins, betaBins]
  rw [nbLikelihoodIn, nbLikelihood, ← nBin, foldlM_range_eq fun i lt Nsigma_sq => ?_]
  · rfl
  · rw [data.bin?_of_lt lt, histogram.bin?_of_lt (same ▸ lt)]
    cases used : (data.data i).useBin <;> simp [used]

def emdPair (first_data first_hist : NBodyHistogram R) (nSim i : ℕ) : WeightPos R × WeightPos R :=
  if (first_data.data i).useBin then
    (⟨(first_data.data i).variable_, (first_data.data i).lambda, (first_data.data i).beta⟩,
      ⟨(first_hist.data i).variable_ * (first_hist.totalNum : R) / (1.0 * (nSim : R)),
        (first_hist.data i).lambda, (first_hist.data i).beta⟩)
  else (⟨0.0, 0.0, 0.0⟩, ⟨0.0, 0.0, 0.0⟩)

omit [Zero R] [Add R] [Neg R] [Sub R] [BEq R] [LT R] [DecidableLT R] [LE R] [DecidableLE R] in
theorem emdPair_fst {first_data first_hist : NBodyHistogram R} {nSim : ℕ}
    (fits : first_data.nBin = first_data.lambdaBins * first_data.betaBins) :
    ((List.range first_data.nBin).map (emdPair first_data first_hist nSim)).map (·.1) =
      emdDat first_data := by
  rw [fits, emdDat, List.map_map]
  refine List.map_congr_left fun i _ => ?_
  dsimp only [Function.comp, emdPair]
  split <;> rfl

omit [Zero R] [Add R] [Neg R] [Sub R] [BEq R] [LT R] [DecidableLT R] [LE R] [DecidableLE R] in
theorem emdPair_snd {first_data first_hist : NBodyHistogram R} {nSim : ℕ}
    (fits : first_data.nBin = first_data.lambdaBins * first_data.betaBins) :
    ((List.range first_data.nBin).map (emdPair first_data first_hist nSim)).map (·.2) =
      emdHist first_data first_hist nSim := by
  rw [fits, emdHist, List.map_map]
  refine List.map_congr_left fun i _ => ?_
  dsimp only [Function.comp, emdPair]
  split <;> rfl

omit [Add R] [BEq R] in
theorem nbMatchEMDIn_eq (lib : HistogramLib R) {data histogram : MainStruct R}
    (lambdaBins : (data.histograms 0).lambdaBins = (histogram.histograms 0).lambdaBins)
    (betaBins : (data.histograms 0).betaBins = (histogram.histograms 0).betaBins)
    (fits : (data.histograms 0).lambdaBins * (data.histograms 0).betaBins < 2 ^ 32) :
    nbMatchEMDIn lib data histogram = some (nbMatchEMD lib data histogram) := by
  have nBin : (data.histograms 0).nBin =
    (data.histograms 0).lambdaBins * (data.histograms 0).betaBins := Nat.mod_eq_of_lt fits
  have same : (histogram.histograms 0).nBin = (data.histograms 0).nBin := by
    rw [NBodyHistogram.nBin, NBodyHistogram.nBin, lambdaBins, betaBins]
  have read : ∀ i < (data.histograms 0).nBin,
      (data.histograms 0).bin? i = some ((data.histograms 0).data i) ∧
        (histogram.histograms 0).bin? i = some ((histogram.histograms 0).data i) := fun i lt =>
    ⟨(data.histograms 0).bin?_of_lt lt, (histogram.histograms 0).bin?_of_lt (same ▸ lt)⟩
  have differ : ¬((data.histograms 0).lambdaBins ≠ (histogram.histograms 0).lambdaBins ∨
      (data.histograms 0).betaBins ≠ (histogram.histograms 0).betaBins) := by
    rw [not_or, not_not, not_not]
    exact ⟨lambdaBins, betaBins⟩
  rw [nbMatchEMD_eq, nbMatchEMDIn, foldlM_range_eq (g := fun nSim i =>
    if ((data.histograms 0).data i).useBin then nSim
    else unsignedSub nSim (emdCount lib (histogram.histograms 0) i)) fun i lt nSim => ?turn]
  · simp only [Option.bind_eq_bind, Option.bind_some, Option.pure_def, if_neg differ]
    rw [mapM_range_eq (g := emdPair (data.histograms 0) (histogram.histograms 0)
      (emdTotal lib (data.histograms 0) (histogram.histograms 0) (data.histograms 0).nBin))
      fun i lt => ?weights]
    · rw [Option.bind_some, emdPair_fst nBin, emdPair_snd nBin, ← nBin]
      refine Eq.trans ?_ (apply_ite some _ _ _).symm
      congr 1
      exact (apply_ite some _ _ _).symm
    case weights =>
      rw [(read i lt).1, (read i lt).2, emdPair]
      cases used : ((data.histograms 0).data i).useBin <;> simp [used, emdTotal]
  case turn =>
    rw [(read i lt).1, (read i lt).2]
    cases used : ((data.histograms 0).data i).useBin <;> simp [used, emdCount]

omit [LT R] [DecidableLT R] in
theorem nbCostComponentIn_eq (lib : HistogramLib R) {data histogram : NBodyHistogram R}
    (lambdaBins : data.lambdaBins = histogram.lambdaBins)
    (betaBins : data.betaBins = histogram.betaBins)
    (fits : data.lambdaBins * data.betaBins < 2 ^ 32) :
    nbCostComponentIn lib data histogram = some (nbCostComponent lib data histogram) := by
  have nBin : data.nBin = data.lambdaBins * data.betaBins := Nat.mod_eq_of_lt fits
  have same : histogram.nBin = data.nBin := by
    rw [NBodyHistogram.nBin, NBodyHistogram.nBin, lambdaBins, betaBins]
  have differ : ¬(data.lambdaBins ≠ histogram.lambdaBins ∨
      data.betaBins ≠ histogram.betaBins) := by
    rw [not_or, not_not, not_not]
    exact ⟨lambdaBins, betaBins⟩
  rw [nbCostComponent_eq, nbCostComponentIn, if_neg differ, if_neg differ,
    foldlM_range_eq (g := fun s i =>
      if (data.data i).useBin then (s.1, s.2 + sqr ((data.data i).err * (data.totalNum : R)))
      else (s.1 - lib.round ((histogram.data i).variable_ * (histogram.totalNum : R)), s.2))
      fun i lt s => ?turn]
  · refine Eq.trans ?_ (apply_ite some _ _ _).symm
    congr 1
    refine Eq.trans ?_ (apply_ite some _ _ _).symm
    congr 1
    rw [costNum, costDenom, costProbability, ← nBin]
    rfl
  case turn =>
    rw [data.bin?_of_lt lt, histogram.bin?_of_lt (same ▸ lt)]
    cases used : (data.data i).useBin <;> simp [used]

omit [LE R] [DecidableLE R] in
theorem nbCalcChisqIn_eq {chisq : ChisqLib R} {data : NBodyHistogram R}
    {histogram : CountedHistogram R} {x : R}
    (run : nbCalcChisq chisq data histogram method = some x) :
    nbCalcChisqIn chisq data histogram method = some x := by
  have total : Simulates Eq (nbCorrectTotalNumberInHistogram histogram data)
      (nbCorrectTotalNumberInHistogramIn histogram data) := by
    refine Simulates.foldlM _ (fun i hi n n' same => ?_) rfl
    subst same
    rw [data.bin?_of_lt (List.mem_range.mp hi)]
    cases used : (data.data i).useBin with
    | true => simpa [used] using Simulates.refl (some n)
    | false =>
        by_cases inside : i < histogram.nBin
        · simpa [used, inside, inside.le, CountedHistogram.allocated] using Simulates.refl _
        · simpa [used, inside] using Simulates.none _
  have turn : ∀ (effTotalNum : R) (i : ℕ), i < data.nBin → i < histogram.nBin →
      chisqTerm chisq method data.allocated histogram.allocated effTotalNum i =
        chisqTerm chisq method data histogram effTotalNum i := by
    intro effTotalNum i lt inside
    simp only [chisqTerm, NBodyHistogram.allocated, CountedHistogram.allocated, if_pos lt,
      if_pos inside]
  refine Simulates.eq_some ?_ run
  unfold nbCalcChisq nbCalcChisqIn
  split
  · exact Simulates.refl _
  split
  · exact Simulates.refl _
  split
  · exact Simulates.refl _
  refine .bind total fun n _ same => Simulates.foldlM _ (fun i _ chiSq _ same' => ?_) rfl
  subst same same'
  by_cases lt : i < data.nBin
  · rw [data.bin?_of_lt lt, if_pos lt]
    cases used : (data.data i).useBin with
    | false => simpa [used] using Simulates.refl _
    | true =>
        by_cases inside : i < histogram.nBin
        · simpa [used, inside, inside.le, turn _ i lt inside] using Simulates.refl _
        · simpa [used, inside] using Simulates.none _
  · rw [if_neg lt]
    exact Simulates.none _

omit [Add R] [BEq R] in
theorem nbMatchEMDIn_mismatch (lib : HistogramLib R) (data histogram : MainStruct R)
    (differ : (data.histograms 0).lambdaBins ≠ (histogram.histograms 0).lambdaBins ∨
      (data.histograms 0).betaBins ≠ (histogram.histograms 0).betaBins) :
    (nbMatchEMDIn lib data histogram).isSome = true ↔
      BinsWithin false (data.histograms 0) (histogram.histograms 0) := by
  simp only [nbMatchEMDIn, Option.pure_def, Option.bind_eq_bind, if_pos differ]
  rw [isSome_bind_some]
  refine foldlM_range_isSome_iff (fun i lt nSim => ?_) _
  have turn := readTurn_isSome false (data.histograms 0) (histogram.histograms 0)
    (fun _ => nSim) (fun _ simulated => unsignedSub nSim (lib.toUnsigned (lib.round
      (simulated.variable_ * ((histogram.histograms 0).totalNum : R))))) lt
  rw [← turn]
  refine iff_of_eq (congrArg (Option.isSome · = true) (congrArg _ ?_))
  funext bin
  cases bin.useBin <;> rfl

omit [LT R] [DecidableLT R] in
theorem nbCostComponentIn_mismatch (lib : HistogramLib R) {data histogram : NBodyHistogram R}
    (differ : data.lambdaBins ≠ histogram.lambdaBins ∨ data.betaBins ≠ histogram.betaBins) :
    nbCostComponentIn lib data histogram = some lib.NAN :=
  if_pos differ

omit [Neg R] [BEq R] [LE R] [DecidableLE R] [NatCast R] in
theorem componentIn_isSome (used : Bool) (k : Fin 6) :
    (componentIn lib used data histogram k).isSome = true ↔
      (used = true → PairWithin data histogram k) := by
  rw [componentIn, PairWithin]
  cases used with
  | false => simp
  | true =>
      cases missing : lacks data histogram k with
      | true => simp
      | false => simpa using nbLikelihoodIn_isSome _ _

omit [Add R] [Neg R] [Sub R] [Mul R] [Div R] [OfScientific R] [BEq R] [LT R] [DecidableLT R]
  [LE R] [DecidableLE R] [NatCast R] in
theorem correctedTotal_isSome (data : NBodyHistogram R) (histogram : CountedHistogram R) :
    (nbCorrectTotalNumberInHistogramIn histogram data).isSome = true ↔
      BinsWithin false data histogram.compared := by
  refine foldlM_range_isSome_iff (fun i lt totalNum => ?_) _
  show _ ↔ ((data.data i).useBin = false → i ≤ histogram.nBin)
  rw [data.bin?_of_lt lt]
  cases used : (data.data i).useBin with
  | true => simp [used]
  | false => by_cases inside : i ≤ histogram.nBin <;> simp [used, inside]

omit [LE R] [DecidableLE R] in
theorem nbCalcChisqIn_isSome (chisq : ChisqLib R) (data : NBodyHistogram R)
    (histogram : CountedHistogram R) (style : method ∈ chisqMethods) :
    (nbCalcChisqIn chisq data histogram method).isSome = true ↔
      ChisqWithin data histogram method := by
  have loop : ∀ effTotalNum : ℕ, ((chisqIndices data histogram).foldlM (fun chiSq i => do
      let bin ← data.bin? i
      if bin.useBin then
        if i ≤ histogram.nBin then
          (chisqTerm chisq method data.allocated histogram.allocated (effTotalNum : R) i).map
            (chisqCombine method chiSq)
        else none
      else return chiSq) 0.0).isSome = true ↔ ∀ i ∈ chisqIndices data histogram,
        i ≤ data.nBin ∧ (i < data.nBin → (data.data i).useBin = true → i ≤ histogram.nBin) := by
    intro effTotalNum
    obtain ⟨term, terms⟩ : ∃ term : ℕ → R, ∀ i, chisqTerm chisq method data.allocated
        histogram.allocated effTotalNum i = some (term i) :=
      chisqTerm_style style data.allocated histogram.allocated effTotalNum
    simp only [chisqIndices, List.mem_range]
    refine foldlM_range_isSome_iff (fun i _ chiSq => ?_) _
    rw [terms]
    obtain lt | rfl | past := lt_trichotomy i data.nBin
    · rw [data.bin?_of_lt lt]
      cases used : (data.data i).useBin with
      | true => by_cases inside : i ≤ histogram.nBin <;> simp [used, lt, lt.le, inside]
      | false => simp [used, lt, lt.le]
    · have spare : data.bin? data.nBin = some spareBin :=
        (if_pos le_rfl).trans (congrArg some (if_neg (lt_irrefl _)))
      simp [spare, spareBin]
    · have outside : data.bin? i = none := if_neg (not_le.mpr past)
      simp [outside, past]
  rw [nbCalcChisqIn, ChisqWithin]
  cases raw : histogram.hasRawCounts with
  | false => simp
  | true =>
      by_cases empty : histogram.totalNum = 0
      · by_cases saha : method = .saha <;> simp [empty, saha]
      · by_cases unscaled : method = .saha ∧ data.totalNum = 0
        · simp [unscaled]
        · have goesOn : ¬(method = .saha ∧ (data.totalNum = 0 ∨ histogram.totalNum = 0)) := by
            tauto
          rw [if_neg (by decide), if_neg goesOn, if_neg empty]
          simp only [Bool.true_eq_false, unscaled, empty, false_or]
          rw [← correctedTotal_isSome]
          cases nbCorrectTotalNumberInHistogramIn histogram data with
          | none => simp
          | some effTotalNum => simpa using loop effTotalNum

/-- The averages are compared until a histogram is missing: `asked` tells which, `named`
where a missing histogram is noticed, `compared` which pair is compared. -/
def AveragesWithin (data histogram : MainStruct R) : List (Bool × Fin 6 × Fin 6) → Prop
  | [] => True
  | (asked, named, compared) :: rest =>
      if asked then
        lacks data histogram named = true ∨
          PairWithin data histogram compared ∧ AveragesWithin data histogram rest
      else AveragesWithin data histogram rest

open Foundation.Numerals in
/-- The end of a run is refused, where the bins of the data do not match. -/
def SystemRefuses (nbody : ℕ) (use : LikelihoodUse) (data : MainStruct R)
    (histogram : CountedSet R) (method : NBodyLikelihoodMethod) : Prop :=
  (data.histograms 0).lambdaBins ≠ (histogram.histograms 0).lambdaBins ∨
    ¬(method = .emd ∧ ((histogram.histograms 0).totalNum : R) < 0.0001 * (nbody : R)) ∧
    (if method = .emd then BinsWithin false (data.histograms 0) (histogram.compared.histograms 0)
      else ChisqWithin (data.histograms 0) (histogram.histograms 0) method) ∧
    (use.useBetaDisp = true → PairWithin data histogram.compared 1) ∧
    (use.useVelDisp = true → PairWithin data histogram.compared 2) ∧
    AveragesWithin data histogram.compared
      [(use.useVlos, 3, 3), (use.useBetaComp, 4, 4), (use.useDist, 5, 5)]

open Foundation.Numerals in
/-- A file is refused, where the bins of the data do not match. -/
def FilesRefuse (use : LikelihoodUse) (data histogram : MainStruct R) : Prop :=
  BinsWithin false (data.histograms 0) (histogram.histograms 0) ∧
    (use.useBetaDisp = true → PairWithin data histogram 1) ∧
    (use.useVelDisp = true → PairWithin data histogram 2) ∧
    AveragesWithin data histogram
      [(use.useBetaComp, 4, 3), (use.useVlos, 3, 4), (use.useDist, 5, 5)]

end

/-! ## What is refused -/

section
open Extended Extended.Arithmetic

variable {F : Type} [Field F] [LinearOrder F] {lib : HistogramLib (Extended F)}
  {data histogram : MainStruct (Extended F)}

/-- A result that is no number, with nothing read outside the arrays. -/
def Refused {α : Type} (value : α → Extended F) (result : Option α) : Prop :=
  ∃ x, result = some x ∧ value x = nan

omit [Field F] [LinearOrder F] in
theorem refused_some {α : Type} {value : α → Extended F} {x : α} :
    Refused value (some x) ↔ value x = nan := by
  simp [Refused]

omit [Field F] [LinearOrder F] in
theorem refused_bind {α β : Type} {value : β → Extended F} {x : Option α} {f : α → Option β}
    {p : Prop} (each : ∀ a, Refused value (f a) ↔ p) :
    Refused value (x.bind f) ↔ x.isSome = true ∧ p := by
  cases x with
  | none => simp [Refused]
  | some a => simpa using each a

theorem addUsed_nan (used : Bool) (x : Extended F) : addUsed used nan x = nan := by
  cases used
  · rfl
  · exact nan_add

theorem refused_used {β : Type} {value : β → Extended F} {asked : Bool} {k : Fin 6}
    {f : Extended F → Option β} {p : Prop} (each : ∀ x, Refused value (f x) ↔ p) :
    Refused value ((componentIn lib asked data histogram k).bind f) ↔
      (asked = true → PairWithin data histogram k) ∧ p := by
  rw [refused_bind each, componentIn_isSome]

theorem refused_average {β : Type} {value : β → Extended F} {asked : Bool}
    {named compared : Fin 6} {given : β} (nan_ : value given = nan) {f : Extended F → Option β}
    {rest : List (Bool × Fin 6 × Fin 6)}
    (each : ∀ x, Refused value (f x) ↔ AveragesWithin data histogram rest) :
    Refused value (if (asked && lacks data histogram named) = true then some given
        else (componentIn lib asked data histogram compared).bind f) ↔
      AveragesWithin data histogram ((asked, named, compared) :: rest) := by
  rw [AveragesWithin]
  cases asked with
  | false =>
      rw [Bool.false_and, if_neg Bool.false_ne_true, refused_bind each, componentIn_isSome,
        if_neg Bool.false_ne_true]
      simp
  | true =>
      rw [Bool.true_and, if_pos rfl]
      cases missing : lacks data histogram named with
      | true => simp [refused_some, nan_]
      | false =>
          rw [if_neg Bool.false_ne_true, refused_bind each, componentIn_isSome]
          simp

/-- Bins that do not match are refused just where every element that is read exists and
the bodies are not too few. -/
theorem nbSystemLikelihood_refuses_iff (lib : HistogramLib (Extended F)) (noNumber : lib.NAN = nan)
    (chisq : ChisqLib (Extended F)) (nbody : ℕ) (use : LikelihoodUse)
    (data : MainStruct (Extended F)) (histogram : CountedSet (Extended F))
    (method : NBodyLikelihoodMethod) (valid : method = .emd ∨ method ∈ chisqMethods)
    (differ : (data.histograms 0).lambdaBins ≠ (histogram.histograms 0).lambdaBins ∨
      (data.histograms 0).betaBins ≠ (histogram.histograms 0).betaBins)
    (nbReadHistogram : String → Option (MainStruct (Extended F))) (datHist matchHist : String)
    (readData : nbReadHistogram datHist = some data)
    (readMatch : nbReadHistogram matchHist = some histogram.compared) :
    (Refused (·.likelihood) (nbSystemLikelihoodIn lib chisq nbody use data histogram method) ↔
        SystemRefuses nbody use data histogram method) ∧
      (Refused id (nbMatchHistogramFilesIn lib nbReadHistogram use datHist matchHist) ↔
        FilesRefuse use data histogram.compared) := by
  have cost : nbCostComponentIn lib (data.histograms 0) (histogram.compared.histograms 0) =
      some nan := noNumber ▸ nbCostComponentIn_mismatch lib differ
  have given : (filledLikelihoods lib.NAN).likelihood = nan := noNumber
  have given' : id lib.NAN = nan := noNumber
  have bins : (histogram.compared.histograms 0).lambdaBins =
      (histogram.histograms 0).lambdaBins := rfl
  have total : (histogram.compared.histograms 0).totalNum = (histogram.histograms 0).totalNum :=
    rfl
  constructor
  · simp only [nbSystemLikelihoodIn, SystemRefuses, Option.bind_eq_bind, Option.pure_def, cost,
      Option.bind_some, bins, total]
    by_cases same : (data.histograms 0).lambdaBins = (histogram.histograms 0).lambdaBins
    · rw [if_neg (not_not.mpr same)]
      by_cases few : method = .emd ∧
          ((histogram.histograms 0).totalNum : Extended F) < 0.0001 * (nbody : Extended F)
      · have worst : nbWorstCaseEMD ≠ (nan : Extended F) := nofun
        rw [if_pos few, refused_some]
        exact iff_of_false worst fun refuses => (refuses.resolve_left (not_not.mpr same)).1 few
      · rw [if_neg few, or_iff_right (not_not.mpr same), and_iff_right few]
        have geometry : (geometryIn lib chisq data histogram method).isSome = true ↔
            if method = .emd then
              BinsWithin false (data.histograms 0) (histogram.compared.histograms 0)
            else ChisqWithin (data.histograms 0) (histogram.histograms 0) method := by
          rw [geometryIn]
          by_cases emd : method = .emd
          · rw [if_pos emd, if_pos emd]
            exact nbMatchEMDIn_mismatch lib data histogram.compared differ
          · rw [if_neg emd, if_neg emd]
            exact nbCalcChisqIn_isSome chisq _ _ (valid.resolve_left emd)
        rw [← geometry]
        refine refused_bind fun x => refused_used fun beta => refused_used fun vel =>
          refused_average given fun los => refused_average given fun average =>
            refused_average given fun distance => ?_
        rw [refused_some, AveragesWithin]
        simp only [add_nan, addUsed_nan]
    · rw [if_pos same, refused_some]
      exact iff_of_true given (.inl same)
  · simp only [nbMatchHistogramFilesIn, readData, readMatch, FilesRefuse, Option.bind_eq_bind,
      Option.pure_def, cost, Option.bind_some]
    rw [← nbMatchEMDIn_mismatch lib data histogram.compared differ]
    refine refused_bind fun x => refused_used fun beta => refused_used fun vel =>
      refused_average given' fun average => refused_average given' fun los =>
        refused_average given' fun distance => ?_
    rw [refused_some, AveragesWithin]
    simp only [add_nan, addUsed_nan, id]

end

/-! ## Bins against one bin -/

section
open Extended Extended.Arithmetic

def gaveUpLib : HistogramLib (Extended ℚ) where
  NAN := .nan
  INFINITY := .infinity
  log := fun _ => 0
  round := id
  toUnsigned := fun _ => 0
  emdCalc := fun _ _ => 0
  nbCalcChisq := fun _ _ _ => 0

/-- A library for comparisons of counts that are not reached. -/
def noChisqLib : ChisqLib (Extended ℚ) :=
  { M_PI := 0
    cos := id
    sin := id
    atan2 := fun _ _ => 0
    asin := id
    sqrt := id
    floorQuotient := fun _ _ => 0
    NAN := .nan
    INFINITY := .infinity
    M_2PI := 0
    log := id
    toUnsigned := fun _ => 0 }

/-- Data of a row of `betaBins` bins, of which those from `unused` on are not in use. -/
def rowData (betaBins unused : ℕ) : MainStruct (Extended ℚ) where
  usage := fun k => decide (k.val < 3)
  histograms := fun _ =>
    ⟨1, betaBins, 100, 1000, fin 1, fun n => ⟨decide (n < unused), 0, 0, fin 1, fin 1⟩⟩

/-- A histogram of a hundred bodies in one bin. -/
def singleBin : CountedSet (Extended ℚ) where
  usage := fun k => decide (k.val < 3)
  histograms := fun _ => ⟨1, 1, 100, 1000, true, ⟨0, 0, 0, 0, 0, 1, 0, 0, 1⟩, fin 1,
    fun _ => ⟨⟨true, 0, 0, fin 1, fin 1⟩, 100, 0, 0, 0⟩⟩

def rowFiles (betaBins unused : ℕ) (file : String) : Option (MainStruct (Extended ℚ)) :=
  if file = "data" then some (rowData betaBins unused) else some singleBin.compared

/-- The third bin is not in use, and the histogram is asked for its count: that is behind
its one bin and the spare one. -/
theorem nbSystemLikelihood_unused :
    ¬(Refused (·.likelihood)
        (nbSystemLikelihoodIn gaveUpLib noChisqLib 1000 {} (rowData 3 2) singleBin .emd) ∧
      Refused id (nbMatchHistogramFilesIn gaveUpLib (rowFiles 3 2) {} "data" "match")) := by
  rintro ⟨⟨x, run, -⟩, -⟩
  have outside : (nbSystemLikelihoodIn gaveUpLib noChisqLib 1000 {} (rowData 3 2) singleBin
      .emd).isNone = true := by
    decide +kernel
  rw [run] at outside
  cases outside

theorem nbSystemLikelihood_refuses_iff_row :
    (Refused (·.likelihood)
          (nbSystemLikelihoodIn gaveUpLib noChisqLib 1000 {} (rowData 2 1) singleBin .emd) ↔
        SystemRefuses 1000 {} (rowData 2 1) singleBin .emd) ∧
      (Refused id (nbMatchHistogramFilesIn gaveUpLib (rowFiles 2 1) {} "data" "match") ↔
        FilesRefuse {} (rowData 2 1) singleBin.compared) :=
  nbSystemLikelihood_refuses_iff gaveUpLib rfl noChisqLib 1000 {} (rowData 2 1) singleBin .emd
    (.inl rfl) (.inr (by decide)) (rowFiles 2 1) "data" "match" rfl rfl

end

end MilkyWay.NBody
