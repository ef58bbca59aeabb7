import MilkyWay.Foundation.Extended
import MilkyWay.NBody.Plain

/-! The comparison of two sets of histograms: its components, the likelihood of the end
of a run, and the likelihood of two files. -/

namespace MilkyWay.NBody

open Foundation

inductive NBodyLikelihoodMethod where
  | invalid
  | emd
  | origChisq
  | origAlt
  | chisqAlt
  | poisson
  | kolmogorov
  | kullbackLeibler
  | saha
deriving DecidableEq

structure HistData (R : Type) where
  useBin : Bool
  lambda : R
  beta : R
  variable_ : R
  err : R

/-- A histogram; the bins stand in memory behind it. -/
structure NBodyHistogram (R : Type) where
  lambdaBins : ℕ
  betaBins : ℕ
  totalNum : ℕ
  totalSimulated : ℕ
  massPerParticle : R
  data : ℕ → HistData R

/-- The counts, the dispersions of beta and of the velocity, and the averages of the
velocity along the line of sight, of beta and of the distance, and which there are. -/
structure MainStruct (R : Type) where
  usage : Fin 6 → Bool
  histograms : Fin 6 → NBodyHistogram R

structure WeightPos (R : Type) where
  weight : R
  lambda : R
  beta : R

/-- What the comparisons take from the library: the earth mover's distance of two lists
of weights, the other comparisons of counts, rounding and the logarithm. -/
structure HistogramLib (R : Type) where
  NAN : R
  INFINITY : R
  log : R → R
  round : R → R
  toUnsigned : R → ℕ
  emdCalc : List (WeightPos R) → List (WeightPos R) → R
  nbCalcChisq : NBodyHistogram R → NBodyHistogram R → NBodyLikelihoodMethod → R

variable {R : Type} [Zero R] [Add R] [Neg R] [Sub R] [Mul R] [Div R] [OfScientific R] [BEq R]
  [LT R] [DecidableLT R] [LE R] [DecidableLE R] [NatCast R]

def unsignedSub (a b : ℕ) : ℕ := (a + (2 ^ 32 - b % 2 ^ 32)) % 2 ^ 32

def nbMatchEMD (lib : HistogramLib R) (data histogram : MainStruct R) : R :=
  let first_data := data.histograms 0
  let first_hist := histogram.histograms 0
  let bins := first_data.lambdaBins * first_data.betaBins
  let nSim_uncut := first_hist.totalNum
  let nSim := (List.range bins).foldl (fun nSim i =>
    if (first_data.data i).useBin then nSim
    else unsignedSub nSim
      (lib.toUnsigned (lib.round ((first_hist.data i).variable_ * (nSim_uncut : R))))) nSim_uncut
  let nData := first_data.totalNum
  if first_data.lambdaBins ≠ first_hist.lambdaBins ∨ first_data.betaBins ≠ first_hist.betaBins then
    lib.NAN
  else if nSim = 0 ∨ nData = 0 then lib.INFINITY
  else if first_hist.massPerParticle ≤ 0.0 ∨ first_data.massPerParticle ≤ 0.0 then lib.NAN
  else
    let dat := (List.range bins).map fun i =>
      let bin := first_data.data i
      if bin.useBin then (⟨bin.variable_, bin.lambda, bin.beta⟩ : WeightPos R) else ⟨0.0, 0.0, 0.0⟩
    let hist := (List.range bins).map fun i =>
      let bin := first_hist.data i
      if (first_data.data i).useBin then
        (⟨bin.variable_ * (nSim_uncut : R) / (1.0 * (nSim : R)), bin.lambda, bin.beta⟩ :
          WeightPos R)
      else ⟨0.0, 0.0, 0.0⟩
    let emd := lib.round (lib.emdCalc dat hist * 1.0e9) * 1.0e-9
    if 50.0 < emd then lib.NAN else -(300.0 * lib.log (1.0 - emd / 50.0))

def nbWorstCaseEMD : R := DEFAULT_WORST_CASE

def nbCostComponent (lib : HistogramLib R) (data histogram : NBodyHistogram R) : R :=
  let nbins := data.lambdaBins * data.betaBins
  let n : R := histogram.totalSimulated
  let nSim_uncut : R := histogram.totalNum
  let nData : R := data.totalNum
  let histMass := histogram.massPerParticle
  let dataMass := data.massPerParticle
  if data.lambdaBins ≠ histogram.lambdaBins ∨ data.betaBins ≠ histogram.betaBins then lib.NAN
  else if nSim_uncut == 0.0 || nData == 0.0 then lib.INFINITY
  else if histMass ≤ 0.0 ∨ dataMass ≤ 0.0 then lib.NAN
  else
    let (nSim, nDataVariance) := (List.range nbins).foldl (fun (s : R × R) i =>
      if (data.data i).useBin then (s.1, s.2 + sqr ((data.data i).err * nData))
      else (s.1 - lib.round ((histogram.data i).variable_ * nSim_uncut), s.2)) (nSim_uncut, 0.0)
    let p := nSim / n
    let num := -sqr (dataMass * nData - histMass * nSim)
    let denom := 2.0 * (sqr dataMass * nDataVariance + sqr histMass * nSim * p * (1.0 - p))
    let CostComponent := num / denom; -CostComponent

/-- The comparison of dispersions and averages. -/
def nbLikelihood (data histogram : NBodyHistogram R) : R :=
  let nbins := data.lambdaBins * data.betaBins
  let Nsigma_sq := (List.range nbins).foldl (fun (Nsigma_sq : R) i =>
    let bin := data.data i
    let simulated := histogram.data i
    if bin.useBin && decide (0 < bin.err) then
      if 0 < simulated.err then
        Nsigma_sq + sqr (bin.variable_ - simulated.variable_) / (sqr bin.err + sqr simulated.err)
      else Nsigma_sq + 25.0
    else Nsigma_sq) 0.0
  Nsigma_sq / 2.0

def filledLikelihoods (x : R) : Likelihoods R := ⟨x, x, x, x, x, x, x, x⟩

def lacks (data histogram : MainStruct R) (i : Fin 6) : Bool :=
  !data.usage i || !histogram.usage i

/-- The likelihood at the end of a run with `nbody` bodies. -/
def nbSystemLikelihood (lib : HistogramLib R) (nbody : ℕ) (use : LikelihoodUse)
    (data histogram : MainStruct R) (method : NBodyLikelihoodMethod) : Likelihoods R :=
  if (data.histograms 0).lambdaBins ≠ (histogram.histograms 0).lambdaBins then
    filledLikelihoods lib.NAN
  else if method = .emd ∧
      ((histogram.histograms 0).totalNum : R) < 0.0001 * (nbody : R) then
    ⟨nbWorstCaseEMD, nbWorstCaseEMD, 0.0, 0.0, 0.0, 0.0, 0.0, 0.0⟩
  else
    let geometry := match method with
      | .emd => nbMatchEMD lib data histogram
      | _ => lib.nbCalcChisq (data.histograms 0) (histogram.histograms 0) method
    let cost := nbCostComponent lib (data.histograms 0) (histogram.histograms 0)
    let likelihood := geometry + cost
    let betaDispersion := nbLikelihood (data.histograms 1) (histogram.histograms 1)
    let likelihood := if use.useBetaDisp then likelihood + betaDispersion else likelihood
    let velocityDispersion := nbLikelihood (data.histograms 2) (histogram.histograms 2)
    let likelihood := if use.useVelDisp then likelihood + velocityDispersion else likelihood
    if use.useVlos && lacks data histogram 3 then filledLikelihoods lib.NAN
    else
      let LOS_velocity := nbLikelihood (data.histograms 3) (histogram.histograms 3)
      let likelihood := if use.useVlos then likelihood + LOS_velocity else likelihood
      if use.useBetaComp && lacks data histogram 4 then filledLikelihoods lib.NAN
      else
        let beta := nbLikelihood (data.histograms 4) (histogram.histograms 4)
        let likelihood := if use.useBetaComp then likelihood + beta else likelihood
        if use.useDist && lacks data histogram 5 then filledLikelihoods lib.NAN
        else
          let distance := nbLikelihood (data.histograms 5) (histogram.histograms 5)
          { likelihood := if use.useDist then likelihood + distance else likelihood
            EMD := geometry
            Mass := cost
            Beta := if use.useBetaDisp then betaDispersion else lib.NAN
            Vel := if use.useVelDisp then velocityDispersion else lib.NAN
            BetaAvg := if use.useBetaComp then beta else lib.NAN
            VelAvg := if use.useVlos then LOS_velocity else lib.NAN
            Dist := if use.useDist then distance else lib.NAN }

/-- The likelihood of two files with its components: those of a comparison that is given
up are lost. -/
def nbMatchHistogramFiles (lib : HistogramLib R) (nbReadHistogram : String → Option (MainStruct R))
    (use : LikelihoodUse) (datHist matchHist : String) : Likelihoods R :=
  match nbReadHistogram datHist, nbReadHistogram matchHist with
  | some dat, some hist =>
    let emd := nbMatchEMD lib dat hist
    let cost := nbCostComponent lib (dat.histograms 0) (hist.histograms 0)
    let likelihood := emd + cost
    let beta_disp := nbLikelihood (dat.histograms 1) (hist.histograms 1)
    let likelihood := if use.useBetaDisp then likelihood + beta_disp else likelihood
    let vel_disp := nbLikelihood (dat.histograms 2) (hist.histograms 2)
    let likelihood := if use.useVelDisp then likelihood + vel_disp else likelihood
    if use.useBetaComp && lacks dat hist 4 then filledLikelihoods lib.NAN
    else
      -- The pairs of the averages of beta and of the velocity are the other way round.
      let beta := nbLikelihood (dat.histograms 3) (hist.histograms 3)
      let likelihood := if use.useBetaComp then likelihood + beta else likelihood
      if use.useVlos && lacks dat hist 3 then filledLikelihoods lib.NAN
      else
        let LOS_velocity := nbLikelihood (dat.histograms 4) (hist.histograms 4)
        let likelihood := if use.useVlos then likelihood + LOS_velocity else likelihood
        if use.useDist && lacks dat hist 5 then filledLikelihoods lib.NAN
        else
          let distance := nbLikelihood (dat.histograms 5) (hist.histograms 5)
          { likelihood := if use.useDist then likelihood + distance else likelihood
            EMD := emd
            Mass := cost
            Beta := if use.useBetaDisp then beta_disp else lib.NAN
            Vel := if use.useVelDisp then vel_disp else lib.NAN
            BetaAvg := if use.useBetaComp then beta else lib.NAN
            VelAvg := if use.useVlos then LOS_velocity else lib.NAN
            Dist := if use.useDist then distance else lib.NAN }
  | _, _ => filledLikelihoods lib.NAN

/-! ## Files against the end of a run -/

def lacksUsed (use : LikelihoodUse) (data histogram : MainStruct R) : Bool :=
  use.useVlos && lacks data histogram 3 || use.useBetaComp && lacks data histogram 4 ||
    use.useDist && lacks data histogram 5

def sumUsed (x : R) (terms : List (Bool × R)) : R :=
  terms.foldl (fun s u => if u.1 then s + u.2 else s) x

def pairLikelihood (data histogram : MainStruct R) (i : Fin 6) : R :=
  nbLikelihood (data.histograms i) (histogram.histograms i)

/-- Where the files and the end of a run are compared in the same way. The averages of
the velocity and of beta must be as far apart as each other, unless a histogram is
missing for both; for bins that do not match, and for too few simulated bodies, only the
other one gives up. -/
def ComparedAlike (lib : HistogramLib R) (nbody : ℕ) (use : LikelihoodUse)
    (data histogram : MainStruct R) : Prop :=
  let L := pairLikelihood data histogram
  if (data.histograms 0).lambdaBins ≠ (histogram.histograms 0).lambdaBins then
    lacksUsed use data histogram ∨
      ((use.useBetaDisp → L 1 = lib.NAN) ∧ (use.useVelDisp → L 2 = lib.NAN) ∧
        (use.useBetaComp → L 3 = lib.NAN) ∧ (use.useVlos → L 4 = lib.NAN) ∧
        (use.useDist → L 5 = lib.NAN))
  else if ((histogram.histograms 0).totalNum : R) < 0.0001 * (nbody : R) then
    lacksUsed use data histogram = false ∧ use = ⟨true, true, true, true, true⟩ ∧
      nbMatchEMD lib data histogram = nbWorstCaseEMD ∧
      nbCostComponent lib (data.histograms 0) (histogram.histograms 0) = 0.0 ∧
      L 1 = 0.0 ∧ L 2 = 0.0 ∧ L 3 = 0.0 ∧ L 4 = 0.0 ∧ L 5 = 0.0
  else lacksUsed use data histogram ∨ (use.useBetaComp ∨ use.useVlos → L 3 = L 4)

def componentsOf (lib : HistogramLib R) (use : LikelihoodUse) (data histogram : MainStruct R)
    (vlos beta : R) (averages : List (Bool × R)) : Likelihoods R :=
  let L := pairLikelihood data histogram
  let emd := nbMatchEMD lib data histogram
  let cost := nbCostComponent lib (data.histograms 0) (histogram.histograms 0)
  { likelihood := sumUsed (emd + cost) ([(use.useBetaDisp, L 1), (use.useVelDisp, L 2)] ++
      averages ++ [(use.useDist, L 5)])
    EMD := emd
    Mass := cost
    Beta := if use.useBetaDisp then L 1 else lib.NAN
    Vel := if use.useVelDisp then L 2 else lib.NAN
    BetaAvg := if use.useBetaComp then beta else lib.NAN
    VelAvg := if use.useVlos then vlos else lib.NAN
    Dist := if use.useDist then L 5 else lib.NAN }

variable {lib : HistogramLib R} {nbody : ℕ} {use : LikelihoodUse} {data histogram : MainStruct R}

theorem nbMatchHistogramFiles_eq {nbReadHistogram : String → Option (MainStruct R)}
    {datHist matchHist : String} (readData : nbReadHistogram datHist = some data)
    (readMatch : nbReadHistogram matchHist = some histogram) :
    nbMatchHistogramFiles lib nbReadHistogram use datHist matchHist =
      if lacksUsed use data histogram then filledLikelihoods lib.NAN
      else componentsOf lib use data histogram (pairLikelihood data histogram 4)
        (pairLikelihood data histogram 3) [(use.useBetaComp, pairLikelihood data histogram 3),
          (use.useVlos, pairLikelihood data histogram 4)] := by
  unfold nbMatchHistogramFiles lacksUsed
  rw [readData, readMatch]
  cases vlos : use.useVlos && lacks data histogram 3 <;>
    cases beta : use.useBetaComp && lacks data histogram 4 <;>
    cases dist : use.useDist && lacks data histogram 5 <;>
    simp only [vlos, beta, dist, Bool.or_true, Bool.or_false, if_true, Bool.false_eq_true,
      if_false]
  all_goals rfl

theorem nbSystemLikelihood_eq (bins : (data.histograms 0).lambdaBins =
      (histogram.histograms 0).lambdaBins)
    (enough : ¬((histogram.histograms 0).totalNum : R) < 0.0001 * (nbody : R)) :
    nbSystemLikelihood lib nbody use data histogram .emd =
      if lacksUsed use data histogram then filledLikelihoods lib.NAN
      else componentsOf lib use data histogram (pairLikelihood data histogram 3)
        (pairLikelihood data histogram 4) [(use.useVlos, pairLikelihood data histogram 3),
          (use.useBetaComp, pairLikelihood data histogram 4)] := by
  unfold nbSystemLikelihood lacksUsed
  rw [if_neg (not_not.mpr bins), if_neg (fun few => enough few.2)]
  cases vlos : use.useVlos && lacks data histogram 3 <;>
    cases beta : use.useBetaComp && lacks data histogram 4 <;>
    cases dist : use.useDist && lacks data histogram 5 <;>
    simp only [Bool.or_true, Bool.or_false, if_true, Bool.false_eq_true, if_false]
  all_goals rfl

theorem sumUsed_swap {S : Type} [Add S] (x y : S) (used used' : Bool)
    (before after : List (Bool × S)) :
    sumUsed x (before ++ [(used, y), (used', y)] ++ after) =
      sumUsed x (before ++ [(used', y), (used, y)] ++ after) := by
  cases used <;> cases used' <;> simp [sumUsed]

theorem componentsOf_swap_iff (L₃ L₄ : R) :
    componentsOf lib use data histogram L₄ L₃ [(use.useBetaComp, L₃), (use.useVlos, L₄)] =
        componentsOf lib use data histogram L₃ L₄ [(use.useVlos, L₃), (use.useBetaComp, L₄)] ↔
      (use.useBetaComp ∨ use.useVlos → L₃ = L₄) := by
  constructor
  · rintro same (beta | vlos)
    · have average := congrArg Likelihoods.BetaAvg same
      simpa only [componentsOf, beta, if_true] using average
    · have average := congrArg Likelihoods.VelAvg same
      simpa only [componentsOf, vlos, if_true, eq_comm] using average
  · intro alike
    by_cases used : use.useBetaComp ∨ use.useVlos
    · rw [alike used]
      dsimp only [componentsOf]
      rw [sumUsed_swap]
    · obtain ⟨beta, vlos⟩ := not_or.mp used
      simp [componentsOf, sumUsed, beta, vlos]

section
variable {F : Type} [Field F] [LinearOrder F]

local instance extendedPlus : Add (Extended F) := ⟨Extended.plus⟩

theorem sumUsed_nan (terms : List (Bool × Extended F)) : sumUsed Extended.nan terms = .nan := by
  induction terms with
  | nil => rfl
  | cons term terms ih =>
      obtain ⟨used, x⟩ := term
      cases used
      · exact ih
      · rw [sumUsed, List.foldl_cons, if_pos rfl]
        exact (congrArg (sumUsed · terms) (Extended.nan_plus x)).trans ih

theorem sumUsed_zero [IsStrictOrderedRing F] (x : Extended F) (terms : List (Bool × Extended F))
    (zero : ∀ t ∈ terms, t.2 = 0.0) : sumUsed x terms = x := by
  induction terms with
  | nil => rfl
  | cons term terms ih =>
      obtain ⟨used, y⟩ := term
      obtain rfl : y = 0.0 := zero _ List.mem_cons_self
      have rest := ih fun t ht => zero t (List.mem_cons_of_mem _ ht)
      cases used
      · exact rest
      · have decimal : (0.0 : Extended F) = 0 := congrArg Extended.fin (by norm_num)
        rw [sumUsed, List.foldl_cons, if_pos rfl, decimal]
        exact (congrArg (sumUsed · terms) (Extended.plus_zero x)).trans rest

variable [Sub (Extended F)] [Mul (Extended F)] [Div (Extended F)] [NatCast (Extended F)]
  {lib : HistogramLib (Extended F)} {data histogram : MainStruct (Extended F)}

theorem nbMatchEMD_bins
    (bins : (data.histograms 0).lambdaBins ≠ (histogram.histograms 0).lambdaBins) :
    nbMatchEMD lib data histogram = lib.NAN :=
  if_pos (.inl bins)

theorem nbCostComponent_bins {data histogram : NBodyHistogram (Extended F)}
    (bins : data.lambdaBins ≠ histogram.lambdaBins) :
    nbCostComponent lib data histogram = lib.NAN :=
  if_pos (.inl bins)

theorem used_eq_nan {S : Type} {nan : S} (used : Bool) (x : S) :
    (if used then x else nan) = nan ↔ (used → x = nan) := by
  cases used <;> simp

theorem used_eq_zero {K : Type} [OfScientific K] (used : Bool) (x : Extended K) :
    (if used then x else .nan) = 0.0 ↔ used = true ∧ x = 0.0 := by
  cases used
  · exact ⟨nofun, nofun⟩
  · exact ⟨fun same => ⟨rfl, same⟩, And.right⟩

/-- The comparison of two files is that of a run which ends in the histograms of the
second one just where the two are written alike. -/
theorem nbMatchHistogramFiles_iff [IsStrictOrderedRing F] (lib : HistogramLib (Extended F))
    (nan : lib.NAN = .nan)
    (nbReadHistogram : String → Option (MainStruct (Extended F))) (nbody : ℕ)
    (use : LikelihoodUse) (data histogram : MainStruct (Extended F)) (datHist matchHist : String)
    (readData : nbReadHistogram datHist = some data)
    (readMatch : nbReadHistogram matchHist = some histogram) :
    nbMatchHistogramFiles lib nbReadHistogram use datHist matchHist =
        nbSystemLikelihood lib nbody use data histogram .emd ↔
      ComparedAlike lib nbody use data histogram := by
  rw [nbMatchHistogramFiles_eq readData readMatch]
  by_cases bins : (data.histograms 0).lambdaBins = (histogram.histograms 0).lambdaBins
  · by_cases few : ((histogram.histograms 0).totalNum : Extended F) < 0.0001 * (nbody : Extended F)
    · rw [nbSystemLikelihood, if_neg (not_not.mpr bins), if_pos (And.intro rfl few), ComparedAlike,
        if_neg (not_not.mpr bins), if_pos few]
      cases lacksUsed use data histogram
      · simp only [Bool.false_eq_true, if_false, componentsOf, Likelihoods.mk.injEq, nan,
          used_eq_zero]
        constructor
        · rintro ⟨-, emd, cost, ⟨u₁, l₁⟩, ⟨u₂, l₂⟩, ⟨u₃, l₃⟩, ⟨u₄, l₄⟩, ⟨u₅, l₅⟩⟩
          refine ⟨trivial, ?_, emd, cost, l₁, l₂, l₃, l₄, l₅⟩
          obtain ⟨_, _, _, _, _⟩ := use
          subst u₁ u₂ u₃ u₄ u₅
          rfl
        · rintro ⟨-, rfl, emd, cost, l₁, l₂, l₃, l₄, l₅⟩
          refine ⟨?_, emd, cost, ⟨rfl, l₁⟩, ⟨rfl, l₂⟩, ⟨rfl, l₃⟩, ⟨rfl, l₄⟩, ⟨rfl, l₅⟩⟩
          rw [emd, cost, l₁, l₂, l₃, l₄, l₅]
          exact sumUsed_zero _ (List.replicate 6 (true, 0.0)) fun t ht => by
            rw [List.eq_of_mem_replicate ht]
      · have ended : Extended.nan ≠ (nbWorstCaseEMD : Extended F) := nofun
        simp [filledLikelihoods, nan, ended]
    · rw [nbSystemLikelihood_eq bins few, ComparedAlike, if_neg (not_not.mpr bins), if_neg few]
      cases lacksUsed use data histogram
      · simpa only [Bool.false_eq_true, if_false, false_or] using componentsOf_swap_iff _ _
      · simp
  · rw [nbSystemLikelihood, if_pos bins, ComparedAlike, if_pos bins]
    cases lacksUsed use data histogram
    · simp only [Bool.false_eq_true, if_false, false_or, componentsOf, filledLikelihoods,
        Likelihoods.mk.injEq, nbMatchEMD_bins bins, nbCostComponent_bins bins, nan,
        used_eq_nan, true_and]
      have ended : Extended.nan + Extended.nan = (.nan : Extended F) := rfl
      rw [ended, sumUsed_nan]
      tauto
    · simp

end

/-! ## A file whose average of beta agrees -/

section
local instance rationalPlus : Add (Extended ℚ) := ⟨Extended.plus⟩
local instance rationalMinus : Sub (Extended ℚ) := ⟨Extended.map₂ (· - ·)⟩
local instance rationalTimes : Mul (Extended ℚ) := ⟨Extended.times⟩
local instance rationalDivides : Div (Extended ℚ) := ⟨Extended.map₂ (· / ·)⟩
local instance rationalOfNat : NatCast (Extended ℚ) := ⟨fun n => .fin n⟩

/-- A library in which all other comparisons find nothing. -/
def alikeLib : HistogramLib (Extended ℚ) where
  NAN := .nan
  INFINITY := .infinity
  log := fun _ => 0
  round := id
  toUnsigned := fun _ => 0
  emdCalc := fun _ _ => 0
  nbCalcChisq := fun _ _ _ => 0

def oneBin (x : ℚ) : NBodyHistogram (Extended ℚ) :=
  ⟨1, 1, 100, 1000, .fin 1, fun _ => ⟨true, 0, 0, .fin x, .fin 1⟩⟩

/-- Averages of the velocity and of beta. -/
def averagesOf (vlos beta : ℚ) : MainStruct (Extended ℚ) where
  usage := fun _ => true
  histograms := ![oneBin 1, oneBin 1, oneBin 1, oneBin vlos, oneBin beta, oneBin 1]

/-- Files that have two velocities, and the same beta. -/
def velocityFiles (file : String) : Option (MainStruct (Extended ℚ)) :=
  if file = "data" then some (averagesOf 1 1) else some (averagesOf 3 1)

theorem nbMatchHistogramFiles_velocity :
    ∃ data histogram, velocityFiles "data" = some data ∧ velocityFiles "match" = some histogram ∧
      nbMatchHistogramFiles alikeLib velocityFiles { useBetaComp := true } "data" "match" ≠
        nbSystemLikelihood alikeLib 1000 { useBetaComp := true } data histogram .emd :=
  ⟨_, _, rfl, rfl, fun same => absurd (congrArg Likelihoods.BetaAvg same) (by decide +kernel)⟩

theorem nbMatchHistogramFiles_iff_dispersions :
    nbMatchHistogramFiles alikeLib velocityFiles { useVelDisp := true, useDist := true }
        "data" "match" =
      nbSystemLikelihood alikeLib 1000 { useVelDisp := true, useDist := true } (averagesOf 1 1)
        (averagesOf 3 1) .emd :=
  (nbMatchHistogramFiles_iff alikeLib rfl velocityFiles 1000
    { useVelDisp := true, useDist := true } (averagesOf 1 1) (averagesOf 3 1) "data" "match" rfl
    rfl).mpr (by
      rw [ComparedAlike, if_neg (by decide +kernel), if_neg (by decide +kernel)]
      exact .inr (by decide))

end

end MilkyWay.NBody
