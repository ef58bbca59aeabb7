import MilkyWay.NBody.NormalizedHistogram

/-! The comparisons of counts by bins: the term of each method and the loop that combines
the terms, whose bound is the square of the number of rows. -/

namespace MilkyWay.NBody

open Foundation

/-- What the comparisons of counts take from the library. -/
structure ChisqLib (R : Type) extends TrigLib R where
  NAN : R
  INFINITY : R
  M_2PI : R
  log : R → R
  toUnsigned : R → ℕ

section
variable {R : Type} [Zero R] [Add R] [Neg R] [Sub R] [Mul R] [Div R] [OfScientific R] [BEq R]
  [LT R] [DecidableLT R] [NatCast R]

def nbSahaTerm (lib : ChisqLib R) (m s : R) : R :=
  if mw_abs m < 1.0e-10 ∨ mw_abs s < 1.0e-10 then 0.0
  else -0.5 * lib.log lib.M_2PI + (m + s + 0.5) * lib.log (m + s) - (m + 0.5) * lib.log m -
    (s + 0.5) * lib.log s

def nbPoissonTerm (lib : ChisqLib R) (f y : R) : R :=
  if mw_abs f < 1.0e-10 ∨ mw_abs y < 1.0e-10 then 2.0 * f
  else 2.0 * ((f - y) - y * lib.log (f / y))

def nbKullbackLeiblerTerm (lib : ChisqLib R) (h k : R) : R :=
  if mw_abs h < 1.0e-10 ∨ mw_abs k < 1.0e-10 then 0.0
  else
    let m := (h + k) / 2.0
    h * lib.log (h / m) + k * lib.log (k / m)

def nbChisqAlt (p q : R) : R := 0.5 * sqr (p - q) / (p + q)

/-- The number of bins that there is room for. -/
def NBodyHistogram.nBin (h : NBodyHistogram R) : ℕ := h.lambdaBins * h.betaBins % 2 ^ 32

def CountedHistogram.nBin (h : CountedHistogram R) : ℕ := h.lambdaBins * h.betaBins % 2 ^ 32

/-- The total without the bins that the data do not use, or nothing where a bin is out of
bounds. -/
def nbCorrectTotalNumberInHistogram (histogram : CountedHistogram R) (data : NBodyHistogram R) :
    Option ℕ :=
  (List.range data.nBin).foldlM (fun totalNum i =>
    if (data.data i).useBin then some totalNum
    else if i < histogram.nBin then some (unsignedSub totalNum (histogram.data i).rawCount)
    else none) histogram.totalNum

/-- The term of a method for a bin, if the method has one. -/
def chisqTerm (lib : ChisqLib R) (method : NBodyLikelihoodMethod) (data : NBodyHistogram R)
    (histogram : CountedHistogram R) (effTotalNum : R) (i : ℕ) : Option R :=
  let n := (histogram.data i).variable_
  let err := (data.data i).err
  let y := (data.data i).variable_
  match method with
  | .origChisq => some (sqr ((y - n / effTotalNum) / err))
  | .origAlt =>
      let simErr := nbNormalizedHistogramError lib.toTrigLib (lib.toUnsigned n) effTotalNum
        (histogram.totalSimulated : R)
      let err := lib.sqrt (sqr err + sqr simErr)
      some (sqr ((y - n / effTotalNum) / err))
  | .chisqAlt => some (nbChisqAlt y (n / effTotalNum))
  | .poisson => some (nbPoissonTerm lib y (n / effTotalNum))
  | .kolmogorov => some (mw_abs (y - n / effTotalNum))
  | .kullbackLeibler => some (nbKullbackLeiblerTerm lib y (n / effTotalNum))
  | .saha => some (nbSahaTerm lib n ((data.totalNum : R) * y))
  | _ => none

/-- The methods that compare the counts bin by bin. -/
def chisqMethods : List NBodyLikelihoodMethod :=
  [.origChisq, .origAlt, .chisqAlt, .poisson, .kolmogorov, .kullbackLeibler, .saha]

omit [BEq R] in
theorem chisqTerm_style {lib : ChisqLib R} {method : NBodyLikelihoodMethod}
    (style : method ∈ chisqMethods) (data : NBodyHistogram R) (histogram : CountedHistogram R)
    (effTotalNum : R) :
    ∃ term : ℕ → R, ∀ i, chisqTerm lib method data histogram effTotalNum i = some (term i) := by
  simp only [chisqMethods, List.mem_cons, List.not_mem_nil, or_false] at style
  rcases style with rfl | rfl | rfl | rfl | rfl | rfl | rfl <;> exact ⟨_, fun _ => rfl⟩

def chisqCombine (method : NBodyLikelihoodMethod) (chiSq term : R) : R :=
  if method = .kolmogorov then mw_fmax chiSq term else chiSq + term

/-- The indices that the loop visits. -/
def chisqIndices (data : NBodyHistogram R) (histogram : CountedHistogram R) : List ℕ :=
  List.range (data.lambdaBins * histogram.lambdaBins % 2 ^ 32)

/-- Calculate chisq from read data histogram and the generated histogram; nothing where
a bin is out of bounds or the method is none of these. -/
def nbCalcChisq (lib : ChisqLib R) (data : NBodyHistogram R) (histogram : CountedHistogram R)
    (method : NBodyLikelihoodMethod) : Option R :=
  if !histogram.hasRawCounts then some lib.NAN
  else if method = .saha ∧ (data.totalNum = 0 ∨ histogram.totalNum = 0) then some lib.NAN
  else if histogram.totalNum = 0 then some lib.INFINITY
  else do
    let effTotalNum ← nbCorrectTotalNumberInHistogram histogram data
    (chisqIndices data histogram).foldlM (fun chiSq i =>
      if i < data.nBin then
        if (data.data i).useBin then
          if i < histogram.nBin then
            (chisqTerm lib method data histogram (effTotalNum : R) i).map
              (chisqCombine method chiSq)
          else none
        else some chiSq
      else none) 0.0

end

/-! ## The total without the bins left out -/

section
variable {R : Type} {data : NBodyHistogram R} {histogram : CountedHistogram R}

def usedCount (data : NBodyHistogram R) (count : ℕ → ℕ) (n : ℕ) : ℕ :=
  ∑ i ∈ Finset.range n, if (data.data i).useBin then count i else 0

def unusedCount (data : NBodyHistogram R) (count : ℕ → ℕ) (n : ℕ) : ℕ :=
  ∑ i ∈ Finset.range n, if (data.data i).useBin then 0 else count i

theorem usedCount_add (data : NBodyHistogram R) (count : ℕ → ℕ) (n : ℕ) :
    usedCount data count n + unusedCount data count n = ∑ i ∈ Finset.range n, count i := by
  rw [usedCount, unusedCount, ← Finset.sum_add_distrib]
  refine Finset.sum_congr rfl fun i _ => ?_
  split <;> simp

theorem unsignedSub_eq {a b : ℕ} (le : b ≤ a) (small : a < 2 ^ 32) : unsignedSub a b = a - b := by
  unfold unsignedSub
  omega

theorem nbCorrectTotalNumberInHistogram_isSome (room : data.nBin ≤ histogram.nBin) :
    ∃ total, nbCorrectTotalNumberInHistogram histogram data = some total := by
  obtain ⟨total, run, -⟩ := foldlM_range_some (n := data.nBin) (b := histogram.totalNum)
    (f := fun totalNum i =>
      if (data.data i).useBin then some totalNum
      else if i < histogram.nBin then some (unsignedSub totalNum (histogram.data i).rawCount)
      else none) (fun _ _ => True) trivial (by
        intro i totalNum lt _
        split
        · exact ⟨_, rfl, trivial⟩
        · rw [if_pos (by omega)]
          exact ⟨_, rfl, trivial⟩)
  exact ⟨total, run⟩

end

/-! ## The sum over the bins -/

section
variable {F : Type} [Field F] [LinearOrder F]

/-- The terms of the used bins added up, or the largest of them. -/
def combinedTerms (method : NBodyLikelihoodMethod) (term : ℕ → F) (bins : Finset ℕ) : F :=
  if method = .kolmogorov then bins.fold max 0 term else ∑ i ∈ bins, term i

def usedBins (data : NBodyHistogram F) (n : ℕ) : Finset ℕ :=
  (Finset.range n).filter fun i => (data.data i).useBin

omit [Field F] [LinearOrder F] in
theorem usedBins_succ (data : NBodyHistogram F) (n : ℕ) :
    usedBins data (n + 1) =
      if (data.data n).useBin then insert n (usedBins data n) else usedBins data n := by
  rw [usedBins, Finset.range_add_one, Finset.filter_insert]
  rfl

theorem combinedTerms_insert {method : NBodyLikelihoodMethod} {term : ℕ → F} {bins : Finset ℕ}
    {n : ℕ} (new : n ∉ bins) :
    combinedTerms method term (insert n bins) =
      chisqCombine method (combinedTerms method term bins) (term n) := by
  unfold combinedTerms chisqCombine
  split_ifs
  · rw [Finset.fold_insert new, mw_fmax_eq, max_comm]
  · rw [Finset.sum_insert new, add_comm]

variable {lib : ChisqLib F} {data : NBodyHistogram F} {histogram : CountedHistogram F}
  {method : NBodyLikelihoodMethod}

/-- The histograms that are compared: their shape is the same and there is something to
compare. -/
structure Comparable (data : NBodyHistogram F) (histogram : CountedHistogram F)
    (method : NBodyLikelihoodMethod) : Prop where
  lambdaBins : histogram.lambdaBins = data.lambdaBins
  betaBins : histogram.betaBins = data.betaBins
  fits : data.lambdaBins * data.betaBins < 2 ^ 32
  raw : histogram.hasRawCounts = true
  total : histogram.totalNum ≠ 0
  scale : method = .saha → data.totalNum ≠ 0

omit [Field F] [LinearOrder F] in
theorem Comparable.nBin (c : Comparable data histogram method) :
    data.nBin = data.lambdaBins * data.betaBins ∧ histogram.nBin = data.nBin := by
  rw [NBodyHistogram.nBin, CountedHistogram.nBin, c.lambdaBins, c.betaBins,
    Nat.mod_eq_of_lt c.fits]
  exact ⟨rfl, rfl⟩

theorem nbCalcChisq_eq (c : Comparable data histogram method) :
    nbCalcChisq lib data histogram method =
      (nbCorrectTotalNumberInHistogram histogram data).bind fun effTotalNum =>
        (chisqIndices data histogram).foldlM (fun chiSq i =>
          if i < data.nBin then
            if (data.data i).useBin then
              if i < histogram.nBin then
                (chisqTerm lib method data histogram (effTotalNum : F) i).map
                  (chisqCombine method chiSq)
              else none
            else some chiSq
          else none) 0.0 := by
  rw [nbCalcChisq, c.raw, if_neg (by decide), if_neg, if_neg c.total]
  · rfl
  · rintro ⟨saha, empty | empty⟩
    · exact c.scale saha empty
    · exact c.total empty

variable [IsStrictOrderedRing F]

theorem chisq_loop (c : Comparable data histogram method)
    (effTotalNum : F) {term : ℕ → F}
    (terms : ∀ i, chisqTerm lib method data histogram effTotalNum i = some (term i)) {n : ℕ}
    (room : n ≤ data.lambdaBins * data.betaBins) :
    (List.range n).foldlM (fun chiSq i =>
      if i < data.nBin then
        if (data.data i).useBin then
          if i < histogram.nBin then
            (chisqTerm lib method data histogram effTotalNum i).map (chisqCombine method chiSq)
          else none
        else some chiSq
      else none) (0.0 : F) = some (combinedTerms method term (usedBins data n)) := by
  obtain ⟨x, run, rfl⟩ := foldlM_range_some (n := n) (b := (0.0 : F)) (f := fun chiSq i =>
      if i < data.nBin then
        if (data.data i).useBin then
          if i < histogram.nBin then
            (chisqTerm lib method data histogram effTotalNum i).map (chisqCombine method chiSq)
          else none
        else some chiSq
      else none) (fun i x => x = combinedTerms method term (usedBins data i)) (by
        simp [combinedTerms, usedBins, show (0.0 : F) = 0 by norm_num]) (by
        rintro i _ lt rfl
        have inside : i < data.nBin := by rw [c.nBin.1]; omega
        refine ⟨_, ?_, rfl⟩
        rw [if_pos inside, c.nBin.2, if_pos inside, terms, usedBins_succ]
        split
        · rw [combinedTerms_insert (by simp [usedBins])]
          rfl
        · rfl)
  exact run

/-- A comparison visits each bin once and combines the terms of the used ones just where
the square of the number of rows is the number of bins. -/
theorem nbCalcChisq_iff (lib : ChisqLib F) (data : NBodyHistogram F)
    (histogram : CountedHistogram F) (method : NBodyLikelihoodMethod)
    (style : method ∈ chisqMethods) (c : Comparable data histogram method) :
    ((chisqIndices data histogram).Perm (List.range (data.lambdaBins * data.betaBins)) ∧
        ∃ effTotalNum term, nbCorrectTotalNumberInHistogram histogram data = some effTotalNum ∧
          (∀ i, chisqTerm lib method data histogram (effTotalNum : F) i = some (term i)) ∧
          nbCalcChisq lib data histogram method =
            some (combinedTerms method term
              (usedBins data (data.lambdaBins * data.betaBins)))) ↔
      data.lambdaBins * data.lambdaBins % 2 ^ 32 = data.lambdaBins * data.betaBins := by
  rw [chisqIndices, c.lambdaBins]
  constructor
  · rintro ⟨visits, -⟩
    have length := visits.length_eq
    rwa [List.length_range, List.length_range] at length
  · intro square
    obtain ⟨effTotalNum, total⟩ : ∃ total, nbCorrectTotalNumberInHistogram histogram data =
        some total := nbCorrectTotalNumberInHistogram_isSome c.nBin.2.ge
    obtain ⟨term, terms⟩ : ∃ term : ℕ → F, ∀ i,
        chisqTerm lib method data histogram effTotalNum i = some (term i) :=
      chisqTerm_style style data histogram effTotalNum
    refine ⟨by rw [square], effTotalNum, term, total, terms, ?_⟩
    rw [nbCalcChisq_eq c, total, Option.bind_some, chisqIndices, c.lambdaBins, square]
    exact chisq_loop c effTotalNum terms le_rfl

end

/-! ## Two rows of one bin -/

/-- A library for comparisons that need neither roots nor logarithms. -/
def plainLib : ChisqLib ℚ :=
  { fifthsLib with
    NAN := 0
    INFINITY := 0
    M_2PI := 710 / 113
    log := fun _ => 0
    toUnsigned := fun x => ⌊x⌋.toNat }

/-- Two bodies in rows of `betaBins` bins, one in each of the first two bins. -/
def pairHistogram (betaBins : ℕ) : CountedHistogram ℚ :=
  { lambdaBins := 2
    betaBins
    totalNum := 2
    totalSimulated := 2
    hasRawCounts := true
    params := ⟨0, 0, 0, 0, 1, 2, 0, 1, betaBins⟩
    massPerParticle := 1
    data := fun n =>
      if n < 2 then { (clearBin : CountedBin ℚ) with rawCount := 1, variable_ := 1 / 2 }
      else clearBin }

def pairData (betaBins : ℕ) : NBodyHistogram ℚ :=
  ⟨2, betaBins, 2, 2, 1, fun n => ⟨true, 0, 0, if n < 2 then 1 / 2 else 0, 1⟩⟩

theorem comparable_pair {betaBins : ℕ} (fits : 2 * betaBins < 2 ^ 32) :
    Comparable (pairData betaBins) (pairHistogram betaBins) .origChisq :=
  ⟨rfl, rfl, fits, rfl, by simp [pairHistogram], nofun⟩

/-- With two rows of one bin the loop goes on behind the arrays. -/
theorem nbCalcChisq_rows :
    ¬((chisqIndices (pairData 1) (pairHistogram 1)).Perm
          (List.range ((pairData 1).lambdaBins * (pairData 1).betaBins)) ∧
        ∃ effTotalNum term,
          nbCorrectTotalNumberInHistogram (pairHistogram 1) (pairData 1) = some effTotalNum ∧
          (∀ i, chisqTerm plainLib .origChisq (pairData 1) (pairHistogram 1) (effTotalNum : ℚ) i =
            some (term i)) ∧
          nbCalcChisq plainLib (pairData 1) (pairHistogram 1) .origChisq =
            some (combinedTerms .origChisq term
              (usedBins (pairData 1) ((pairData 1).lambdaBins * (pairData 1).betaBins)))) := by
  rintro ⟨-, effTotalNum, term, -, -, result⟩
  have outside : nbCalcChisq plainLib (pairData 1) (pairHistogram 1) .origChisq = none := by
    decide +kernel
  rw [outside] at result
  cases result

theorem nbCalcChisq_iff_square :
    ((chisqIndices (pairData 2) (pairHistogram 2)).Perm
          (List.range ((pairData 2).lambdaBins * (pairData 2).betaBins)) ∧
        ∃ effTotalNum term,
          nbCorrectTotalNumberInHistogram (pairHistogram 2) (pairData 2) = some effTotalNum ∧
          (∀ i, chisqTerm plainLib .origChisq (pairData 2) (pairHistogram 2) (effTotalNum : ℚ) i =
            some (term i)) ∧
          nbCalcChisq plainLib (pairData 2) (pairHistogram 2) .origChisq =
            some (combinedTerms .origChisq term
              (usedBins (pairData 2) ((pairData 2).lambdaBins * (pairData 2).betaBins)))) ↔
      (pairData 2).lambdaBins * (pairData 2).lambdaBins % 2 ^ 32 =
        (pairData 2).lambdaBins * (pairData 2).betaBins :=
  nbCalcChisq_iff plainLib (pairData 2) (pairHistogram 2) .origChisq (by decide)
    (comparable_pair (by decide))

end MilkyWay.NBody
