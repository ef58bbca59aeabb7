import MilkyWay.NBody.Chisq

/-! A histogram compared with data that have its own counts. The counts are normalized
twice, so that only a single body compares well. -/

namespace MilkyWay.NBody

open Foundation Extended Extended.Arithmetic

section
variable {F : Type}

/-- A histogram as one of numbers that may be infinite or none. -/
def HistogramParams.extended (hp : HistogramParams F) : HistogramParams (Extended F) :=
  ⟨fin hp.phi, fin hp.theta, fin hp.psi, fin hp.lambdaStart, fin hp.lambdaEnd, hp.lambdaBins,
    fin hp.betaStart, fin hp.betaEnd, hp.betaBins⟩

def CountedBin.extended (bin : CountedBin F) : CountedBin (Extended F) :=
  ⟨⟨bin.useBin, fin bin.lambda, fin bin.beta, fin bin.variable_, fin bin.err⟩, bin.rawCount,
    fin bin.sum, fin bin.sq_sum, fin bin.outliersRemoved⟩

def CountedHistogram.extended (h : CountedHistogram F) : CountedHistogram (Extended F) :=
  ⟨h.lambdaBins, h.betaBins, h.totalNum, h.totalSimulated, h.hasRawCounts, h.params.extended,
    fin h.massPerParticle, fun n => (h.data n).extended⟩

/-- The methods under which a perfect match should count nothing. -/
def matchMethods : List NBodyLikelihoodMethod :=
  [.origChisq, .chisqAlt, .poisson, .kolmogorov, .kullbackLeibler]

/-- The data use all bins, have the counts of the histogram and errors that are numbers
greater than zero. -/
structure PerfectMatch [Zero F] [LT F] (data : NBodyHistogram (Extended F))
    (h : CountedHistogram F) : Prop where
  lambdaBins : data.lambdaBins = h.lambdaBins
  betaBins : data.betaBins = h.betaBins
  used : ∀ n < h.lambdaBins * h.betaBins, (data.data n).useBin = true
  count : ∀ n < h.lambdaBins * h.betaBins, (data.data n).variable_ = fin (h.data n).variable_
  err : ∀ n < h.lambdaBins * h.betaBins, ∃ e : F, 0 < e ∧ (data.data n).err = fin e

end

section
variable {F : Type} [Field F] [LinearOrder F] {lib : ChisqLib (Extended F)}
  {data : NBodyHistogram (Extended F)} {bodies : List (Body F)} {hp : HistogramParams F}
  {h : CountedHistogram F} {method : NBodyLikelihoodMethod}

theorem PerfectMatch.nBin (m : PerfectMatch data h) (g : Generated bodies hp h) :
    data.nBin = h.lambdaBins * h.betaBins ∧ h.extended.nBin = h.lambdaBins * h.betaBins := by
  rw [NBodyHistogram.nBin, CountedHistogram.nBin, m.lambdaBins, m.betaBins]
  exact ⟨Nat.mod_eq_of_lt g.fits, Nat.mod_eq_of_lt g.fits⟩

theorem PerfectMatch.effTotalNum (m : PerfectMatch data h) (g : Generated bodies hp h) :
    nbCorrectTotalNumberInHistogram h.extended data = some h.totalNum := by
  obtain ⟨total, run, rfl⟩ := foldlM_range_some (n := data.nBin) (b := h.extended.totalNum)
    (f := fun totalNum i =>
      if (data.data i).useBin then some totalNum
      else if i < h.extended.nBin then
        some (unsignedSub totalNum (h.extended.data i).rawCount)
      else none) (fun _ total => total = h.totalNum) rfl (by
        rintro i _ lt rfl
        rw [(m.nBin g).1] at lt
        exact ⟨_, if_pos (m.used i lt), rfl⟩)
  exact run

def matchLoop (lib : ChisqLib (Extended F)) (data : NBodyHistogram (Extended F))
    (h : CountedHistogram F) (method : NBodyLikelihoodMethod) (chiSq : Extended F) (i : ℕ) :
    Option (Extended F) :=
  if i < h.lambdaBins * h.betaBins then
    (chisqTerm lib method data h.extended (fin (h.totalNum : F)) i).map (chisqCombine method chiSq)
  else none

theorem matchLoop_congr (m : PerfectMatch data h) (g : Generated bodies hp h) :
    (fun (chiSq : Extended F) i =>
      if i < data.nBin then
        if (data.data i).useBin then
          if i < h.extended.nBin then
            (chisqTerm lib method data h.extended ((h.totalNum : ℕ) : Extended F) i).map
              (chisqCombine method chiSq)
          else none
        else some chiSq
      else none) = matchLoop lib data h method := by
  funext chiSq i
  rw [matchLoop, (m.nBin g).1, (m.nBin g).2]
  by_cases inside : i < h.lambdaBins * h.betaBins
  · simp only [if_pos inside, m.used i inside, if_true]
    rfl
  · rw [if_neg inside, if_neg inside]

variable [IsStrictOrderedRing F]

theorem PerfectMatch.nbCalcChisq_eq (m : PerfectMatch data h) (g : Generated bodies hp h)
    (positive : 0 < h.totalNum) (style : method ∈ matchMethods) :
    nbCalcChisq lib data h.extended method =
      (List.range (h.lambdaBins * h.lambdaBins % 2 ^ 32)).foldlM (matchLoop lib data h method)
        (fin 0) := by
  have notSaha : method ≠ .saha := by
    rintro rfl
    simp [matchMethods] at style
  have raw : (!h.extended.hasRawCounts) = false := by
    rw [show h.extended.hasRawCounts = true from g.raw]
    rfl
  have total : ¬h.extended.totalNum = 0 := positive.ne'
  have zero : (0.0 : Extended F) = fin 0 := congrArg fin (by norm_num)
  rw [nbCalcChisq, raw, if_neg Bool.false_ne_true, if_neg (fun saha => notSaha saha.1),
    if_neg total, m.effTotalNum g, chisqIndices, m.lambdaBins, zero, ← matchLoop_congr m g]
  rfl

/-! ## What the terms are -/

theorem extended_count (positive : 0 < h.totalNum) (i : ℕ) :
    (h.extended.data i).variable_ / fin (h.totalNum : F) =
      fin ((h.data i).variable_ / (h.totalNum : F)) :=
  fin_div (Nat.cast_ne_zero.mpr positive.ne')

theorem origChisq_loop (m : PerfectMatch data h) (positive : 0 < h.totalNum) {n : ℕ}
    (room : n ≤ h.lambdaBins * h.betaBins) :
    ∃ e : ℕ → F, (∀ i < n, 0 < e i) ∧
      (List.range n).foldlM (matchLoop lib data h .origChisq) (fin 0) =
        some (fin (∑ i ∈ Finset.range n,
          sqr (((h.data i).variable_ - (h.data i).variable_ / (h.totalNum : F)) / e i))) := by
  choose! e pos err using m.err
  refine ⟨e, fun i lt => pos i (by omega), ?_⟩
  obtain ⟨x, run, rfl⟩ := foldlM_range_some (n := n) (b := fin (0 : F))
    (f := matchLoop lib data h .origChisq) (fun i x => x = fin (∑ i ∈ Finset.range i,
      sqr (((h.data i).variable_ - (h.data i).variable_ / (h.totalNum : F)) / e i)))
    (by rw [Finset.sum_range_zero]) (by
      rintro i _ lt rfl
      have inside : i < h.lambdaBins * h.betaBins := by omega
      refine ⟨_, ?_, rfl⟩
      rw [matchLoop, if_pos inside]
      simp only [chisqTerm, extended_count positive, m.count i inside, err i inside, fin_sub,
        fin_div (pos i inside).ne', Option.map_some, chisqCombine, sqr, fin_mul, fin_add,
        Finset.sum_range_succ, reduceCtorEq, if_false])
  exact run

theorem chisqAlt_loop (m : PerfectMatch data h) (positive : 0 < h.totalNum) {n : ℕ}
    {x : Extended F} (run : (List.range n).foldlM (matchLoop lib data h .chisqAlt) (fin 0) = some x)
    {i : ℕ} (lt : i < n) (empty : (h.data i).variable_ = 0) : x = nan := by
  have stays := foldlM_invariant (fun done x => i ∈ done → x = nan)
    (fun mem => absurd mem List.not_mem_nil) (fun done a rest x x' _ inv turn mem => by
      rw [matchLoop] at turn
      split at turn
      · rename_i inside
        simp only [chisqTerm, Option.map_some, chisqCombine, reduceCtorEq, if_false,
          Option.some.injEq] at turn
        rw [← turn]
        rcases List.mem_append.mp mem with before | here
        · rw [inv before]
          exact nan_add
        · have same : i = a := List.mem_singleton.mp here
          subst same
          have term : nbChisqAlt (fin (0 : F)) (fin 0) = nan := by
            have half : (0.5 : Extended F) * sqr (fin 0 - fin 0) = fin 0 := by
              rw [fin_sub, sub_zero, sqr, fin_mul, mul_zero,
                show (0.5 : Extended F) = fin 0.5 from rfl, fin_mul, mul_zero]
            rw [nbChisqAlt, half, fin_add, add_zero, zero_div_zero]
          rw [extended_count positive, m.count i inside, empty, zero_div, term]
          exact add_nan
      · cases turn) run
  exact stays (List.mem_range.mpr lt)

omit [IsStrictOrderedRing F] in
theorem matchLoop_none {n : ℕ} (outside : h.lambdaBins * h.betaBins < n) (x : Extended F) :
    (List.range n).foldlM (matchLoop lib data h method) x = none :=
  foldlM_range_none outside (fun _ => if_neg (lt_irrefl _)) x

theorem chisqTerm_single (logOne : lib.log (fin 1) = fin 0) (m : PerfectMatch data h)
    (inside : 0 < h.lambdaBins * h.betaBins) (one : h.totalNum = 1)
    (count : (h.data 0).variable_ = 1) (style : method ∈ matchMethods) :
    matchLoop lib data h method (fin 0) 0 = some (fin 0) := by
  obtain ⟨e, pos, err⟩ := m.err 0 inside
  have value : (h.extended.data 0).variable_ / fin (h.totalNum : F) = fin 1 := by
    rw [extended_count (by omega), count, one, Nat.cast_one, div_one]
  have large : ¬mw_abs (fin (1 : F)) < 1.0e-10 := by
    have below : ¬fin (1 : F) < 0 := fun less => absurd (fin_lt_fin.mp less) (by norm_num)
    rw [mw_abs, if_neg below]
    exact fun less => absurd (fin_lt_fin.mp less) (by norm_num)
  have absolute : mw_abs (fin (0 : F)) = fin 0 := by
    have below : ¬fin (0 : F) < 0 := fun less => lt_irrefl _ (fin_lt_fin.mp less)
    rw [mw_abs, if_neg below]
  have two : (2.0 : Extended F) = fin 2 := congrArg fin (by norm_num)
  rw [matchLoop, if_pos inside]
  simp only [matchMethods, List.mem_cons, List.not_mem_nil, or_false] at style
  rcases style with rfl | rfl | rfl | rfl | rfl
  · simp only [chisqTerm, value, m.count 0 inside, count, err, fin_sub, fin_div pos.ne',
      Option.map_some, chisqCombine, sqr, fin_mul, fin_add, reduceCtorEq, if_false, sub_self,
      zero_div, mul_zero, add_zero]
  · have half : (0.5 : Extended F) = fin 0.5 := rfl
    simp only [chisqTerm, value, m.count 0 inside, count, nbChisqAlt, half, fin_sub, sub_self,
      sqr, fin_mul, mul_zero, fin_add, Option.map_some, chisqCombine, reduceCtorEq, if_false]
    rw [fin_div (by norm_num), zero_div, fin_add, add_zero]
  · simp only [chisqTerm, value, m.count 0 inside, count, nbPoissonTerm, large, or_self, if_false,
      two, fin_sub, sub_self, fin_div one_ne_zero, div_one, logOne, fin_mul, mul_zero,
      Option.map_some, chisqCombine, reduceCtorEq, fin_add, add_zero]
  · simp only [chisqTerm, value, m.count 0 inside, count, fin_sub, sub_self, absolute,
      Option.map_some, chisqCombine, if_true]
    have equal : ¬fin (0 : F) < fin 0 := fun less => lt_irrefl _ (fin_lt_fin.mp less)
    have number : (fin (0 : F) != fin 0) = false := by
      have same : (fin (0 : F) == fin 0) = true := decide_eq_true rfl
      rw [bne, same]
      rfl
    rw [mw_fmax, number, if_neg Bool.false_ne_true, if_neg equal]
  · simp only [chisqTerm, value, m.count 0 inside, count, nbKullbackLeiblerTerm, large, or_self,
      if_false, two, fin_add, Option.map_some, chisqCombine, reduceCtorEq]
    rw [fin_div two_ne_zero, one_add_one_eq_two, div_self two_ne_zero, fin_div one_ne_zero, div_one,
      logOne, fin_mul, mul_zero, fin_add, add_zero, fin_add, add_zero]

/-- A histogram compared with its own counts has no distance under every method just where
its one body is in the one bin that is compared, or none is. -/
theorem nbCalcChisq_match_iff (lib : ChisqLib (Extended F)) (logOne : lib.log (fin 1) = fin 0)
    (trig : TrigLib F) (ctx : HistogramCtx F) (st : LikelihoodUse) (bodies : List (Body F))
    (hp : HistogramParams F) (all : CountedMain F)
    (made : nbCreateHistogram trig ctx st bodies hp = some all) (h : CountedHistogram F)
    (counts : all 0 = some h) (positive : 0 < h.totalNum) (data : NBodyHistogram (Extended F))
    (m : PerfectMatch data h) :
    (∀ method ∈ matchMethods, nbCalcChisq lib data h.extended method = some (fin 0)) ↔
      h.lambdaBins * h.lambdaBins % 2 ^ 32 = 0 ∨
        h.lambdaBins * h.lambdaBins % 2 ^ 32 = 1 ∧ h.totalNum = 1 ∧ (h.data 0).rawCount = 1 := by
  obtain ⟨h', counts', g⟩ := nbCreateHistogram_generated made
  rw [counts, Option.some.injEq] at counts'
  subst counts'
  set visited := h.lambdaBins * h.lambdaBins % 2 ^ 32 with visited_eq
  have loop : ∀ method ∈ matchMethods, nbCalcChisq lib data h.extended method =
      (List.range visited).foldlM (matchLoop lib data h method) (fin 0) :=
    fun method style => m.nbCalcChisq_eq g positive style
  constructor
  · intro zero
    by_cases none : visited = 0
    · exact .inl none
    · have start : 0 < visited := Nat.pos_of_ne_zero none
      have orig := zero .origChisq (by decide)
      have alt := zero .chisqAlt (by decide)
      rw [loop _ (by decide)] at orig alt
      have room : visited ≤ h.lambdaBins * h.betaBins := by
        by_contra outside
        rw [matchLoop_none (by omega)] at orig
        cases orig
      have filled : ∀ i < visited, (h.data i).variable_ ≠ 0 :=
        fun i lt empty => nomatch chisqAlt_loop m positive alt lt empty
      obtain ⟨e, pos, sum⟩ := @origChisq_loop _ _ _ lib _ _ _ m positive _ room
      rw [sum, Option.some.injEq] at orig
      have terms := (Finset.sum_eq_zero_iff_of_nonneg fun i _ => mul_self_nonneg
        (((h.data i).variable_ - (h.data i).variable_ / (h.totalNum : F)) / e i)).mp
        (fin_injective orig)
      have term := mul_self_eq_zero.mp (terms 0 (Finset.mem_range.mpr start))
      have total : (h.totalNum : F) ≠ 0 := Nat.cast_ne_zero.mpr positive.ne'
      rw [div_eq_zero_iff, or_iff_left (pos 0 start).ne', sub_eq_zero, eq_div_iff total] at term
      have one : h.totalNum = 1 := by
        have cast := mul_left_cancel₀ (filled 0 start) (term.trans (mul_one _).symm)
        exact_mod_cast cast
      -- each bin that is compared holds a body
      have bodies_ : ∀ i ∈ Finset.range visited, 1 ≤ (h.data i).rawCount := by
        intro i mem
        have lt := Finset.mem_range.mp mem
        refine Nat.one_le_iff_ne_zero.mpr fun empty => filled i lt ?_
        rw [g.count i (by omega), empty, Nat.cast_zero, zero_div]
      have few := (Finset.card_nsmul_le_sum _ _ 1 bodies_).trans
        (Finset.sum_le_sum_of_subset (Finset.range_subset_range.mpr room))
      rw [g.total, one, Finset.card_range, smul_eq_mul, mul_one] at few
      have first := Finset.single_le_sum (f := fun n => (h.data n).rawCount)
        (fun n _ => Nat.zero_le _) (Finset.mem_range.mpr (by omega :
          0 < h.lambdaBins * h.betaBins))
      rw [g.total, one] at first
      have some_ := bodies_ 0 (Finset.mem_range.mpr start)
      exact .inr ⟨by omega, one, le_antisymm first some_⟩
  · rintro (none | ⟨one, total, count⟩) method style
    · rw [loop method style, none]
      rfl
    · have inside : 0 < h.lambdaBins * h.betaBins := by
        refine Nat.pos_of_ne_zero fun empty => ?_
        have sum := g.total
        rw [empty, Finset.sum_range_zero] at sum
        omega
      have value : (h.data 0).variable_ = 1 := by
        rw [g.count 0 inside, count, total, Nat.cast_one, div_one]
      rw [loop method style, one, List.range_one, List.foldlM_cons,
        chisqTerm_single logOne m inside total value style]
      rfl

end

/-! ## Two bodies in one bin -/

/-- The logarithm where only that of 1 is met. -/
def unitLib : ChisqLib (Extended ℚ) :=
  { M_PI := fin (355 / 113)
    cos := fun _ => fin 1
    sin := fun _ => fin 0
    atan2 := fun _ _ => fin 0
    asin := fun _ => fin 0
    sqrt := id
    floorQuotient := fun _ _ => 0
    NAN := .nan
    INFINITY := .infinity
    M_2PI := fin (710 / 113)
    log := Extended.map fun x => x - 1
    toUnsigned := fun _ => 0 }

def unitBin : HistogramParams ℚ := ⟨0, 0, 0, -1, 1, 1, -1, 1, 1⟩

def unitData : NBodyHistogram (Extended ℚ) :=
  ⟨1, 1, 2, 2, fin 1, fun _ => ⟨true, fin 0, fin 0, fin 1, fin 1⟩⟩

/-- Two bodies in the only bin are compared as one half. -/
theorem nbCalcChisq_match_two :
    ∃ all h, nbCreateHistogram zeroTrig zeroHistCtx {} [aheadBody 1, aheadBody 1] unitBin =
        some all ∧ all 0 = some h ∧ 0 < h.totalNum ∧ PerfectMatch unitData h ∧
      nbCalcChisq unitLib unitData h.extended .origChisq ≠ some (fin 0) := by
  obtain ⟨all, made⟩ : ∃ all, nbCreateHistogram zeroTrig zeroHistCtx {}
      [aheadBody 1, aheadBody 1] unitBin = some all :=
    Option.isSome_iff_exists.mp (by decide +kernel)
  obtain ⟨h, counts, g⟩ := nbCreateHistogram_generated made
  have facts : ((nbCreateHistogram zeroTrig zeroHistCtx {} [aheadBody 1, aheadBody 1]
      unitBin).bind (· 0)).any (fun h => h.totalNum == 2 && (h.data 0).variable_ == 1 &&
        nbCalcChisq unitLib unitData h.extended .origChisq != some (fin 0)) = true := by
    decide +kernel
  rw [made, Option.bind_some, counts, Option.any_some, Bool.and_eq_true, Bool.and_eq_true,
    beq_iff_eq, beq_iff_eq] at facts
  have bins : h.lambdaBins * h.betaBins = 1 := by
    rw [g.lambdaBins, g.betaBins]
    rfl
  refine ⟨all, h, made, counts, by omega, ⟨g.lambdaBins.symm, g.betaBins.symm, fun _ _ => rfl,
    fun n lt => ?_, fun _ _ => ⟨1, one_pos, rfl⟩⟩, fun same => ?_⟩
  · have first : n = 0 := by omega
    rw [first, facts.1.2]
    rfl
  · have differ := facts.2
    rw [same] at differ
    revert differ
    decide

theorem nbCalcChisq_match_iff_one :
    ∃ all h, nbCreateHistogram zeroTrig zeroHistCtx {} [aheadBody 1] unitBin = some all ∧
      all 0 = some h ∧
      ((∀ method ∈ matchMethods, nbCalcChisq unitLib unitData h.extended method = some (fin 0)) ↔
        h.lambdaBins * h.lambdaBins % 2 ^ 32 = 0 ∨
          h.lambdaBins * h.lambdaBins % 2 ^ 32 = 1 ∧ h.totalNum = 1 ∧
            (h.data 0).rawCount = 1) := by
  obtain ⟨all, made⟩ : ∃ all, nbCreateHistogram zeroTrig zeroHistCtx {} [aheadBody 1] unitBin =
      some all := Option.isSome_iff_exists.mp (by decide +kernel)
  obtain ⟨h, counts, g⟩ := nbCreateHistogram_generated made
  have facts : ((nbCreateHistogram zeroTrig zeroHistCtx {} [aheadBody 1] unitBin).bind
      (· 0)).any (fun h => h.totalNum == 1 && (h.data 0).variable_ == 1) = true := by
    decide +kernel
  rw [made, Option.bind_some, counts, Option.any_some, Bool.and_eq_true, beq_iff_eq,
    beq_iff_eq] at facts
  have bins : h.lambdaBins * h.betaBins = 1 := by
    rw [g.lambdaBins, g.betaBins]
    rfl
  refine ⟨all, h, made, counts, nbCalcChisq_match_iff unitLib (by decide +kernel) zeroTrig
    zeroHistCtx {} [aheadBody 1] unitBin all made h counts (by omega) unitData
    ⟨g.lambdaBins.symm, g.betaBins.symm, fun _ _ => rfl, fun n lt => ?_,
      fun _ _ => ⟨1, one_pos, rfl⟩⟩⟩
  have first : n = 0 := by omega
  rw [first, facts.2]
  rfl

end MilkyWay.NBody
