import MilkyWay.NBody.Chisq

/-! The simulated bodies that are left when the bins without data are taken out. Three
comparisons count them each in its own way; the component of the cost compares them with
the bodies simulated, which are counted by another test on their type. -/

namespace MilkyWay.NBody

open Foundation

/-- A histogram for the comparisons, which know nothing of the counts of its bins. -/
def CountedHistogram.compared {R : Type} (h : CountedHistogram R) : NBodyHistogram R :=
  ⟨h.lambdaBins, h.betaBins, h.totalNum, h.totalSimulated, h.massPerParticle,
    fun n => (h.data n).toHistData⟩

section
variable {R : Type} [Zero R] [Add R] [Neg R] [Sub R] [Mul R] [Div R] [OfScientific R] [BEq R]
  [LT R] [DecidableLT R] [LE R] [DecidableLE R] [NatCast R]

/-! ## Steps of the comparisons -/

def emdCount (lib : HistogramLib R) (first_hist : NBodyHistogram R) (i : ℕ) : ℕ :=
  lib.toUnsigned (lib.round ((first_hist.data i).variable_ * (first_hist.totalNum : R)))

def emdTotal (lib : HistogramLib R) (first_data first_hist : NBodyHistogram R) (n : ℕ) : ℕ :=
  (List.range n).foldl (fun nSim i =>
    if (first_data.data i).useBin then nSim else unsignedSub nSim (emdCount lib first_hist i))
    first_hist.totalNum

def emdDat (first_data : NBodyHistogram R) : List (WeightPos R) :=
  (List.range (first_data.lambdaBins * first_data.betaBins)).map fun i =>
    let bin := first_data.data i
    if bin.useBin then ⟨bin.variable_, bin.lambda, bin.beta⟩ else ⟨0.0, 0.0, 0.0⟩

def emdHist (first_data first_hist : NBodyHistogram R) (nSim : ℕ) : List (WeightPos R) :=
  (List.range (first_data.lambdaBins * first_data.betaBins)).map fun i =>
    let bin := first_hist.data i
    if (first_data.data i).useBin then
      ⟨bin.variable_ * (first_hist.totalNum : R) / (1.0 * (nSim : R)), bin.lambda, bin.beta⟩
    else ⟨0.0, 0.0, 0.0⟩

omit [Zero R] [Add R] [BEq R] in
theorem nbMatchEMD_eq (lib : HistogramLib R) (data histogram : MainStruct R) :
    nbMatchEMD lib data histogram =
      let first_data := data.histograms 0
      let first_hist := histogram.histograms 0
      let nSim := emdTotal lib first_data first_hist (first_data.lambdaBins * first_data.betaBins)
      if first_data.lambdaBins ≠ first_hist.lambdaBins ∨
          first_data.betaBins ≠ first_hist.betaBins then lib.NAN
      else if nSim = 0 ∨ first_data.totalNum = 0 then lib.INFINITY
      else if first_hist.massPerParticle ≤ 0.0 ∨ first_data.massPerParticle ≤ 0.0 then lib.NAN
      else
        let emd := lib.round (lib.emdCalc (emdDat first_data)
          (emdHist first_data first_hist nSim) * 1.0e9) * 1.0e-9
        if 50.0 < emd then lib.NAN else -(300.0 * lib.log (1.0 - emd / 50.0)) := rfl

def costSums (lib : HistogramLib R) (data histogram : NBodyHistogram R) (n : ℕ) : R × R :=
  (List.range n).foldl (fun (s : R × R) i =>
    if (data.data i).useBin then (s.1, s.2 + sqr ((data.data i).err * (data.totalNum : R)))
    else (s.1 - lib.round ((histogram.data i).variable_ * (histogram.totalNum : R)), s.2))
    ((histogram.totalNum : R), 0.0)

def costProbability (lib : HistogramLib R) (data histogram : NBodyHistogram R) : R :=
  (costSums lib data histogram (data.lambdaBins * data.betaBins)).1 / (histogram.totalSimulated : R)

def costNum (lib : HistogramLib R) (data histogram : NBodyHistogram R) : R :=
  -sqr (data.massPerParticle * (data.totalNum : R) - histogram.massPerParticle *
    (costSums lib data histogram (data.lambdaBins * data.betaBins)).1)

def costDenom (lib : HistogramLib R) (data histogram : NBodyHistogram R) : R :=
  let s := costSums lib data histogram (data.lambdaBins * data.betaBins)
  let p := costProbability lib data histogram
  2.0 * (sqr data.massPerParticle * s.2 + sqr histogram.massPerParticle * s.1 * p * (1.0 - p))

omit [Zero R] [LT R] [DecidableLT R] in
theorem nbCostComponent_eq (lib : HistogramLib R) (data histogram : NBodyHistogram R) :
    nbCostComponent lib data histogram =
      if data.lambdaBins ≠ histogram.lambdaBins ∨ data.betaBins ≠ histogram.betaBins then lib.NAN
      else if (histogram.totalNum : R) == 0.0 || (data.totalNum : R) == 0.0 then lib.INFINITY
      else if histogram.massPerParticle ≤ 0.0 ∨ data.massPerParticle ≤ 0.0 then lib.NAN
      else -(costNum lib data histogram / costDenom lib data histogram) := rfl

def correctedTotal (histogram : CountedHistogram R) (data : NBodyHistogram R) (n : ℕ) :
    Option ℕ :=
  (List.range n).foldlM (fun totalNum i =>
    if (data.data i).useBin then some totalNum
    else if i < histogram.nBin then some (unsignedSub totalNum (histogram.data i).rawCount)
    else none) histogram.totalNum

omit [Zero R] [Add R] [Neg R] [Sub R] [Mul R] [Div R] [OfScientific R] [BEq R] [LT R]
  [DecidableLT R] [LE R] [DecidableLE R] [NatCast R] in
theorem nbCorrectTotalNumberInHistogram_eq (histogram : CountedHistogram R)
    (data : NBodyHistogram R) :
    nbCorrectTotalNumberInHistogram histogram data = correctedTotal histogram data data.nBin :=
  rfl

end

/-! ## The totals agree -/

/-- Rounding and conversion do nothing to a count. -/
structure RoundsCounts {F : Type} [NatCast F] (lib : HistogramLib F) : Prop where
  round : ∀ n : ℕ, lib.round n = n
  toUnsigned : ∀ n : ℕ, n < 2 ^ 32 → lib.toUnsigned (n : F) = n

section
variable {F : Type} [Field F] [LinearOrder F]

/-- The histogram of counts and data of its shape; there are no more bodies than an
unsigned number can count. -/
structure SameShape (data : NBodyHistogram F) (h : CountedHistogram F) : Prop where
  lambdaBins : data.lambdaBins = h.lambdaBins
  betaBins : data.betaBins = h.betaBins
  few : h.totalNum < 2 ^ 32

/-- All three comparisons are left with the bodies in the bins in use, take no more bodies
out than there are, and the weights are those of a whole. -/
structure Renormalized (lib : HistogramLib F) (data : NBodyHistogram F) (h : CountedHistogram F) :
    Prop where
  emd : emdTotal lib data h.compared (data.lambdaBins * data.betaBins) =
    usedCount data (fun i => (h.data i).rawCount) (data.lambdaBins * data.betaBins)
  cost : (costSums lib data h.compared (data.lambdaBins * data.betaBins)).1 =
    (usedCount data (fun i => (h.data i).rawCount) (data.lambdaBins * data.betaBins) : F)
  corrected : nbCorrectTotalNumberInHistogram h data =
    some (usedCount data (fun i => (h.data i).rawCount) (data.lambdaBins * data.betaBins))
  emd_le : ∀ i < data.lambdaBins * data.betaBins, (data.data i).useBin = false →
    emdCount lib h.compared i ≤ emdTotal lib data h.compared i
  corrected_le : ∀ i < data.lambdaBins * data.betaBins, (data.data i).useBin = false →
    ∃ totalNum, correctedTotal h data i = some totalNum ∧ (h.data i).rawCount ≤ totalNum
  weights : 0 < usedCount data (fun i => (h.data i).rawCount) (data.lambdaBins * data.betaBins) →
    ((emdHist data h.compared
      (emdTotal lib data h.compared (data.lambdaBins * data.betaBins))).map (·.weight)).sum = 1

variable {lib : HistogramLib F} {data : NBodyHistogram F} {h : CountedHistogram F}
  {bodies : List (Body F)} {hp : HistogramParams F} {n i : ℕ}

omit [Field F] [LinearOrder F] in
theorem unusedCount_succ (data : NBodyHistogram F) (count : ℕ → ℕ) (n : ℕ) :
    unusedCount data count (n + 1) =
      unusedCount data count n + if (data.data n).useBin then 0 else count n :=
  Finset.sum_range_succ _ _

omit [Field F] [LinearOrder F] in
theorem unusedCount_mono (data : NBodyHistogram F) (count : ℕ → ℕ) {m n : ℕ} (le : m ≤ n) :
    unusedCount data count m ≤ unusedCount data count n :=
  Finset.sum_le_sum_of_subset (Finset.range_subset_range.mpr le)

omit [LinearOrder F] in
theorem Tallied.unused_le (g : Tallied bodies hp h) (shape : SameShape data h)
    (lt : i < data.lambdaBins * data.betaBins) (unused : (data.data i).useBin = false) :
    unusedCount data (fun i => (h.data i).rawCount) i + (h.data i).rawCount ≤ h.totalNum := by
  have next := unusedCount_succ data (fun i => (h.data i).rawCount) i
  have mono := unusedCount_mono data (fun i => (h.data i).rawCount) (show i + 1 ≤ _ from lt)
  have sum := usedCount_add data (fun i => (h.data i).rawCount) (data.lambdaBins * data.betaBins)
  rw [unused, if_neg Bool.false_ne_true] at next
  rw [shape.lambdaBins, shape.betaBins, g.total] at sum
  rw [shape.lambdaBins, shape.betaBins] at mono
  omega

omit [LinearOrder F] in
theorem Tallied.used_eq (g : Tallied bodies hp h) (shape : SameShape data h) :
    h.totalNum - unusedCount data (fun i => (h.data i).rawCount)
        (data.lambdaBins * data.betaBins) =
      usedCount data (fun i => (h.data i).rawCount) (data.lambdaBins * data.betaBins) := by
  have sum := usedCount_add data (fun i => (h.data i).rawCount) (data.lambdaBins * data.betaBins)
  rw [shape.lambdaBins, shape.betaBins, g.total] at sum
  rw [shape.lambdaBins, shape.betaBins]
  omega

omit [LinearOrder F] in
theorem Tallied.correctedTotal_eq (g : Tallied bodies hp h) (shape : SameShape data h) :
    ∀ n ≤ data.lambdaBins * data.betaBins, correctedTotal h data n =
      some (h.totalNum - unusedCount data (fun i => (h.data i).rawCount) n) := by
  intro n
  induction n with
  | zero => simp [correctedTotal, unusedCount]
  | succ n ih =>
      intro le
      have before := ih (by omega)
      have inside : n < h.nBin := by
        rw [CountedHistogram.nBin, Nat.mod_eq_of_lt g.fits, ← shape.lambdaBins, ← shape.betaBins]
        omega
      have step : correctedTotal h data (n + 1) = (correctedTotal h data n).bind fun totalNum =>
          if (data.data n).useBin then some totalNum
          else if n < h.nBin then some (unsignedSub totalNum (h.data n).rawCount) else none := by
        simp only [correctedTotal, List.range_succ, List.foldlM_append, List.foldlM_cons,
          List.foldlM_nil, bind_pure]
        rfl
      rw [step, before, unusedCount_succ, Option.bind_some]
      cases unused : (data.data n).useBin with
      | true => simp
      | false =>
          have room := g.unused_le shape (by omega) unused
          have few := shape.few
          simp only [Bool.false_eq_true, if_false, if_pos inside]
          rw [unsignedSub_eq (by omega) (by omega)]
          congr 1
          omega

variable [IsStrictOrderedRing F]

theorem Tallied.count_eq (g : Tallied bodies hp h) (shape : SameShape data h)
    (positive : 0 < h.totalNum) (lt : i < data.lambdaBins * data.betaBins) :
    (h.compared.data i).variable_ * (h.compared.totalNum : F) = ((h.data i).rawCount : F) := by
  rw [shape.lambdaBins, shape.betaBins] at lt
  have total : (h.totalNum : F) ≠ 0 := Nat.cast_ne_zero.mpr positive.ne'
  show (h.data i).variable_ * (h.totalNum : F) = _
  rw [g.count i lt, div_mul_cancel₀ _ total]

theorem Tallied.emdCount_eq (g : Tallied bodies hp h) (exact_ : RoundsCounts lib)
    (shape : SameShape data h) (positive : 0 < h.totalNum)
    (lt : i < data.lambdaBins * data.betaBins) :
    emdCount lib h.compared i = (h.data i).rawCount := by
  have small : (h.data i).rawCount ≤ h.totalNum := by
    rw [← g.total, ← shape.lambdaBins, ← shape.betaBins]
    exact Finset.single_le_sum (f := fun n => (h.data n).rawCount) (fun n _ => Nat.zero_le _)
      (Finset.mem_range.mpr lt)
  have few := shape.few
  rw [emdCount, g.count_eq shape positive lt, exact_.round, exact_.toUnsigned _ (by omega)]

theorem Tallied.emdTotal_eq (g : Tallied bodies hp h) (exact_ : RoundsCounts lib)
    (shape : SameShape data h) (positive : 0 < h.totalNum) :
    ∀ n ≤ data.lambdaBins * data.betaBins, emdTotal lib data h.compared n =
      h.totalNum - unusedCount data (fun i => (h.data i).rawCount) n := by
  intro n
  induction n with
  | zero => simp [emdTotal, unusedCount, CountedHistogram.compared]
  | succ n ih =>
      intro le
      have before : emdTotal lib data h.compared n = _ := ih (by omega)
      have step : emdTotal lib data h.compared (n + 1) =
          if (data.data n).useBin then emdTotal lib data h.compared n
          else unsignedSub (emdTotal lib data h.compared n) (emdCount lib h.compared n) := by
        simp only [emdTotal, List.range_succ, List.foldl_append, List.foldl_cons, List.foldl_nil]
      rw [step, before, unusedCount_succ]
      cases unused : (data.data n).useBin with
      | true => simp
      | false =>
          have room := g.unused_le shape (by omega) unused
          have few := shape.few
          simp only [Bool.false_eq_true, if_false]
          rw [g.emdCount_eq exact_ shape positive (by omega),
            unsignedSub_eq (by omega) (by omega)]
          omega

theorem Tallied.costSums_fst (g : Tallied bodies hp h) (exact_ : RoundsCounts lib)
    (shape : SameShape data h) (positive : 0 < h.totalNum) :
    ∀ n ≤ data.lambdaBins * data.betaBins, (costSums lib data h.compared n).1 =
      (h.totalNum : F) - (unusedCount data (fun i => (h.data i).rawCount) n : F) := by
  intro n
  induction n with
  | zero => simp [costSums, unusedCount, CountedHistogram.compared]
  | succ n ih =>
      intro le
      have before := ih (by omega)
      have step : (costSums lib data h.compared (n + 1)).1 =
          if (data.data n).useBin then (costSums lib data h.compared n).1
          else (costSums lib data h.compared n).1 -
            lib.round ((h.compared.data n).variable_ * (h.compared.totalNum : F)) := by
        simp only [costSums, List.range_succ, List.foldl_append, List.foldl_cons, List.foldl_nil]
        split <;> rfl
      rw [step, before, unusedCount_succ]
      cases unused : (data.data n).useBin with
      | true => simp
      | false =>
          simp only [Bool.false_eq_true, if_false]
          rw [g.count_eq shape positive (by omega), exact_.round, Nat.cast_add]
          ring

theorem Tallied.cost_eq (g : Tallied bodies hp h) (exact_ : RoundsCounts lib)
    (shape : SameShape data h) (positive : 0 < h.totalNum) :
    (costSums lib data h.compared (data.lambdaBins * data.betaBins)).1 =
      (usedCount data (fun i => (h.data i).rawCount) (data.lambdaBins * data.betaBins) : F) := by
  have sum := usedCount_add data (fun i => (h.data i).rawCount) (data.lambdaBins * data.betaBins)
  rw [shape.lambdaBins, shape.betaBins, g.total] at sum
  rw [g.costSums_fst exact_ shape positive _ le_rfl, shape.lambdaBins, shape.betaBins, ← sum,
    Nat.cast_add]
  ring

theorem Tallied.weights (g : Tallied bodies hp h) (shape : SameShape data h)
    (positive : 0 < h.totalNum) {nSim : ℕ}
    (sum : nSim = usedCount data (fun i => (h.data i).rawCount)
      (data.lambdaBins * data.betaBins)) (some_ : 0 < nSim) :
    ((emdHist data h.compared nSim).map (·.weight)).sum = 1 := by
  have total : (nSim : F) ≠ 0 := Nat.cast_ne_zero.mpr some_.ne'
  have one : (1.0 : F) = 1 := by norm_num
  have zero : (0.0 : F) = 0 := by norm_num
  have weight : ((emdHist data h.compared nSim).map (·.weight)).sum =
      ∑ i ∈ Finset.range (data.lambdaBins * data.betaBins),
        (if (data.data i).useBin then ((h.data i).rawCount : F) else 0) / (nSim : F) := by
    rw [emdHist, List.map_map, ← List.sum_toFinset _ List.nodup_range, List.toFinset_range]
    refine Finset.sum_congr rfl fun i mem => ?_
    have lt := Finset.mem_range.mp mem
    dsimp only [Function.comp]
    split
    · rw [g.count_eq shape positive lt, one, one_mul]
    · rw [zero_div, zero]
  have cast : ∑ i ∈ Finset.range (data.lambdaBins * data.betaBins),
      (if (data.data i).useBin then ((h.data i).rawCount : F) else 0) = (nSim : F) := by
    rw [sum, usedCount, Nat.cast_sum]
    refine Finset.sum_congr rfl fun i _ => ?_
    split <;> simp
  rw [weight, ← Finset.sum_div, cast, div_self total]

/-- However many bins the data leave out, the comparisons agree on the bodies left. -/
theorem nbCreateHistogramIn_renormalized (lib : HistogramLib F) (exact_ : RoundsCounts lib)
    (trig : TrigLib F) (ctx : HistogramCtx F) (st : LikelihoodUse) (room : ℕ)
    (bodies : List (Body F)) (few : bodies.length < 2 ^ 32) (hp : HistogramParams F)
    (all : CountedMain F) (made : nbCreateHistogramIn trig ctx st room bodies hp = some all)
    (h : CountedHistogram F) (counts : all 0 = some h) (positive : 0 < h.totalNum)
    (data : NBodyHistogram F) (lambdaBins : data.lambdaBins = h.lambdaBins)
    (betaBins : data.betaBins = h.betaBins) : Renormalized lib data h := by
  obtain ⟨h', counts', g, counted⟩ := nbCreateHistogramIn_tallied made
  rw [counts, Option.some.injEq] at counts'
  subst counts'
  have shape : SameShape data h := by
    refine ⟨lambdaBins, betaBins, lt_of_le_of_lt ?_ few⟩
    rw [counted.totalNum]
    exact List.countP_le_length
  have emd := (g.emdTotal_eq exact_ shape positive _ le_rfl).trans (g.used_eq shape)
  have nBin : data.nBin = data.lambdaBins * data.betaBins := by
    rw [NBodyHistogram.nBin, lambdaBins, betaBins, Nat.mod_eq_of_lt g.fits]
  refine ⟨emd, g.cost_eq exact_ shape positive, ?_, ?_, ?_, fun some_ => ?_⟩
  · rw [nbCorrectTotalNumberInHistogram_eq, nBin, g.correctedTotal_eq shape _ le_rfl,
      g.used_eq shape]
  · intro i lt unused
    have le := g.unused_le shape lt unused
    rw [g.emdCount_eq exact_ shape positive lt, g.emdTotal_eq exact_ shape positive i lt.le]
    omega
  · intro i lt unused
    have le := g.unused_le shape lt unused
    exact ⟨_, g.correctedTotal_eq shape i lt.le, by omega⟩
  · exact g.weights shape positive emd (emd ▸ some_)

end

/-! ## The cost of what is left -/

section
variable {F : Type} [Field F] [LinearOrder F]

/-- The bodies that are counted in the bins in use. -/
def usedBodies (trig : TrigLib F) (ctx : HistogramCtx F) (hp : HistogramParams F)
    (data : NBodyHistogram F) (bodies : List (Body F)) : ℕ :=
  bodies.countP fun b => (histSlot trig ctx hp b).any fun n => (data.data n).useBin

/-- The cost is given up as it should be, or it comes from a probability, is divided by
something positive and is not negative. -/
def CostDefined (lib : HistogramLib F) (data histogram : NBodyHistogram F) : Prop :=
  if histogram.totalNum = 0 ∨ data.totalNum = 0 then
    nbCostComponent lib data histogram = lib.INFINITY
  else if histogram.massPerParticle ≤ 0 ∨ data.massPerParticle ≤ 0 then
    nbCostComponent lib data histogram = lib.NAN
  else (0 ≤ costProbability lib data histogram ∧ costProbability lib data histogram ≤ 1) ∧
    0 < costDenom lib data histogram ∧ 0 ≤ nbCostComponent lib data histogram

variable {lib : HistogramLib F} {trig : TrigLib F} {ctx : HistogramCtx F}
  {hp : HistogramParams F} {data : NBodyHistogram F} {h : CountedHistogram F}
  {bodies : List (Body F)} {room : ℕ}

omit [LinearOrder F] in
theorem usedBodies_eq (fits : hp.lambdaBins * hp.betaBins < 2 ^ 32)
    (counted : Counts trig ctx hp bodies room h) :
    usedCount data (fun i => (h.data i).rawCount) (hp.lambdaBins * hp.betaBins) =
      usedBodies trig ctx hp data bodies := by
  -- the bin of a body, if it is in use
  have sum := sum_countP (fun b => (histSlot trig ctx hp b).filter fun n => (data.data n).useBin)
    (hp.lambdaBins * hp.betaBins) bodies fun b _ n slot =>
      histSlot_lt fits (Option.filter_eq_some_iff.mp slot).1
  have whole : ∀ b, ((histSlot trig ctx hp b).filter fun n => (data.data n).useBin).isSome =
      (histSlot trig ctx hp b).any fun n => (data.data n).useBin := fun b => Option.isSome_filter
  simp only [whole] at sum
  rw [usedCount, usedBodies, ← sum]
  refine Finset.sum_congr rfl fun n _ => ?_
  rw [counted.rawCount]
  cases used : (data.data n).useBin with
  | true =>
      rw [if_pos rfl]
      refine List.countP_congr fun b _ => ?_
      simp only [decide_eq_true_eq, Option.filter_eq_some_iff]
      exact ⟨fun slot => ⟨slot, used⟩, And.left⟩
  | false =>
      rw [if_neg Bool.false_ne_true, eq_comm, List.countP_eq_zero]
      intro b _ slot
      rw [decide_eq_true_eq, Option.filter_eq_some_iff, used] at slot
      exact Bool.false_ne_true slot.2

omit [LinearOrder F] in
theorem countBodies_massless : ∀ bodies : List (Body F), (countBodies bodies).1 = 0 →
    (countBodies bodies).2 = 0.0 := by
  intro bodies none
  rw [countBodies_eq, List.countP_eq_zero] at none
  have rule : ∀ (l : List (Body F)) (s : ℕ × F), (∀ b ∈ l, ¬decide (b.type = 1) = true) →
      l.foldl (fun s b => if b.type = 1 then (s.1 + 1, b.mass) else s) s = s := by
    intro l
    induction l with
    | nil => exact fun _ _ => rfl
    | cons b l ih =>
        intro s heavy
        have here := heavy b List.mem_cons_self
        rw [decide_eq_true_eq] at here
        rw [List.foldl_cons, if_neg here]
        exact ih s fun b' mem => heavy b' (List.mem_cons_of_mem b mem)
  rw [countBodies, rule bodies _ none]

variable [IsStrictOrderedRing F]

theorem costSums_snd (lib : HistogramLib F) (data histogram : NBodyHistogram F) (n : ℕ) :
    (costSums lib data histogram n).2 = ∑ i ∈ Finset.range n,
      if (data.data i).useBin then sqr ((data.data i).err * (data.totalNum : F)) else 0 := by
  induction n with
  | zero =>
      show (0.0 : F) = 0
      norm_num
  | succ n ih =>
      rw [Finset.sum_range_succ, ← ih]
      simp only [costSums, List.range_succ, List.foldl_append, List.foldl_cons, List.foldl_nil]
      split
      · rfl
      · exact (add_zero _).symm

theorem variance_pos (total : 0 < data.totalNum) {n : ℕ}
    (err : ∀ i < n, (data.data i).useBin = true → 0 < (data.data i).err)
    (used : ∃ i < n, (data.data i).useBin = true) (histogram : NBodyHistogram F) :
    0 < (costSums lib data histogram n).2 := by
  have positive : ∀ i < n, (data.data i).useBin = true →
      0 < sqr ((data.data i).err * (data.totalNum : F)) := fun i lt use => by
    have factor := mul_pos (err i lt use) (Nat.cast_pos.mpr total : (0 : F) < data.totalNum)
    exact mul_pos factor factor
  obtain ⟨i, lt, use⟩ := used
  rw [costSums_snd]
  refine Finset.sum_pos' (fun j mem => ?_) ⟨i, Finset.mem_range.mpr lt, ?_⟩
  · split
    · rename_i use'
      exact (positive j (Finset.mem_range.mp mem) use').le
    · exact le_rfl
  · rw [if_pos use]
    exact positive i lt use

theorem costDenom_pos {histogram : NBodyHistogram F} (mass : 0 < data.massPerParticle)
    (variance : 0 < (costSums lib data histogram (data.lambdaBins * data.betaBins)).2)
    (left : 0 ≤ (costSums lib data histogram (data.lambdaBins * data.betaBins)).1)
    (probability : 0 ≤ costProbability lib data histogram ∧
      costProbability lib data histogram ≤ 1) : 0 < costDenom lib data histogram := by
  have one : (1.0 : F) = 1 := by norm_num
  have two : (0 : F) < 2.0 := by norm_num
  have rest : (0 : F) ≤ 1.0 - costProbability lib data histogram := by
    rw [one]
    exact sub_nonneg.mpr probability.2
  refine mul_pos two (add_pos_of_pos_of_nonneg (mul_pos (mul_pos mass mass) variance) ?_)
  exact mul_nonneg (mul_nonneg (mul_nonneg (mul_self_nonneg _) left) probability.1) rest

theorem Tallied.costDefined_iff (g : Tallied bodies hp h)
    (counted : Counts trig ctx hp bodies room h) (exact_ : RoundsCounts lib)
    (few : bodies.length < 2 ^ 32)
    (lambdaBins : data.lambdaBins = h.lambdaBins) (betaBins : data.betaBins = h.betaBins)
    (total : 0 < data.totalNum)
    (err : ∀ i < data.lambdaBins * data.betaBins, (data.data i).useBin = true →
      0 < (data.data i).err)
    (used : ∃ i < data.lambdaBins * data.betaBins, (data.data i).useBin = true) :
    CostDefined lib data h.compared ↔
      (countBodies bodies).2 ≤ 0 ∨ data.massPerParticle ≤ 0 ∨
        usedBodies trig ctx hp data bodies ≤ bodies.countP (·.type = 1) := by
  have zero : (0.0 : F) = 0 := by norm_num
  have shape : SameShape data h := by
    refine ⟨lambdaBins, betaBins, lt_of_le_of_lt ?_ few⟩
    rw [counted.totalNum]
    exact List.countP_le_length
  have bins : data.lambdaBins * data.betaBins = hp.lambdaBins * hp.betaBins := by
    rw [lambdaBins, betaBins, g.lambdaBins, g.betaBins]
  have fits : hp.lambdaBins * hp.betaBins < 2 ^ 32 := by
    rw [← g.lambdaBins, ← g.betaBins]
    exact g.fits
  have left : usedCount data (fun i => (h.data i).rawCount) (hp.lambdaBins * hp.betaBins) =
      usedBodies trig ctx hp data bodies := usedBodies_eq fits counted
  have inRange : usedBodies trig ctx hp data bodies ≤ h.totalNum := by
    rw [counted.totalNum]
    exact List.countP_mono_left fun b _ use => Option.isSome_of_any use
  have same : ¬(data.lambdaBins ≠ h.compared.lambdaBins ∨
      data.betaBins ≠ h.compared.betaBins) := by
    rw [not_or, not_not, not_not]
    exact ⟨lambdaBins, betaBins⟩
  have mass : h.compared.massPerParticle = (countBodies bodies).2 := g.massPerParticle
  have simulated : h.compared.totalSimulated = bodies.countP (·.type = 1) :=
    g.totalSimulated.trans (countBodies_eq bodies)
  rw [CostDefined, nbCostComponent_eq, if_neg same, zero, mass]
  by_cases empty : h.totalNum = 0
  · have none : h.compared.totalNum = 0 := empty
    rw [none, if_pos (.inl rfl), Nat.cast_zero, beq_self_eq_true, Bool.true_or, if_pos rfl]
    exact iff_of_true rfl (.inr (.inr (by omega)))
  · have some_ : ¬(h.compared.totalNum = 0 ∨ data.totalNum = 0) := by
      rw [not_or]
      exact ⟨empty, total.ne'⟩
    have guard : ((h.compared.totalNum : F) == 0 || (data.totalNum : F) == 0) = false := by
      rw [Bool.or_eq_false_iff, beq_eq_false_iff_ne, beq_eq_false_iff_ne]
      exact ⟨Nat.cast_ne_zero.mpr empty, Nat.cast_ne_zero.mpr total.ne'⟩
    rw [if_neg some_, guard, if_neg Bool.false_ne_true]
    by_cases massless : (countBodies bodies).2 ≤ 0 ∨ data.massPerParticle ≤ 0
    · rw [if_pos massless, if_pos massless]
      exact iff_of_true rfl (by tauto)
    · rw [if_neg massless, if_neg massless]
      obtain ⟨histMass, dataMass⟩ := not_or.mp massless
      have light : 0 < bodies.countP (·.type = 1) := by
        refine Nat.pos_of_ne_zero fun none => histMass ?_
        rw [countBodies_massless bodies ((countBodies_eq bodies).trans none), zero]
      have n_pos : (0 : F) < (bodies.countP (·.type = 1) : ℕ) := Nat.cast_pos.mpr light
      have nSim := g.cost_eq exact_ shape (Nat.pos_of_ne_zero empty)
      rw [bins, left] at nSim
      have p : costProbability lib data h.compared =
          (usedBodies trig ctx hp data bodies : F) / (bodies.countP (·.type = 1) : ℕ) := by
        rw [costProbability, bins, nSim, simulated]
      constructor
      · rintro ⟨⟨-, high⟩, -⟩
        rw [p, div_le_one n_pos] at high
        exact .inr (.inr (by exact_mod_cast high))
      · intro within
        have le : usedBodies trig ctx hp data bodies ≤ bodies.countP (·.type = 1) := by tauto
        have probability : 0 ≤ costProbability lib data h.compared ∧
            costProbability lib data h.compared ≤ 1 := by
          rw [p, div_le_one n_pos]
          exact ⟨div_nonneg (Nat.cast_nonneg _) n_pos.le, by exact_mod_cast le⟩
        have denom := costDenom_pos (not_le.mp dataMass) (variance_pos total err used h.compared)
          (by rw [bins, nSim]; exact Nat.cast_nonneg _) probability
        refine ⟨probability, denom, ?_⟩
        rw [costNum, neg_div, neg_neg]
        exact div_nonneg (mul_self_nonneg _) denom.le

/-- As long as the arrays are not exceeded, the cost is well defined. -/
theorem nbCreateHistogram_costDefined {st : LikelihoodUse} {all : CountedMain F}
    (exact_ : RoundsCounts lib) (few : bodies.length < 2 ^ 32)
    (made : nbCreateHistogram trig ctx st bodies hp = some all) (counts : all 0 = some h)
    (lambdaBins : data.lambdaBins = h.lambdaBins) (betaBins : data.betaBins = h.betaBins)
    (total : 0 < data.totalNum)
    (err : ∀ i < data.lambdaBins * data.betaBins, (data.data i).useBin = true →
      0 < (data.data i).err)
    (used : ∃ i < data.lambdaBins * data.betaBins, (data.data i).useBin = true) :
    CostDefined lib data h.compared := by
  obtain ⟨h', counts', g, counted⟩ := nbCreateHistogramIn_tallied made
  rw [counts, Option.some.injEq] at counts'
  subst counts'
  refine (g.costDefined_iff counted exact_ few lambdaBins betaBins total err used).mpr
    (.inr (.inr ?_))
  calc usedBodies trig ctx hp data bodies
      ≤ bodies.countP fun b => (histSlot trig ctx hp b).isSome :=
        List.countP_mono_left fun b _ use => Option.isSome_of_any use
    _ = h.totalNum := counted.totalNum.symm
    _ ≤ (countBodies bodies).1 := counted.le_room
    _ = bodies.countP (·.type = 1) := countBodies_eq bodies

/-- Whatever the arrays have room for, the cost is well defined just where it is given up
for a mass or there are not more bodies in the bins in use than bodies of type 1. -/
theorem nbCostComponent_iff (lib : HistogramLib F) (exact_ : RoundsCounts lib)
    (trig : TrigLib F) (ctx : HistogramCtx F) (st : LikelihoodUse) (room : ℕ)
    (bodies : List (Body F)) (few : bodies.length < 2 ^ 32) (hp : HistogramParams F)
    (all : CountedMain F) (made : nbCreateHistogramIn trig ctx st room bodies hp = some all)
    (h : CountedHistogram F) (counts : all 0 = some h) (data : NBodyHistogram F)
    (lambdaBins : data.lambdaBins = h.lambdaBins) (betaBins : data.betaBins = h.betaBins)
    (total : 0 < data.totalNum)
    (err : ∀ i < data.lambdaBins * data.betaBins, (data.data i).useBin = true →
      0 < (data.data i).err)
    (used : ∃ i < data.lambdaBins * data.betaBins, (data.data i).useBin = true) :
    CostDefined lib data h.compared ↔
      (countBodies bodies).2 ≤ 0 ∨ data.massPerParticle ≤ 0 ∨
        usedBodies trig ctx hp data bodies ≤ bodies.countP (·.type = 1) := by
  obtain ⟨h', counts', g, counted⟩ := nbCreateHistogramIn_tallied made
  rw [counts, Option.some.injEq] at counts'
  subst counts'
  exact g.costDefined_iff counted exact_ few lambdaBins betaBins total err used

end

/-! ## A bin without data beside one with data -/

/-- Positions that are angles. -/
def tiltTrig : TrigLib ℚ := { zeroTrig with atan2 := fun y _ => y }

def asideBody (type : ℤ) (y : ℚ) : Body ℚ := { pos := ⟨1, y, 0⟩, mass := 1, type, vel := 0 }

/-- A library that does nothing to counts. -/
def countLib : HistogramLib ℚ where
  NAN := 0
  INFINITY := 0
  log := fun _ => 0
  round := id
  toUnsigned := fun x => ⌊x⌋.toNat
  emdCalc := fun _ _ => 0
  nbCalcChisq := fun _ _ _ => 0

theorem countLib_roundsCounts : RoundsCounts countLib :=
  ⟨fun _ => rfl, fun n _ => by simp [countLib]⟩

/-- Data for four bins that leave out the first two. -/
def halfData : NBodyHistogram ℚ := ⟨2, 2, 1, 1, 1, fun n => ⟨decide (2 ≤ n), 0, 0, 1, 1⟩⟩

theorem nbCreateHistogramIn_renormalized_half :
    ∃ all h, nbCreateHistogramIn tiltTrig zeroHistCtx {} 2 [asideBody 1 0, asideBody 1 (-1 / 100)]
        fourBins = some all ∧ all 0 = some h ∧ (h.data 1).rawCount = 1 ∧
      Renormalized countLib halfData h := by
  obtain ⟨all, made⟩ : ∃ all, nbCreateHistogramIn tiltTrig zeroHistCtx {} 2
      [asideBody 1 0, asideBody 1 (-1 / 100)] fourBins = some all :=
    Option.isSome_iff_exists.mp (by decide +kernel)
  obtain ⟨h, counts, g, counted⟩ := nbCreateHistogramIn_tallied made
  have two : h.totalNum = 2 := by
    rw [counted.totalNum]
    decide +kernel
  refine ⟨all, h, made, counts, ?_, nbCreateHistogramIn_renormalized countLib
    countLib_roundsCounts tiltTrig zeroHistCtx {} 2 _ (by decide) fourBins all made h counts
    (by omega) halfData g.lambdaBins.symm g.betaBins.symm⟩
  rw [counted.rawCount]
  decide +kernel

/-- A body of type 2 beside one of type 1 makes the probability 2, where the arrays have
room for both. -/
theorem nbCostComponent_type :
    ∃ all h, nbCreateHistogramIn tiltTrig zeroHistCtx {} 2 [asideBody 1 0, asideBody 2 0]
        fourBins = some all ∧ all 0 = some h ∧
      costProbability countLib halfData h.compared = 2 ∧
      ¬CostDefined countLib halfData h.compared := by
  obtain ⟨all, made⟩ : ∃ all, nbCreateHistogramIn tiltTrig zeroHistCtx {} 2
      [asideBody 1 0, asideBody 2 0] fourBins = some all :=
    Option.isSome_iff_exists.mp (by decide +kernel)
  obtain ⟨h, counts, g, counted⟩ := nbCreateHistogramIn_tallied made
  have facts : ((nbCreateHistogramIn tiltTrig zeroHistCtx {} 2 [asideBody 1 0, asideBody 2 0]
      fourBins).bind (· 0)).any (fun h => costProbability countLib halfData h.compared == 2 &&
        h.totalNum == 2 && h.massPerParticle == 1) = true := by
    decide +kernel
  rw [made, Option.bind_some, counts, Option.any_some, Bool.and_eq_true, Bool.and_eq_true,
    beq_iff_eq, beq_iff_eq, beq_iff_eq] at facts
  refine ⟨all, h, made, counts, facts.1.1, fun defined => ?_⟩
  have total : ¬(h.compared.totalNum = 0 ∨ halfData.totalNum = 0) := by
    rw [show h.compared.totalNum = 2 from facts.1.2]
    decide
  have mass : ¬(h.compared.massPerParticle ≤ 0 ∨ halfData.massPerParticle ≤ 0) := by
    rw [show h.compared.massPerParticle = 1 from facts.2]
    decide +kernel
  rw [CostDefined, if_neg total, if_neg mass, facts.1.1] at defined
  exact absurd defined.1.2 (by decide)

theorem nbCostComponent_iff_half :
    ∃ all h, nbCreateHistogramIn tiltTrig zeroHistCtx {} 2 [asideBody 1 0, asideBody 1 (-1 / 100)]
        fourBins = some all ∧ all 0 = some h ∧
      (CostDefined countLib halfData h.compared ↔
        (countBodies [asideBody 1 0, asideBody 1 (-1 / 100)]).2 ≤ 0 ∨
          halfData.massPerParticle ≤ 0 ∨
          usedBodies tiltTrig zeroHistCtx fourBins halfData
            [asideBody 1 0, asideBody 1 (-1 / 100)] ≤
              [asideBody 1 0, asideBody 1 (-1 / 100)].countP (·.type = 1)) := by
  obtain ⟨all, made⟩ : ∃ all, nbCreateHistogramIn tiltTrig zeroHistCtx {} 2
      [asideBody 1 0, asideBody 1 (-1 / 100)] fourBins = some all :=
    Option.isSome_iff_exists.mp (by decide +kernel)
  obtain ⟨h, counts, g, counted⟩ := nbCreateHistogramIn_tallied made
  exact ⟨all, h, made, counts, nbCostComponent_iff countLib countLib_roundsCounts tiltTrig
    zeroHistCtx {} 2 _ (by decide) fourBins all made h counts halfData g.lambdaBins.symm
    g.betaBins.symm (by decide) (fun _ _ _ => one_pos) ⟨2, by decide, rfl⟩⟩

end MilkyWay.NBody
