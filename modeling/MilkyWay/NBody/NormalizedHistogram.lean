import Mathlib.Algebra.BigOperators.Field
import Mathlib.Algebra.BigOperators.Intervals
import Mathlib.Algebra.Order.Field.Basic
import MilkyWay.NBody.CreateHistogram

/-! The normalized counts. A loop over the rows and columns of the bins treats each bin
once; the error that the normalization stores is that of another bin's count. -/

namespace MilkyWay.NBody

open Foundation

/-! ## A loop over all bins -/

section
variable {R : Type} {f : CountedHistogram R → ℕ → ℕ → CountedBin R → CountedBin R}
  {h : CountedHistogram R}

def treatedBins (f : CountedHistogram R → ℕ → ℕ → CountedBin R → CountedBin R)
    (h : CountedHistogram R) (p : ℕ) : CountedHistogram R :=
  { h with data := fun n =>
      if n < p then f h (n / h.betaBins) (n % h.betaBins) (h.data n) else h.data n }

/-- What a loop does to a bin does not depend on the bins but for their counts, which it
keeps. -/
structure ByCounts (f : CountedHistogram R → ℕ → ℕ → CountedBin R → CountedBin R)
    (h : CountedHistogram R) : Prop where
  keeps : ∀ i j bin, (f h i j bin).rawCount = bin.rawCount
  reads : ∀ data, (∀ n, (data n).rawCount = (h.data n).rawCount) →
    ∀ i j bin, f { h with data } i j bin = f h i j bin

theorem ByCounts.treated (by_ : ByCounts f h) (p i j : ℕ) (bin : CountedBin R) :
    f (treatedBins f h p) i j bin = f h i j bin := by
  refine by_.reads _ (fun n => ?_) i j bin
  split
  · exact by_.keeps _ _ _
  · rfl

theorem binTurn_treated (by_ : ByCounts f h) (fits : h.lambdaBins * h.betaBins < 2 ^ 32)
    {i j : ℕ} (hi : i < h.lambdaBins) (hj : j < h.betaBins) :
    binTurn f h.lambdaBins h.betaBins i (treatedBins f h (i * h.betaBins + j)) j =
      some (treatedBins f h (i * h.betaBins + (j + 1))) := by
  have index := index_lt hi hj
  have row : (i * h.betaBins + j) / h.betaBins = i := by
    rw [Nat.add_comm, Nat.add_mul_div_right _ _ (Nat.zero_lt_of_lt hj), Nat.div_eq_of_lt hj,
      Nat.zero_add]
  have col : (i * h.betaBins + j) % h.betaBins = j := by
    rw [Nat.add_comm, Nat.add_mul_mod_self_right, Nat.mod_eq_of_lt hj]
  rw [binTurn, Nat.mod_eq_of_lt fits, Nat.mod_eq_of_lt (index.trans fits), if_pos index,
    by_.treated, Option.some.injEq]
  unfold treatedBins
  congr 1
  funext n
  dsimp only
  by_cases own : n = i * h.betaBins + j
  · subst own
    rw [Function.update_self, if_neg (lt_irrefl _), if_pos (by omega), row, col]
  · rw [Function.update_of_ne own]
    by_cases before : n < i * h.betaBins + j
    · rw [if_pos before, if_pos (by omega)]
    · rw [if_neg before, if_neg (by omega)]

theorem forBins_eq (by_ : ByCounts f h) (fits : h.lambdaBins * h.betaBins < 2 ^ 32) :
    forBins f h = some (treatedBins f h (h.lambdaBins * h.betaBins)) := by
  obtain ⟨h', run, rfl⟩ := foldlM_range_some (n := h.lambdaBins) (b := h)
    (f := fun h' i => (List.range h.betaBins).foldlM (binTurn f h.lambdaBins h.betaBins i) h')
    (fun i s => s = treatedBins f h (i * h.betaBins)) (by simp [treatedBins]) (by
      rintro i _ hi rfl
      obtain ⟨h', run, rfl⟩ := foldlM_range_some (n := h.betaBins)
        (b := treatedBins f h (i * h.betaBins)) (f := binTurn f h.lambdaBins h.betaBins i)
        (fun j s => s = treatedBins f h (i * h.betaBins + j)) rfl (by
          rintro j _ hj rfl
          exact ⟨_, binTurn_treated by_ fits hi hj, rfl⟩)
      refine ⟨_, run, ?_⟩
      rw [Nat.succ_mul])
  exact run

end

/-! ## Normalized counts -/

section
variable {R : Type} [Field R] [LinearOrder R]

/-- Each bin has the count and the error of its own bodies, and the counts sum to one. -/
structure Normalized (lib : TrigLib R) (h h' : CountedHistogram R) : Prop where
  variable_ : ∀ i < h.lambdaBins, ∀ j < h.betaBins, (h'.data (i * h.betaBins + j)).variable_ =
    ((h.data (i * h.betaBins + j)).rawCount : R) / (h.totalNum : R)
  err : ∀ i < h.lambdaBins, ∀ j < h.betaBins, (h'.data (i * h.betaBins + j)).err =
    nbNormalizedHistogramError lib (h.data (i * h.betaBins + j)).rawCount h.totalNum
      h.totalSimulated
  total : ∑ i ∈ Finset.range h.lambdaBins, ∑ j ∈ Finset.range h.betaBins,
    (h'.data (i * h.betaBins + j)).variable_ = 1

theorem sum_bins {M : Type} [AddCommMonoid M] (lambdaBins betaBins : ℕ) (g : ℕ → M) :
    ∑ i ∈ Finset.range lambdaBins, ∑ j ∈ Finset.range betaBins, g (i * betaBins + j) =
      ∑ n ∈ Finset.range (lambdaBins * betaBins), g n := by
  induction lambdaBins with
  | zero => simp
  | succ lambdaBins ih =>
      rw [Finset.sum_range_succ, ih, Nat.succ_mul, Finset.sum_range_add]

variable {lib : TrigLib R} {h h' : CountedHistogram R}

omit [LinearOrder R] in
theorem nbNormalizeHistogram_eq (fits : h.lambdaBins * h.betaBins < 2 ^ 32)
    (run : nbNormalizeHistogram lib h = some h') :
    ∀ i < h.lambdaBins, ∀ j < h.betaBins,
      (h'.data (i * h.betaBins + j)).variable_ =
          ((h.data (i * h.betaBins + j)).rawCount : R) / (h.totalNum : R) ∧
        (h'.data (i * h.betaBins + j)).err =
          nbNormalizedHistogramError lib (h.data i).rawCount h.totalNum h.totalSimulated := by
  intro i hi j hj
  have row : (i * h.betaBins + j) / h.betaBins = i := by
    rw [Nat.add_comm, Nat.add_mul_div_right _ _ (Nat.zero_lt_of_lt hj), Nat.div_eq_of_lt hj,
      Nat.zero_add]
  rw [nbNormalizeHistogram, forBins_eq ⟨fun _ _ _ => rfl, ?_⟩ fits, Option.some.injEq] at run
  · subst run
    simp only [treatedBins, if_pos (index_lt hi hj), row, and_self]
  · intro data counts i j bin
    simp only [counts]

theorem sum_variable [IsStrictOrderedRing R] (positive : 0 < h.totalNum) :
    ∑ n ∈ Finset.range (h.lambdaBins * h.betaBins), ((h.data n).rawCount : R) / (h.totalNum : R) =
        1 ↔
      ∑ n ∈ Finset.range (h.lambdaBins * h.betaBins), (h.data n).rawCount = h.totalNum := by
  have total : (h.totalNum : R) ≠ 0 := Nat.cast_ne_zero.mpr positive.ne'
  rw [← Finset.sum_div, div_eq_one_iff_eq total, ← Nat.cast_sum, Nat.cast_inj]

/-- The normalized histogram is right just where the number of bins fits its type, the
counts sum to the total, and each bin has the error of the bin that is numbered as its
row. -/
theorem nbNormalizeHistogram_iff [IsStrictOrderedRing R] (lib : TrigLib R)
    (h : CountedHistogram R) (positive : 0 < h.totalNum) :
    (∃ h', nbNormalizeHistogram lib h = some h' ∧ Normalized lib h h') ↔
      h.lambdaBins * h.betaBins < 2 ^ 32 ∧
        ∑ n ∈ Finset.range (h.lambdaBins * h.betaBins), (h.data n).rawCount = h.totalNum ∧
        ∀ i < h.lambdaBins, ∀ j < h.betaBins,
          nbNormalizedHistogramError lib (h.data i).rawCount h.totalNum h.totalSimulated =
            nbNormalizedHistogramError lib (h.data (i * h.betaBins + j)).rawCount h.totalNum
              h.totalSimulated := by
  by_cases fits : h.lambdaBins * h.betaBins < 2 ^ 32
  · obtain ⟨h', run⟩ : ∃ h', nbNormalizeHistogram lib h = some h' := forBins_some fits
    have bins := nbNormalizeHistogram_eq fits run
    have total : ∑ i ∈ Finset.range h.lambdaBins, ∑ j ∈ Finset.range h.betaBins,
        (h'.data (i * h.betaBins + j)).variable_ =
          ∑ n ∈ Finset.range (h.lambdaBins * h.betaBins),
            ((h.data n).rawCount : R) / (h.totalNum : R) := by
      rw [← sum_bins]
      refine Finset.sum_congr rfl fun i hi => Finset.sum_congr rfl fun j hj => ?_
      exact (bins i (Finset.mem_range.mp hi) j (Finset.mem_range.mp hj)).1
    constructor
    · rintro ⟨h'', run', normalized⟩
      rw [run, Option.some.injEq] at run'
      subst run'
      refine ⟨fits, (sum_variable positive).mp (total ▸ normalized.total), fun i hi j hj => ?_⟩
      rw [← (bins i hi j hj).2, normalized.err i hi j hj]
    · rintro ⟨-, sum, same⟩
      exact ⟨h', run, fun i hi j hj => (bins i hi j hj).1,
        fun i hi j hj => (bins i hi j hj).2.trans (same i hi j hj),
        total.trans ((sum_variable positive).mpr sum)⟩
  · have none : nbNormalizeHistogram lib h = none := forBins_none (not_lt.mp fits)
    constructor
    · rintro ⟨h', run, -⟩
      rw [none] at run
      cases run
    · exact fun right => absurd right.1 fits

end

/-! ## The histogram of counts of a run -/

section
variable {R : Type} {steps : List (Fin 6 × (CountedHistogram R → Option (CountedHistogram R)))}
  {all all' : CountedMain R} {k : Fin 6} {h : CountedHistogram R}

theorem foldlM_applyStep_at (run : steps.foldlM applyStep all = some all') (used : all k = some h) :
    (steps.filter (·.1 = k)).foldlM (fun h step => step.2 h) h = all' k := by
  induction steps generalizing all h with
  | nil =>
      rw [List.foldlM_nil, Option.pure_def, Option.some.injEq] at run
      rw [← run, used]
      rfl
  | cons step steps ih =>
      rw [List.foldlM_cons, Option.bind_eq_bind, Option.bind_eq_some_iff] at run
      obtain ⟨next, turn, run⟩ := run
      by_cases own : step.1 = k
      · subst own
        rw [applyStep, used, Option.map_eq_some_iff] at turn
        obtain ⟨h', stepped, rfl⟩ := turn
        rw [List.filter_cons_of_pos (by simp), List.foldlM_cons, stepped]
        exact ih run (Function.update_self _ _ _)
      · rw [List.filter_cons_of_neg (by simpa using own)]
        refine ih run ?_
        rw [← used]
        rw [applyStep] at turn
        cases other : all step.1 with
        | none =>
            rw [other, Option.some.injEq] at turn
            rw [turn]
        | some h' =>
            rw [other, Option.map_eq_some_iff] at turn
            obtain ⟨h'', -, rfl⟩ := turn
            exact Function.update_of_ne (Ne.symm own) _ _

end

section
variable {R : Type} [Field R] [LinearOrder R] {lib : TrigLib R} {ctx : HistogramCtx R}
  {hp : HistogramParams R} {bodies : List (Body R)} {s s' : CountState R} {b : Body R}

def SameHeader (h h' : CountedHistogram R) : Prop := h' = { h with data := h'.data }

theorem rel_refl {α : Type*} {r : α → α → Prop} (refl : ∀ a, r a a) (x : Option α) :
    Option.Rel r x x := by
  cases x with
  | none => exact .none
  | some a => exact .some (refl a)

theorem rel_trans {α : Type*} {r : α → α → Prop} (trans : ∀ a b c, r a b → r b c → r a c)
    {x y z : Option α} (first : Option.Rel r x y) (second : Option.Rel r y z) :
    Option.Rel r x z := by
  cases first with
  | none => exact second
  | some rel =>
      cases second with
      | some rel' => exact .some (trans _ _ _ rel rel')

omit [Field R] [LinearOrder R] in
theorem sameHeader_trans (a b c : CountedHistogram R) (first : SameHeader a b)
    (second : SameHeader b c) : SameHeader a c := by
  rw [SameHeader, second, first]

omit [LinearOrder R] in
theorem countBody_rel {r : CountedHistogram R → CountedHistogram R → Prop} (refl : ∀ h, r h h)
    (count : ∀ h n var, r h (h.count n var)) (turn : countBody lib ctx hp s b = some s')
    (k : Fin 6) : Option.Rel r (s.all k) (s'.all k) := by
  cases ignored : ignoreBody b with
  | true =>
      rw [countBody, if_pos ignored, Option.some.injEq] at turn
      rw [← turn]
      exact rel_refl refl _
  | false =>
      have room := room_of_countBody turn ignored
      have eq := @countBody_eq R _ lib ctx hp s b ignored room
      rw [eq] at turn
      cases slot : histSlot lib ctx hp b with
      | none =>
          rw [slot, Option.some.injEq] at turn
          rw [← turn]
          exact rel_refl refl _
      | some n =>
          rw [slot] at turn
          dsimp only at turn
          split at turn
          · rw [Option.some.injEq] at turn
            rw [← turn]
            dsimp only
            cases s.all k with
            | none => exact .none
            | some h => exact .some (count h n _)
          · cases turn

omit [LinearOrder R] in
theorem countBodies_rel {r : CountedHistogram R → CountedHistogram R → Prop} (refl : ∀ h, r h h)
    (trans : ∀ a b c, r a b → r b c → r a c) (count : ∀ h n var, r h (h.count n var))
    (pass : bodies.foldlM (countBody lib ctx hp) s = some s') (k : Fin 6) :
    Option.Rel r (s.all k) (s'.all k) :=
  foldlM_invariant (fun _ s' => Option.Rel r (s.all k) (s'.all k)) (rel_refl refl _)
    (fun _ _ _ _ _ _ inv turn => rel_trans trans inv (countBody_rel refl count turn k)) pass

/-- The histograms made with arrays of `room` entries, whatever was asked for. -/
def nbCreateHistogramIn (lib : TrigLib R) (ctx : HistogramCtx R) (st : LikelihoodUse) (room : ℕ)
    (bodies : List (Body R)) (hp : HistogramParams R) : Option (CountedMain R) := do
  let (body_count, mass) := countBodies bodies
  let s ← bodies.foldlM (countBody lib ctx hp)
    ⟨startHistograms st hp body_count mass,
      List.replicate room ⟨some 0, some 0, some 0, 0.0, 0.0, 0.0⟩, 0, 0⟩
  (histogramSteps lib ctx bodies s.work hp.nBin).foldlM applyStep (totalled s)

theorem nbCreateHistogram_room (lib : TrigLib R) (ctx : HistogramCtx R) (st : LikelihoodUse)
    (bodies : List (Body R)) (hp : HistogramParams R) :
    nbCreateHistogram lib ctx st bodies hp =
      nbCreateHistogramIn lib ctx st (countBodies bodies).1 bodies hp := rfl

structure Tallied (bodies : List (Body R)) (hp : HistogramParams R) (h : CountedHistogram R) :
    Prop where
  lambdaBins : h.lambdaBins = hp.lambdaBins
  betaBins : h.betaBins = hp.betaBins
  fits : h.lambdaBins * h.betaBins < 2 ^ 32
  raw : h.hasRawCounts = true
  totalSimulated : h.totalSimulated = (countBodies bodies).1
  massPerParticle : h.massPerParticle = (countBodies bodies).2
  total : ∑ n ∈ Finset.range (h.lambdaBins * h.betaBins), (h.data n).rawCount = h.totalNum
  count : ∀ n < h.lambdaBins * h.betaBins,
    (h.data n).variable_ = ((h.data n).rawCount : R) / (h.totalNum : R)

structure Counts (lib : TrigLib R) (ctx : HistogramCtx R) (hp : HistogramParams R)
    (bodies : List (Body R)) (room : ℕ) (h : CountedHistogram R) : Prop where
  rawCount : ∀ n, (h.data n).rawCount = bodies.countP (histSlot lib ctx hp · = some n)
  totalNum : h.totalNum = bodies.countP fun b => (histSlot lib ctx hp b).isSome
  le_room : h.totalNum ≤ room

theorem nbCreateHistogramIn_tallied {st : LikelihoodUse} {room : ℕ} {all : CountedMain R}
    (made : nbCreateHistogramIn lib ctx st room bodies hp = some all) :
    ∃ h, all 0 = some h ∧ Tallied bodies hp h ∧ Counts lib ctx hp bodies room h := by
  rw [nbCreateHistogramIn, Option.bind_eq_bind, Option.bind_eq_some_iff] at made
  obtain ⟨s, pass, run⟩ := made
  set start := startHistograms st hp (countBodies bodies).1 (countBodies bodies).2 with start_eq
  have counting : Counting lib ctx hp start room bodies s :=
    foldlM_invariant (Counting lib ctx hp start room) (.start st _ _ _)
      (fun done b rest s s' _ inv turn => inv.step turn) pass
  have headers : ∀ k, Option.Rel SameHeader (start k) (s.all k) :=
    countBodies_rel (r := SameHeader) (fun _ => rfl) sameHeader_trans (fun _ _ _ => rfl) pass
  have fits := (fits_of_steps st counting run).1
  obtain ⟨h₂, used⟩ := counting.used st (k := 0) (by decide)
  obtain ⟨shaped, counts, totalNum⟩ := counting.totalled st used
  -- the histogram of counts is only normalized
  have last := foldlM_applyStep_at run used
  have only : (histogramSteps lib ctx bodies s.work hp.nBin).filter (·.1 = 0) =
      [(0, nbNormalizeHistogram lib)] := rfl
  rw [only, List.foldlM_cons] at last
  simp only [List.foldlM_nil, bind_pure] at last
  have fits₂ : h₂.lambdaBins * h₂.betaBins < 2 ^ 32 := by
    rw [shaped.1, shaped.2]
    exact fits
  obtain ⟨h, made⟩ : ∃ h, nbNormalizeHistogram lib h₂ = some h := forBins_some fits₂
  have same := nbNormalizeHistogram_same made
  have bins := made
  rw [nbNormalizeHistogram,
    forBins_eq ⟨fun _ _ _ => rfl, fun _ counts _ _ _ => by simp only [counts]⟩ fits₂,
    Option.some.injEq] at bins
  have header : SameHeader ⟨hp.lambdaBins, hp.betaBins, 0, (countBodies bodies).1, true, hp,
      (countBodies bodies).2, fun _ => clearBin⟩ { h₂ with totalNum := 0 } := by
    have rel := headers 0
    rw [start_eq, show startHistograms st hp (countBodies bodies).1 (countBodies bodies).2 0 =
      some ⟨hp.lambdaBins, hp.betaBins, 0, (countBodies bodies).1, true, hp, (countBodies bodies).2,
        fun _ => clearBin⟩ from if_pos (.inl (by decide))] at rel
    rw [totalled, Option.map_eq_some_iff] at used
    obtain ⟨h₁, counted, rfl⟩ := used
    rw [counted] at rel
    cases rel with
    | some header =>
        rw [SameHeader] at header
        rw [SameHeader, header]
  rw [SameHeader, CountedHistogram.mk.injEq] at header
  obtain ⟨-, -, -, simulated, raw, -, mass, -⟩ := header
  have counts' : Counts lib ctx hp bodies room h := by
    refine ⟨fun n => (same.rawCount n).trans (counts n), same.totalNum.trans totalNum, ?_⟩
    rw [same.totalNum, totalNum]
    refine le_trans ?_ counting.room
    rw [counting.counter]
    refine List.countP_mono_left fun b _ some_ => ?_
    cases ignored : ignoreBody b with
    | false => rfl
    | true =>
        rw [histSlot_ignored ignored] at some_
        cases some_
  refine ⟨h, last.symm.trans made, ⟨?_, ?_, ?_, ?_, ?_, ?_, ?_, ?_⟩, counts'⟩
  · rw [same.lambdaBins, shaped.1]
  · rw [same.betaBins, shaped.2]
  · rw [same.lambdaBins, same.betaBins]
    exact fits₂
  · rw [← bins]
    exact raw
  · rw [← bins]
    exact simulated
  · rw [← bins]
    exact mass
  · rw [same.lambdaBins, same.betaBins, counts'.totalNum, shaped.1, shaped.2,
      ← sum_countP (histSlot lib ctx hp) (hp.lambdaBins * hp.betaBins) bodies
        fun b _ n slot => histSlot_lt fits slot]
    exact Finset.sum_congr rfl fun n _ => counts'.rawCount n
  · intro n lt
    rw [same.lambdaBins, same.betaBins] at lt
    rw [← bins]
    simp only [treatedBins, if_pos lt]

structure Generated (bodies : List (Body R)) (hp : HistogramParams R) (h : CountedHistogram R) :
    Prop extends Tallied bodies hp h where
  room : h.totalNum ≤ h.totalSimulated

theorem nbCreateHistogram_generated {st : LikelihoodUse} {all : CountedMain R}
    (made : nbCreateHistogram lib ctx st bodies hp = some all) :
    ∃ h, all 0 = some h ∧ Generated bodies hp h := by
  obtain ⟨h, used, tallied, counts⟩ := nbCreateHistogramIn_tallied made
  exact ⟨h, used, tallied, tallied.totalSimulated ▸ counts.le_room⟩

end

/-! ## Four bodies beside one -/

/-- The roots of the squares that are met. -/
def fifthsLib : TrigLib ℚ :=
  { M_PI := 355 / 113
    cos _ := 1
    sin _ := 0
    atan2 _ _ := 0
    asin _ := 0
    sqrt x := if x = 16 / 25 then 4 / 5 else if x = 4 / 25 then 2 / 5 else 0
    floorQuotient a b := (⌊a / b⌋ % 2 ^ 32).toNat }

/-- Five bodies, in the two bins of a column of one row. -/
def fiveBodies (counts : ℕ → ℕ) : CountedHistogram ℚ :=
  { lambdaBins := 1
    betaBins := 2
    totalNum := 5
    totalSimulated := 5
    hasRawCounts := true
    params := ⟨0, 0, 0, 0, 1, 1, 0, 2, 2⟩
    massPerParticle := 1
    data := fun n => { (clearBin : CountedBin ℚ) with rawCount := counts n } }

def fourBeside (n : ℕ) : ℕ := if n = 0 then 4 else 1

/-- The bin of one body gets the error of four. -/
theorem nbNormalizeHistogram_beside :
    ¬∃ h', nbNormalizeHistogram fifthsLib (fiveBodies fourBeside) = some h' ∧
      Normalized fifthsLib (fiveBodies fourBeside) h' := by
  rintro ⟨h', run, normalized⟩
  have err := normalized.err 0 (by decide) 1 (by decide)
  have stored : (nbNormalizeHistogram fifthsLib (fiveBodies fourBeside)).map
      (fun h' => (h'.data 1).err) = some (4 / 25) := by
    decide +kernel
  rw [run, Option.map_some, Option.some.injEq] at stored
  rw [show 0 * (fiveBodies fourBeside).betaBins + 1 = 1 from rfl, stored] at err
  revert err
  decide +kernel

theorem nbNormalizeHistogram_iff_beside :
    (∃ h', nbNormalizeHistogram fifthsLib (fiveBodies fourBeside) = some h' ∧
        Normalized fifthsLib (fiveBodies fourBeside) h') ↔
      (fiveBodies fourBeside).lambdaBins * (fiveBodies fourBeside).betaBins < 2 ^ 32 ∧
        ∑ n ∈ Finset.range ((fiveBodies fourBeside).lambdaBins * (fiveBodies fourBeside).betaBins),
          ((fiveBodies fourBeside).data n).rawCount = (fiveBodies fourBeside).totalNum ∧
        ∀ i < (fiveBodies fourBeside).lambdaBins, ∀ j < (fiveBodies fourBeside).betaBins,
          nbNormalizedHistogramError fifthsLib ((fiveBodies fourBeside).data i).rawCount 5 5 =
            nbNormalizedHistogramError fifthsLib
              ((fiveBodies fourBeside).data (i * (fiveBodies fourBeside).betaBins + j)).rawCount
              5 5 :=
  nbNormalizeHistogram_iff fifthsLib (fiveBodies fourBeside) (by decide)

end MilkyWay.NBody
