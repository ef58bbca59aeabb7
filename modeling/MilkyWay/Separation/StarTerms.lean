import Mathlib.Algebra.BigOperators.Ring.List
import MilkyWay.Separation.SmallStreams

/-! What each star adds to the sums of the likelihood, in exact arithmetic: a logarithm or the
fixed value to the sum of the total, of the background and of each stream. The test of the
total compares it with a part of itself, which zero passes: `countsEach_iff`. -/

namespace MilkyWay.Separation

open Foundation

section
variable {R : Type} [Zero R] [Add R] [Neg R] [Sub R] [Mul R] [Div R] [OfScientific R] [NatCast R]
  [BEq R] [LT R] [DecidableLT R] [LE R] [DecidableLE R]

/-- The probabilities of a star from the background and from each stream, by their integrals. -/
structure StarProbs (R : Type) where
  bg : R
  stream : ℕ → R

/-- The probability of a star. -/
def StarProbs.total (number_streams : ℕ) (sumExpWeights : R) (p : StarProbs R) : R :=
  (List.range number_streams).foldl (fun prob i => prob + p.stream i) p.bg / sumExpWeights

def addStar (L : Libm R) (number_streams : ℕ) (sumExpWeights : R) (sums : LikelihoodSums R)
    (p : StarProbs R) : LikelihoodSums R :=
  let star_prob := p.total number_streams sumExpWeights
  { prob := if mw_fabs star_prob * SEPARATION_EPS ≤ mw_fabs star_prob then
      sums.prob.add (L.log10 star_prob)
    else { sums.prob with sum := sums.prob.sum - 238.0 }
    bgSum := sums.bgSum.add (probability_log L p.bg sumExpWeights)
    streamSums := sums.streamSums.mapIdx fun i sum =>
      sum.add (probability_log L (p.stream i) sumExpWeights) }

def starSums (L : Libm R) (number_streams : ℕ) (sumExpWeights : R) (stars : List (StarProbs R)) :
    LikelihoodSums R :=
  stars.foldl (addStar L number_streams sumExpWeights)
    ⟨0, 0, List.replicate number_streams 0⟩

def pointProbs (L : Libm R) (probabilityFunc : ProbabilityFunc R) (ap : AstronomyParameters R)
    (sc : List (StreamConstants R)) (streams : Streams R) (results : SeparationResults R)
    (sg : StreamGauss R) (point : Vec3 R) : StarProbs R where
  bg := (pointTmps L probabilityFunc ap sc sg point).1 / results.backgroundIntegral
  stream i := (pointTmps L probabilityFunc ap sc sg point).2.getD i 0 /
    results.streamIntegrals.getD i 0 * (streams.parameters[i]?.elim 0 (·.epsilonExp))

theorem likelihood_sum_eq (L : Libm R) (probabilityFunc : ProbabilityFunc R)
    (ap : AstronomyParameters R) (sc : List (StreamConstants R)) (streams : Streams R)
    (results : SeparationResults R) (sg : StreamGauss R) (stars : List (Vec3 R)) :
    let sums := starSums L ap.number_streams streams.sumExpWeights
      (stars.map (pointProbs L probabilityFunc ap sc streams results sg))
    likelihood_sum L probabilityFunc ap sc streams results sg stars =
      { results with
        backgroundLikelihood := calculateLikelihood sums.bgSum stars.length 0
        streamLikelihoods := sums.streamSums.map fun sum =>
          calculateLikelihood sum stars.length 0
        likelihood := calculateLikelihood sums.prob stars.length 0 } := by
  have star : likelihoodStar L probabilityFunc ap sc streams results sg = fun sums point =>
      addStar L ap.number_streams streams.sumExpWeights sums
        (pointProbs L probabilityFunc ap sc streams results sg point) := by
    funext sums point
    unfold likelihoodStar addStar
    dsimp only
    split
    · rename_i some
      exact congrArg (fun prob => LikelihoodSums.mk prob _ _) (if_pos some).symm
    · rename_i none
      exact congrArg (fun prob => LikelihoodSums.mk prob _ _) (if_neg none).symm
  intro sums
  rw [likelihood_sum, star]
  simp only [sums, starSums, List.foldl_map]

end

/-! ## Terms in exact arithmetic -/

section
variable {F : Type} [Field F] [LinearOrder F] [IsStrictOrderedRing F]

omit [LinearOrder F] [IsStrictOrderedRing F] in
theorem foldl_add_eq {α : Type} (f : α → F) (l : List α) (start : F) :
    l.foldl (fun k a => k.add (f a)) (Kahan.mk start 0) = ⟨start + (l.map f).sum, 0⟩ := by
  induction l generalizing start with
  | nil => simp
  | cons a l ih =>
      have first : (Kahan.mk start 0).add (f a) = ⟨start + f a, 0⟩ := by
        simp [Kahan.add]
      rw [List.foldl_cons, first, ih, List.map_cons, List.sum_cons, add_assoc]

theorem abs_eq (x : F) : mw_fabs x = |x| := by
  unfold mw_fabs
  split
  · rename_i negative
    exact (abs_of_neg negative).symm
  · rename_i nonneg
    exact (abs_of_nonneg (not_lt.mp nonneg)).symm

theorem muleps_le (x : F) : mw_fabs x * SEPARATION_EPS ≤ mw_fabs x := by
  rw [abs_eq]
  refine mul_le_of_le_one_right (abs_nonneg x) ?_
  norm_num [SEPARATION_EPS]

variable {L : Libm F} {number_streams : ℕ} {sumExpWeights : F} {stars : List (StarProbs F)}

theorem foldl_addStar (sums : LikelihoodSums F) :
    stars.foldl (addStar L number_streams sumExpWeights) sums =
      ⟨stars.foldl (fun k p => k.add (L.log10 (p.total number_streams sumExpWeights))) sums.prob,
        stars.foldl (fun k p => k.add (probability_log L p.bg sumExpWeights)) sums.bgSum,
        sums.streamSums.mapIdx fun i k =>
          stars.foldl (fun k p => k.add (probability_log L (p.stream i) sumExpWeights)) k⟩ := by
  induction stars generalizing sums with
  | nil =>
      have same : sums.streamSums.mapIdx (fun _ k => k) = sums.streamSums := by
        apply List.ext_getElem
        · simp
        · intro i _ _
          simp
      simp only [List.foldl_nil, same]
  | cons p stars ih =>
      rw [List.foldl_cons, ih]
      simp only [addStar, if_pos (muleps_le _), List.mapIdx_mapIdx, List.foldl_cons]
      rfl

theorem starSums_eq : starSums L number_streams sumExpWeights stars =
    ⟨⟨(stars.map fun p => L.log10 (p.total number_streams sumExpWeights)).sum, 0⟩,
      ⟨(stars.map fun p => probability_log L p.bg sumExpWeights).sum, 0⟩,
      (List.range number_streams).map fun i =>
        ⟨(stars.map fun p => probability_log L (p.stream i) sumExpWeights).sum, 0⟩⟩ := by
  have zero : (0 : Kahan F) = ⟨0, 0⟩ := rfl
  have streams : ((List.replicate number_streams (0 : Kahan F)).mapIdx fun i k =>
      stars.foldl (fun k p => k.add (probability_log L (p.stream i) sumExpWeights)) k) =
      (List.range number_streams).map fun i =>
        ⟨(stars.map fun p => probability_log L (p.stream i) sumExpWeights).sum, 0⟩ := by
    apply List.ext_getElem
    · simp
    · intro i _ _
      simp only [List.getElem_mapIdx, List.getElem_replicate, List.getElem_map,
        List.getElem_range, zero, foldl_add_eq, zero_add]
  rw [starSums, foldl_addStar, streams, zero, foldl_add_eq, foldl_add_eq, zero_add, zero_add]

/-! ## When each star has its term -/

def totalTerm (L : Libm F) (star_prob : F) : F :=
  if star_prob = 0 then -238.0 else L.log10 star_prob

/-- Whatever the logarithm is, each star adds its term to the total, and one term to the
background and to each stream, and the logarithm of zero is not looked at. -/
structure CountsEach (number_streams : ℕ) (sumExpWeights : F) (stars : List (StarProbs F)) :
    Prop where
  prob : ∀ L : Libm F, (starSums L number_streams sumExpWeights stars).prob =
    ⟨(stars.map fun p => totalTerm L (p.total number_streams sumExpWeights)).sum, 0⟩
  bgSum : ∀ L : Libm F, (starSums L number_streams sumExpWeights stars).bgSum =
    ⟨(stars.map fun p => probability_log L p.bg sumExpWeights).sum, 0⟩
  streamSums : ∀ L : Libm F, (starSums L number_streams sumExpWeights stars).streamSums =
    (List.range number_streams).map fun i =>
      ⟨(stars.map fun p => probability_log L (p.stream i) sumExpWeights).sum, 0⟩
  never : ∀ L L' : Libm F, (∀ x, x ≠ 0 → L.log10 x = L'.log10 x) →
    starSums L number_streams sumExpWeights stars = starSums L' number_streams sumExpWeights stars

theorem probability_log_congr (positive : 0 < sumExpWeights) {L' : Libm F}
    (same : ∀ x, x ≠ 0 → L.log10 x = L'.log10 x) (x : F) :
    probability_log L x sumExpWeights = probability_log L' x sumExpWeights := by
  unfold probability_log
  split
  · rfl
  · rename_i large
    refine same _ (div_ne_zero ?_ positive.ne')
    rintro rfl
    rw [abs_eq, abs_zero] at large
    exact large (by norm_num [SEPARATION_EPS])

def flat (F : Type) [Field F] : Libm F :=
  ⟨id, id, id, fun _ => 0, id, id, id, fun x _ => x, fun x _ => x, fun _ => false⟩

/-- Each star has its term just where no star has a probability of zero. -/
theorem countsEach_iff (number_streams : ℕ) (stars : List (StarProbs F))
    (positive : 0 < sumExpWeights) :
    CountsEach number_streams sumExpWeights stars ↔
      ∀ p ∈ stars, p.total number_streams sumExpWeights ≠ 0 := by
  constructor
  · intro counts p mem zero
    have sum := congrArg Kahan.sum (counts.prob (flat F))
    rw [starSums_eq] at sum
    have below : ∀ p ∈ stars, totalTerm (flat F) (p.total number_streams sumExpWeights) ≤
        (flat F).log10 (p.total number_streams sumExpWeights) := by
      intro p _
      unfold totalTerm
      split
      · norm_num [flat]
      · exact le_rfl
    have less : totalTerm (flat F) (p.total number_streams sumExpWeights) <
        (flat F).log10 (p.total number_streams sumExpWeights) := by
      rw [totalTerm, if_pos zero]
      norm_num [flat]
    exact (List.sum_lt_sum _ _ below ⟨p, mem, less⟩).ne' sum
  · intro nonzero
    refine ⟨fun L => ?_, fun L => ?_, fun L => ?_, fun L L' same => ?_⟩
    · rw [starSums_eq]
      have terms : (stars.map fun p => L.log10 (p.total number_streams sumExpWeights)) =
          stars.map fun p => totalTerm L (p.total number_streams sumExpWeights) :=
        List.map_congr_left fun p mem => (if_neg (nonzero p mem)).symm
      rw [terms]
    · rw [starSums_eq]
    · rw [starSums_eq]
    · have totals : (stars.map fun p => L.log10 (p.total number_streams sumExpWeights)) =
          stars.map fun p => L'.log10 (p.total number_streams sumExpWeights) :=
        List.map_congr_left fun p mem => same _ (nonzero p mem)
      simp only [starSums_eq, totals, probability_log_congr positive same]

end

/-- A star from the background only. -/
theorem countsEach_iff_background :
    (0 : ℚ) < 2 ∧ (CountsEach 1 (2 : ℚ) [⟨1, fun _ => 0⟩] ↔
      ∀ p ∈ [(⟨1, fun _ => 0⟩ : StarProbs ℚ)], p.total 1 2 ≠ 0) :=
  ⟨by norm_num, countsEach_iff 1 _ (by norm_num)⟩

/-- A star without a probability: the logarithm of zero is added. -/
theorem not_countsEach_zero :
    (∀ L : Libm ℚ, (starSums L 0 2 [⟨0, fun _ => 0⟩]).prob.sum = L.log10 0) ∧
      ¬CountsEach 0 (2 : ℚ) [⟨0, fun _ => 0⟩] := by
  have added : ∀ L : Libm ℚ, (starSums L 0 2 [⟨0, fun _ => 0⟩]).prob.sum = L.log10 0 := by
    intro L
    simp [starSums_eq, StarProbs.total]
  refine ⟨added, fun counts => ?_⟩
  have sum := congrArg Kahan.sum (counts.prob (flat ℚ))
  rw [added] at sum
  norm_num [flat, totalTerm, StarProbs.total] at sum

end MilkyWay.Separation
