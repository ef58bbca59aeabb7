import Mathlib.Algebra.Order.BigOperators.Group.Finset
import Mathlib.Tactic.IntervalCases
import Mathlib.Tactic.Linarith
import MilkyWay.Foundation.Fold
import MilkyWay.Foundation.Traced
import MilkyWay.Separation.Kernel
import MilkyWay.Separation.Likelihood
import MilkyWay.Separation.SetUp
import MilkyWay.Separation.Transform

/-! The separation of the stars: each star is put into one of the streams or the background at
random, by their shares of the star's probability. -/

namespace MilkyWay.Separation

open Foundation

structure StreamStats (R : Type) where
  q : ℕ
  nstars : R
  sprob : R
  psg : R
  epsilon_s : R
deriving DecidableEq

section
variable {R : Type} [Zero R] [Add R] [Neg R] [Sub R] [Mul R] [Div R] [OfScientific R] [IntCast R]
  [LT R] [DecidableLT R] [LE R] [DecidableLE R]

def get_stream_bg_weight_consts (L : Libm R) (ss : List (StreamStats R)) (streams : Streams R) :
    List (StreamStats R) × R :=
  let denom := streams.parameters.foldl (fun denom stream => denom + L.exp stream.epsilon) 1.0
  (ss.mapIdx fun i s =>
    { s with epsilon_s := L.exp (streams.parameters[i]?.elim 0 (·.epsilon)) / denom }, 1.0 / denom)

def StreamStats.get (ss : List (StreamStats R)) (field : StreamStats R → R) (i : ℕ) : R :=
  ss[i]?.elim 0 field

def twoPanelSeparation (ap : AstronomyParameters R) (results : SeparationResults R)
    (ss : List (StreamStats R)) (st_probs : List R) (bg_prob epsilon_b : R) :
    List (StreamStats R) :=
  let pbx := epsilon_b * bg_prob / results.backgroundIntegral
  let ss := ss.mapIdx fun i s =>
    { s with psg := s.epsilon_s * st_probs.getD i 0 / results.streamIntegrals.getD i 0 }
  let psgSum := (List.range ap.number_streams).foldl
    (fun psgSum i => psgSum + StreamStats.get ss (·.psg) i) 0
  let ss := ss.map fun s => { s with sprob := s.psg / (psgSum + pbx) }
  ss.map fun s => { s with nstars := s.nstars + s.sprob }

def nonTwoPanelSeparation (ss : List (StreamStats R)) : List (StreamStats R) :=
  ss.map fun s => { s with sprob := 1.0, nstars := s.nstars + 1.0 }

/-- The stream that a star is put into by a random number, or none of them; for more streams
than four the program ends. -/
def prob_ok (ss : List (StreamStats R)) (n : ℕ) (r : R) : Option ℕ :=
  let sprob := StreamStats.get ss (·.sprob)
  match n with
  | 1 => some (if sprob 0 < r then 0 else 1)
  | 2 =>
      let step1 := sprob 0 + sprob 1
      some (if step1 < r then 0
        else if r < sprob 0 then 1
        else if sprob 0 < r ∧ r ≤ step1 then 2 else 0)
  | 3 =>
      let step1 := sprob 0 + sprob 1
      let step2 := sprob 0 + sprob 1 + sprob 2
      some (if step2 < r then 0
        else if r < sprob 0 then 1
        else if sprob 0 < r ∧ r ≤ step1 then 2
        else if step1 < r ∧ r ≤ step2 then 3 else 0)
  | 4 =>
      let step1 := sprob 0 + sprob 1
      let step2 := sprob 0 + sprob 1 + sprob 2
      let step3 := sprob 0 + sprob 1 + sprob 2 + sprob 3
      some (if step3 < r then 0
        else if r ≤ sprob 0 then 1
        else if sprob 0 < r ∧ r ≤ step1 then 2
        else if step1 < r ∧ r ≤ step2 then 3
        else if step2 < r ∧ r ≤ step3 then 4 else 0)
  | _ => none

def twoPanel : Bool := true

/-- What becomes of a star: the stream and the place that are written out. `r` is the random
number between zero and one. -/
def separation (L : Libm R) (ap : AstronomyParameters R) (results : SeparationResults R)
    (cmatrix : Mat3 R) (ss : List (StreamStats R)) (st_probs : List R) (bg_prob epsilon_b : R)
    (current_star_point : Vec3 R) (r : R) : Option (List (StreamStats R) × ℕ × Vec3 R) :=
  let xsun : Vec3 R := ⟨ap.m_sun_r0, 0, 0⟩
  let ss := if twoPanel then twoPanelSeparation ap results ss st_probs bg_prob epsilon_b
    else nonTwoPanelSeparation ss
  (prob_ok ss ap.number_streams r).map fun s_ok =>
    let ss := if 1 ≤ s_ok then ss.modify (s_ok - 1) fun s => { s with q := s.q + 1 } else ss
    let starxyz := lbr2xyz L ap ⟨current_star_point.x, current_star_point.y⟩ current_star_point.z
    (ss, s_ok, transform_point L ap starxyz cmatrix xsun)

def starProb (number_streams : ℕ) (streams : Streams R) (results : SeparationResults R)
    (bgTmp : R) (streamTmps : List R) : R :=
  (List.range number_streams).foldl (fun prob i =>
    prob + streamTmps.getD i 0 / results.streamIntegrals.getD i 0 *
      (streams.parameters[i]?.elim 0 (·.epsilonExp))) (bgTmp / results.backgroundIntegral) /
    streams.sumExpWeights

/-- The background and the streams at a star, which the separation is given as well. -/
def starTmps [BEq R] (probabilityFunc : ProbabilityFunc R) (ap : AstronomyParameters R)
    (sc : List (StreamConstants R)) (sg_dx r_points qw_r3_N : ℕ → R) (lbt : LBTrig R)
    (gPrime reff_xr_rp3 : R) : R × List R :=
  if ap.q == 0.0 then (-1.0, List.replicate ap.number_streams 0)
  else probabilityFunc ap sc sg_dx r_points qw_r3_N lbt gPrime reff_xr_rp3

omit [IntCast R] [LE R] [DecidableLE R] in
theorem likelihood_probability_fst [BEq R] [NatCast R] (L : Libm R)
    (probabilityFunc : ProbabilityFunc R)
    (ap : AstronomyParameters R) (sc : List (StreamConstants R)) (streams : Streams R)
    (results : SeparationResults R) (sg_dx r_points qw_r3_N : ℕ → R) (lbt : LBTrig R)
    (gPrime reff_xr_rp3 : R) (sums : LikelihoodSums R) :
    (likelihood_probability L probabilityFunc ap sc streams results sg_dx r_points qw_r3_N lbt
      gPrime reff_xr_rp3 sums).1 =
      starProb ap.number_streams streams results
        (starTmps probabilityFunc ap sc sg_dx r_points qw_r3_N lbt gPrime reff_xr_rp3).1
        (starTmps probabilityFunc ap sc sg_dx r_points qw_r3_N lbt gPrime reff_xr_rp3).2 := rfl

/-- What the separation is given of a star, with the random number that it draws. -/
structure StarDraw (R : Type) where
  bgTmp : R
  streamTmps : List R
  point : Vec3 R
  r : R

def newStreamStats (number_streams : ℕ) : List (StreamStats R) :=
  List.replicate number_streams ⟨0, 0, 0, 0, 0⟩

/-- The statistics after some of the stars. -/
def separateStars (L : Libm R) (ap : AstronomyParameters R) (streams : Streams R)
    (results : SeparationResults R) (cmatrix : Mat3 R) (stars : List (StarDraw R)) :
    Option (List (StreamStats R)) :=
  let (ss, epsilon_b) := get_stream_bg_weight_consts L (newStreamStats ap.number_streams) streams
  stars.foldlM (fun ss star =>
    (separation L ap results cmatrix ss star.streamTmps star.bgTmp epsilon_b star.point star.r).map
      (·.1)) ss

end

/-! ## The choice of a stream -/

section
variable {F : Type} [Field F] [LinearOrder F] [IsStrictOrderedRing F] {share : ℕ → F} {n k j : ℕ}
  {r : F}

/-- The number is in the interval of a stream between the sums of the shares, to which the upper
bound belongs, for the first also the lower; `0` is for what is above all of them. -/
def InShare (share : ℕ → F) (n : ℕ) (r : F) (k : ℕ) : Prop :=
  if k = 0 then ∑ i ∈ Finset.range n, share i < r
  else k ≤ n ∧ (k = 1 ∨ ∑ i ∈ Finset.range (k - 1), share i < r) ∧
    r ≤ ∑ i ∈ Finset.range k, share i

theorem sum_share_le (nonneg : ∀ i < n, 0 ≤ share i) (le : j ≤ k) (inside : k ≤ n) :
    ∑ i ∈ Finset.range j, share i ≤ ∑ i ∈ Finset.range k, share i :=
  Finset.sum_le_sum_of_subset_of_nonneg (Finset.range_mono le) fun i mem _ =>
    nonneg i ((Finset.mem_range.mp mem).trans_le inside)

theorem InShare.not_lt (nonneg : ∀ i < n, 0 ≤ share i) (first : InShare share n r j)
    (second : InShare share n r k) (positive : 1 ≤ j) : ¬j < k := by
  intro lt
  rw [InShare, if_neg (by omega)] at first second
  obtain ⟨inside, lower, -⟩ := second
  obtain one | below := lower
  · omega
  · have later := sum_share_le nonneg (show j ≤ k - 1 by omega) (by omega)
    exact absurd first.2.2 (later.trans_lt below).not_ge

theorem InShare.unique (nonneg : ∀ i < n, 0 ≤ share i) (first : InShare share n r j)
    (second : InShare share n r k) : j = k := by
  have above : ∀ {m}, InShare share n r 0 → InShare share n r m → m = 0 := by
    intro m none some
    by_contra m_pos
    rw [InShare, if_pos rfl] at none
    rw [InShare, if_neg m_pos] at some
    exact absurd (some.2.2.trans (sum_share_le nonneg some.1 le_rfl)) none.not_ge
  obtain rfl | j_pos := Nat.eq_zero_or_pos j
  · exact (above first second).symm
  obtain rfl | k_pos := Nat.eq_zero_or_pos k
  · exact above second first
  have not_lt := first.not_lt nonneg second j_pos
  have not_gt := second.not_lt nonneg first k_pos
  omega

variable {ss : List (StreamStats F)}

omit [IsStrictOrderedRing F] in
theorem prob_ok_inShare (low : 1 ≤ n) (high : n ≤ 4)
    (bound : n = 1 ∨ n = 4 ∨ r ≠ StreamStats.get ss (·.sprob) 0) :
    ∃ k, prob_ok ss n r = some k ∧ InShare (StreamStats.get ss (·.sprob)) n r k := by
  interval_cases n
  · refine ⟨_, rfl, ?_⟩
    split_ifs with above
    · simpa [InShare] using above
    · simpa [InShare] using above
  · have other := bound.resolve_left (by decide) |>.resolve_left (by decide)
    refine ⟨_, rfl, ?_⟩
    split_ifs with above first second
    · simpa [InShare, Finset.sum_range_succ] using above
    · simpa [InShare] using first.le
    · simpa [InShare, Finset.sum_range_succ] using second
    · exact absurd ⟨lt_of_le_of_ne (not_lt.mp first) other.symm, not_lt.mp above⟩ second
  · have other := bound.resolve_left (by decide) |>.resolve_left (by decide)
    refine ⟨_, rfl, ?_⟩
    split_ifs with above first second third
    · simpa [InShare, Finset.sum_range_succ] using above
    · simpa [InShare] using first.le
    · simpa [InShare, Finset.sum_range_succ] using second
    · simpa [InShare, Finset.sum_range_succ] using third
    · have beyond := not_le.mp (not_and.mp second (lt_of_le_of_ne (not_lt.mp first) other.symm))
      exact absurd ⟨beyond, not_lt.mp above⟩ third
  · refine ⟨_, rfl, ?_⟩
    split_ifs with above first second third fourth
    · simpa [InShare, Finset.sum_range_succ] using above
    · simpa [InShare] using first
    · simpa [InShare, Finset.sum_range_succ] using second
    · simpa [InShare, Finset.sum_range_succ] using third
    · simpa [InShare, Finset.sum_range_succ] using fourth
    · have beyond := not_le.mp (not_and.mp second (not_le.mp first))
      exact absurd ⟨not_le.mp (not_and.mp third beyond), not_lt.mp above⟩ fourth

theorem prob_ok_bound (nonneg : ∀ i < n, 0 ≤ StreamStats.get ss (·.sprob) i)
    (some_streams : n = 2 ∨ n = 3) (bound : r = StreamStats.get ss (·.sprob) 0) :
    prob_ok ss n r = some 0 ∧ InShare (StreamStats.get ss (·.sprob)) n r 1 := by
  have one := nonneg 1 (by omega)
  subst bound
  constructor
  · obtain rfl | rfl := some_streams
    · simp [prob_ok]
    · have two := nonneg 2 (by omega)
      simp [prob_ok, one, add_nonneg one two, add_assoc]
  · obtain rfl | rfl := some_streams <;> simp [InShare]

theorem prob_ok_iff (nonneg : ∀ i < n, 0 ≤ StreamStats.get ss (·.sprob) i) (low : 1 ≤ n)
    (high : n ≤ 4) :
    (∀ k, prob_ok ss n r = some k ↔ InShare (StreamStats.get ss (·.sprob)) n r k) ↔
      n = 1 ∨ n = 4 ∨ r ≠ StreamStats.get ss (·.sprob) 0 := by
  constructor
  · intro exact_intervals
    by_contra bound
    obtain ⟨not_one, not_four, at_bound⟩ : n ≠ 1 ∧ n ≠ 4 ∧
        r = StreamStats.get ss (·.sprob) 0 := by simpa using bound
    obtain ⟨none, first⟩ := prob_ok_bound nonneg (by omega) at_bound
    have found := (exact_intervals 1).mpr first
    rw [none] at found
    cases found
  · intro bound k
    obtain ⟨j, found, inside⟩ := prob_ok_inShare low high bound
    constructor
    · intro picked
      rw [found] at picked
      exact Option.some.inj picked ▸ inside
    · intro other
      rw [found, inside.unique nonneg other]

end

/-! ## The shares -/

section
variable {F : Type} [Field F] [LinearOrder F] [IsStrictOrderedRing F] {L : Libm F}
  {ap : AstronomyParameters F} {streams : Streams F} {results : SeparationResults F}
  {ss : List (StreamStats F)} {star : StarDraw F} {cmatrix : Mat3 F} {i : ℕ}

def expWeights (L : Libm F) (streams : Streams F) : F :=
  streams.parameters.foldl (fun denom stream => denom + L.exp stream.epsilon) 1.0

def streamWeight (L : Libm F) (streams : Streams F) (i : ℕ) : F :=
  L.exp (streams.parameters[i]?.elim 0 (·.epsilon))

def backgroundTerm (results : SeparationResults F) (star : StarDraw F) : F :=
  star.bgTmp / results.backgroundIntegral

def streamTerm (L : Libm F) (streams : Streams F) (results : SeparationResults F)
    (star : StarDraw F) (i : ℕ) : F :=
  star.streamTmps.getD i 0 / results.streamIntegrals.getD i 0 * streamWeight L streams i

def mixture (L : Libm F) (streams : Streams F) (results : SeparationResults F)
    (star : StarDraw F) (n : ℕ) : F :=
  backgroundTerm results star + ∑ i ∈ Finset.range n, streamTerm L streams results star i

theorem foldl_range_add {M : Type} [AddCommMonoid M] (f : ℕ → M) (a : M) (n : ℕ) :
    (List.range n).foldl (fun sum i => sum + f i) a = a + ∑ i ∈ Finset.range n, f i := by
  induction n with
  | zero => simp
  | succ n ih =>
      rw [List.range_succ, List.foldl_append, ih, Finset.sum_range_succ, ← add_assoc]
      rfl

theorem expWeights_pos (exp : ∀ x, 0 < L.exp x) (streams : Streams F) :
    0 < expWeights L streams := by
  refine List.foldlRecOn streams.parameters _ (motive := fun sum : F => 0 < sum) (by norm_num) ?_
  intro sum positive stream _
  exact add_pos positive (exp _)

omit [LinearOrder F] [IsStrictOrderedRing F] in
theorem sumExpWeights_eq (L : Libm F) (streams : Streams F) :
    (setExpStreamWeights L streams).sumExpWeights = expWeights L streams * 0.001 := by
  rw [setExpStreamWeights, expWeights, List.foldl_map]

omit [LinearOrder F] [IsStrictOrderedRing F] in
theorem epsilonExp_eq (inside : i < streams.parameters.length) :
    ((setExpStreamWeights L streams).parameters[i]?.elim 0 (·.epsilonExp)) =
      streamWeight L streams i := by
  simp [setExpStreamWeights, streamWeight, inside]

def Weighted (L : Libm F) (ap : AstronomyParameters F) (streams : Streams F)
    (ss : List (StreamStats F)) : Prop :=
  ss.map (·.epsilon_s) =
    (List.range ap.number_streams).map fun i => streamWeight L streams i / expWeights L streams

omit [LinearOrder F] [IsStrictOrderedRing F] in
theorem Weighted.length (weighted : Weighted L ap streams ss) : ss.length = ap.number_streams := by
  simpa using congrArg List.length weighted

omit [LinearOrder F] [IsStrictOrderedRing F] in
theorem get_stream_bg_weight_consts_weighted :
    Weighted L ap streams
      (get_stream_bg_weight_consts L (newStreamStats ap.number_streams) streams).1 := by
  refine List.ext_getElem (by simp [get_stream_bg_weight_consts, newStreamStats]) fun i _ _ => ?_
  simp [get_stream_bg_weight_consts, newStreamStats]
  rfl

omit [LinearOrder F] [IsStrictOrderedRing F] in
theorem Weighted.epsilon_s (weighted : Weighted L ap streams ss) (inside : i < ss.length) :
    ss[i].epsilon_s = streamWeight L streams i / expWeights L streams := by
  have entry := congrArg (·[i]?) weighted
  simpa [inside, weighted.length ▸ inside] using entry

omit [LinearOrder F] [IsStrictOrderedRing F] in
theorem Weighted.twoPanelSeparation (weighted : Weighted L ap streams ss) (st_probs : List F)
    (bg_prob epsilon_b : F) :
    Weighted L ap streams (twoPanelSeparation ap results ss st_probs bg_prob epsilon_b) := by
  rw [Weighted, ← weighted]
  refine List.ext_getElem (by simp [Separation.twoPanelSeparation]) fun i _ _ => ?_
  simp [Separation.twoPanelSeparation]

omit [IsStrictOrderedRing F] in
theorem separation_weighted {st_probs : List F} {bg_prob epsilon_b r : F} {point : Vec3 F}
    {p : List (StreamStats F) × ℕ × Vec3 F} (weighted : Weighted L ap streams ss)
    (done : separation L ap results cmatrix ss st_probs bg_prob epsilon_b point r = some p) :
    Weighted L ap streams p.1 := by
  obtain ⟨s_ok, -, rfl⟩ := Option.map_eq_some_iff.mp done
  have panel : Weighted L ap streams
      (twoPanelSeparation ap results ss st_probs bg_prob epsilon_b) :=
    weighted.twoPanelSeparation st_probs bg_prob epsilon_b
  have counted : ∀ ss : List (StreamStats F), (ss.modify (s_ok - 1)
      fun s => { s with q := s.q + 1 }).map (·.epsilon_s) = ss.map (·.epsilon_s) := by
    intro ss
    refine List.ext_getElem (by simp) fun i _ _ => ?_
    simp only [List.getElem_map, List.getElem_modify]
    split <;> rfl
  simp only [twoPanel, if_true]
  split
  · exact (counted _).trans panel
  · exact panel

omit [IsStrictOrderedRing F] in
theorem separateStars_weighted {stars : List (StarDraw F)}
    (done : separateStars L ap streams results cmatrix stars = some ss) :
    Weighted L ap streams ss := by
  refine foldlM_invariant (fun _ ss => Weighted L ap streams ss)
    get_stream_bg_weight_consts_weighted ?_ done
  intro _ star _ ss ss' _ weighted turn
  obtain ⟨p, separated, rfl⟩ := Option.map_eq_some_iff.mp turn
  exact separation_weighted weighted separated

def shareOf (L : Libm F) (ap : AstronomyParameters F) (streams : Streams F)
    (results : SeparationResults F) (ss : List (StreamStats F)) (star : StarDraw F) : ℕ → F :=
  StreamStats.get (twoPanelSeparation ap results ss star.streamTmps star.bgTmp
    (1.0 / expWeights L streams)) (·.sprob)

theorem shareOf_eq (exp : ∀ x, 0 < L.exp x) (weighted : Weighted L ap streams ss) {i : ℕ}
    (inside : i < ap.number_streams) :
    shareOf L ap streams results ss star i =
      streamTerm L streams results star i /
        mixture L streams results star ap.number_streams := by
  have weight := (expWeights_pos exp streams).ne'
  have psg : ∀ i < ap.number_streams,
      StreamStats.get (ss.mapIdx fun i s => { s with
        psg := s.epsilon_s * star.streamTmps.getD i 0 / results.streamIntegrals.getD i 0 })
        (·.psg) i = streamTerm L streams results star i / expWeights L streams := by
    intro i inside
    have place : i < ss.length := weighted.length ▸ inside
    simp only [StreamStats.get, List.getElem?_mapIdx, List.getElem?_eq_getElem place,
      Option.map_some, Option.elim_some, weighted.epsilon_s place, streamTerm]
    ring
  have sum : ∑ i ∈ Finset.range ap.number_streams, StreamStats.get (ss.mapIdx fun i s => { s with
        psg := s.epsilon_s * star.streamTmps.getD i 0 / results.streamIntegrals.getD i 0 })
        (·.psg) i + 1.0 / expWeights L streams * star.bgTmp / results.backgroundIntegral =
      mixture L streams results star ap.number_streams / expWeights L streams := by
    have one : (1.0 : F) = 1 := by norm_num
    rw [Finset.sum_congr rfl fun i mem => psg i (Finset.mem_range.mp mem), ← Finset.sum_div, one,
      mixture, backgroundTerm, add_div, add_comm, one_div_mul_eq_div, div_right_comm]
  have place : i < ss.length := weighted.length ▸ inside
  have first := psg i inside
  simp only [StreamStats.get, List.getElem?_mapIdx, List.getElem?_eq_getElem place,
      Option.map_some, Option.elim_some] at first
  simp only [shareOf, twoPanelSeparation, foldl_range_add, zero_add, sum]
  simp only [StreamStats.get, List.getElem?_map, List.getElem?_mapIdx,
    List.getElem?_eq_getElem place, Option.map_some, Option.elim_some, first]
  exact div_div_div_cancel_right₀ weight _ _

omit [LinearOrder F] [IsStrictOrderedRing F] in
theorem starProb_eq (streams_length : streams.parameters.length = ap.number_streams) :
    starProb ap.number_streams (setExpStreamWeights L streams) results star.bgTmp
        star.streamTmps =
      mixture L streams results star ap.number_streams / (expWeights L streams * 0.001) := by
  have terms : ∑ i ∈ Finset.range ap.number_streams, star.streamTmps.getD i 0 /
        results.streamIntegrals.getD i 0 *
        ((setExpStreamWeights L streams).parameters[i]?.elim 0 (·.epsilonExp)) =
      ∑ i ∈ Finset.range ap.number_streams, streamTerm L streams results star i :=
    Finset.sum_congr rfl fun i mem => by
      rw [epsilonExp_eq (streams_length ▸ Finset.mem_range.mp mem), streamTerm]
  rw [starProb, foldl_range_add, terms, sumExpWeights_eq, mixture, backgroundTerm]

/-! ## The divisions -/

def StreamParameters.traced (stream : StreamParameters F) : StreamParameters (Traced F) :=
  ⟨.ofGiven stream.epsilon, .ofGiven stream.mu, .ofGiven stream.r, .ofGiven stream.theta,
    .ofGiven stream.phi, .ofGiven stream.sigma, .ofGiven stream.epsilonExp⟩

def Streams.traced (streams : Streams F) : Streams (Traced F) :=
  ⟨streams.parameters.map (·.traced), .ofGiven streams.sumExpWeights⟩

def SeparationResults.traced (results : SeparationResults F) : SeparationResults (Traced F) :=
  ⟨.ofGiven results.likelihood, .ofGiven results.backgroundIntegral,
    .ofGiven results.backgroundLikelihood, results.streamIntegrals.map .ofGiven,
    results.streamLikelihoods.map .ofGiven⟩

theorem starProb_sound (exp : ∀ x, 0 < L.exp x)
    (streams_length : streams.parameters.length = ap.number_streams)
    (integrals_length : results.streamIntegrals.length = ap.number_streams)
    (tmps_length : star.streamTmps.length = ap.number_streams) :
    (starProb ap.number_streams (setExpStreamWeights L streams).traced results.traced
        (.ofGiven star.bgTmp) (star.streamTmps.map .ofGiven)).sound = true ↔
      results.backgroundIntegral ≠ 0 ∧
        ∀ i < ap.number_streams, results.streamIntegrals.getD i 0 ≠ 0 := by
  have weights : (setExpStreamWeights L streams).sumExpWeights ≠ 0 := by
    rw [sumExpWeights_eq]
    exact mul_ne_zero (expWeights_pos exp streams).ne' (by norm_num)
  rw [starProb, Traced.sound_div, Traced.sound_foldl_add_iff]
  have term : ∀ i < ap.number_streams,
      ((star.streamTmps.map Traced.ofGiven).getD i 0 / results.traced.streamIntegrals.getD i 0 *
        ((setExpStreamWeights L streams).traced.parameters[i]?.elim 0 (·.epsilonExp))).sound =
          true ↔ results.streamIntegrals.getD i 0 ≠ 0 := by
    intro i inside
    simp [SeparationResults.traced, Streams.traced, StreamParameters.traced, setExpStreamWeights,
      streams_length, integrals_length, tmps_length, inside]
  constructor
  · rintro ⟨⟨background, sound⟩, -, -⟩
    refine ⟨by simpa [SeparationResults.traced] using background, fun i inside => ?_⟩
    exact (term i inside).mp (sound i (List.mem_range.mpr inside))
  · rintro ⟨background, integrals⟩
    refine ⟨⟨by simpa [SeparationResults.traced] using background, fun i mem => ?_⟩, rfl,
      fun _ _ => weights⟩
    exact (term i (List.mem_range.mp mem)).mpr (integrals i (List.mem_range.mp mem))

/-! ## The separation of a star -/

/-- The shares are those of the terms that the probability of the star adds up, and a random
number picks the stream in whose interval it is. -/
structure SeparatesByMixture (L : Libm F) (ap : AstronomyParameters F) (streams : Streams F)
    (results : SeparationResults F) (cmatrix : Mat3 F) (ss : List (StreamStats F))
    (star : StarDraw F) (star_prob : F) : Prop where
  sound : (starProb ap.number_streams (setExpStreamWeights L streams).traced results.traced
    (.ofGiven star.bgTmp) (star.streamTmps.map .ofGiven)).sound = true
  terms : star_prob ≠ 0 → ∀ i < ap.number_streams,
    shareOf L ap streams results ss star i * star_prob =
      streamTerm L streams results star i / (setExpStreamWeights L streams).sumExpWeights
  shares : 0 < star_prob → (∀ i < ap.number_streams, 0 ≤ shareOf L ap streams results ss star i) ∧
    ∑ i ∈ Finset.range ap.number_streams, shareOf L ap streams results ss star i ≤ 1
  picks : 0 < star_prob → ∀ k, (separation L ap results cmatrix ss star.streamTmps star.bgTmp
      (1.0 / expWeights L streams) star.point star.r).map (·.2.1) = some k ↔
    InShare (shareOf L ap streams results ss star) ap.number_streams star.r k

/-- No integral is zero. Where the mixture is positive no part of it is negative, and of two or
three streams the number is not the bound of the first. -/
structure Separable (L : Libm F) (ap : AstronomyParameters F) (streams : Streams F)
    (results : SeparationResults F) (star : StarDraw F) : Prop where
  background : results.backgroundIntegral ≠ 0
  integrals : ∀ i < ap.number_streams, results.streamIntegrals.getD i 0 ≠ 0
  positive : 0 < mixture L streams results star ap.number_streams →
    0 ≤ backgroundTerm results star ∧
    (∀ i < ap.number_streams, 0 ≤ streamTerm L streams results star i) ∧
    (ap.number_streams = 1 ∨ ap.number_streams = 4 ∨
      star.r * mixture L streams results star ap.number_streams ≠
        streamTerm L streams results star 0)

omit [IsStrictOrderedRing F] in
theorem separation_picks (k : ℕ) :
    (separation L ap results cmatrix ss star.streamTmps star.bgTmp (1.0 / expWeights L streams)
      star.point star.r).map (·.2.1) = some k ↔
    prob_ok (twoPanelSeparation ap results ss star.streamTmps star.bgTmp
      (1.0 / expWeights L streams)) ap.number_streams star.r = some k := by
  rw [separation, Option.map_map]
  exact iff_of_eq (congrArg (· = some k) Option.map_id')

theorem separatesByMixture_iff (exp : ∀ x, 0 < L.exp x) (weighted : Weighted L ap streams ss)
    (streams_length : streams.parameters.length = ap.number_streams)
    (integrals_length : results.streamIntegrals.length = ap.number_streams)
    (tmps_length : star.streamTmps.length = ap.number_streams)
    (low : 1 ≤ ap.number_streams) (high : ap.number_streams ≤ 4) :
    SeparatesByMixture L ap streams results cmatrix ss star
        (starProb ap.number_streams (setExpStreamWeights L streams) results star.bgTmp
          star.streamTmps) ↔ Separable L ap streams results star := by
  have weight : 0 < expWeights L streams * 0.001 :=
    mul_pos (expWeights_pos exp streams) (by norm_num)
  have share : ∀ i < ap.number_streams, shareOf L ap streams results ss star i =
      streamTerm L streams results star i / mixture L streams results star ap.number_streams :=
    fun i inside => shareOf_eq exp weighted inside
  have sum_share : ∑ i ∈ Finset.range ap.number_streams, shareOf L ap streams results ss star i =
      (∑ i ∈ Finset.range ap.number_streams, streamTerm L streams results star i) /
        mixture L streams results star ap.number_streams := by
    rw [Finset.sum_div]
    exact Finset.sum_congr rfl fun i mem => share i (Finset.mem_range.mp mem)
  have parts : mixture L streams results star ap.number_streams = backgroundTerm results star +
      ∑ i ∈ Finset.range ap.number_streams, streamTerm L streams results star i := rfl
  rw [starProb_eq streams_length]
  constructor
  · rintro ⟨sound, -, shares, picks⟩
    obtain ⟨background, integrals⟩ :=
      (starProb_sound exp streams_length integrals_length tmps_length).mp sound
    refine ⟨background, integrals, fun positive => ?_⟩
    obtain ⟨nonneg, sum_le⟩ := shares (div_pos positive weight)
    refine ⟨?_, fun i inside => ?_, ?_⟩
    · rw [sum_share, div_le_one positive] at sum_le
      linarith
    · have part := nonneg i inside
      rwa [share i inside, le_div_iff₀ positive, zero_mul] at part
    · have found := (prob_ok_iff nonneg low high).mp fun k =>
        (separation_picks k).symm.trans (picks (div_pos positive weight) k)
      refine found.imp_right fun other => other.imp_right fun bound equal => bound ?_
      exact (eq_div_of_mul_eq positive.ne' equal).trans (share 0 low).symm
  · rintro ⟨background, integrals, parts_nonneg⟩
    refine ⟨(starProb_sound exp streams_length integrals_length tmps_length).mpr
      ⟨background, integrals⟩, fun nonzero i inside => ?_, fun positive => ?_, fun positive k => ?_⟩
    · have mixed : mixture L streams results star ap.number_streams ≠ 0 := fun zero =>
        nonzero (by rw [zero, zero_div])
      rw [share i inside, sumExpWeights_eq, div_mul_div_cancel₀ mixed]
    · replace positive := (div_pos_iff_of_pos_right weight).mp positive
      obtain ⟨background_nonneg, terms_nonneg, -⟩ := parts_nonneg positive
      refine ⟨fun i inside => ?_, ?_⟩
      · rw [share i inside]
        exact div_nonneg (terms_nonneg i inside) positive.le
      · rw [sum_share, div_le_one positive]
        linarith
    · replace positive := (div_pos_iff_of_pos_right weight).mp positive
      obtain ⟨-, terms_nonneg, bound⟩ := parts_nonneg positive
      refine (separation_picks k).trans ((prob_ok_iff (fun i inside => ?_) low high).mpr ?_ k)
      · exact (div_nonneg (terms_nonneg i inside) positive.le).trans_eq (share i inside).symm
      · refine bound.imp_right fun other => other.imp_right fun ne equal => ne ?_
        exact (eq_div_iff positive.ne').mp (equal.trans (share 0 low))

end

/-! ## The bound of the first of two streams -/

def twoStreams : Streams ℚ := ⟨[⟨0, 0, 0, 0, 0, 1, 1⟩, ⟨0, 0, 0, 0, 0, 1, 1⟩], 1⟩

def overTwoStreams : AstronomyParameters ℚ := { halfHernquist with number_streams := 2 }

def unitIntegrals : SeparationResults ℚ := ⟨0, 1, 0, [1, 1], [0, 0]⟩

/-- Half of the star is background and a quarter of it each stream. -/
def halfBackground (r : ℚ) : StarDraw ℚ := ⟨2, [1, 1], ⟨0, 0, 10⟩, r⟩

/-- The probability of the star in the likelihood. -/
def halfBackgroundProb : ℚ :=
  (likelihood_probability rational.L (fun _ _ _ _ _ _ _ _ => (2, [1, 1])) overTwoStreams []
    (setExpStreamWeights rational.L twoStreams) unitIntegrals (fun _ => 0) (fun _ => 0)
    (fun _ => 0) ⟨0, 0, 0⟩ 0 0 ⟨0, 0, [0, 0]⟩).1

def twoStreamsStats : List (StreamStats ℚ) :=
  (get_stream_bg_weight_consts rational.L (newStreamStats 2) twoStreams).1

end MilkyWay.Separation
