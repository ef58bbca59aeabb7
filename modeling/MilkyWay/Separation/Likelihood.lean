import MilkyWay.Separation.EvaluationState
import MilkyWay.Separation.Probabilities

/-! The likelihood of the stars: the probability of each star from the background and from
each stream, and the sums of their logarithms. -/

namespace MilkyWay.Separation

open Foundation

section
variable {R : Type} [Zero R] [Add R] [Neg R] [Sub R] [Mul R] [Div R] [OfScientific R] [NatCast R]
  [BEq R] [LT R] [DecidableLT R] [LE R] [DecidableLE R]

/-- The integrals of the areas but the first are cut out of the first. -/
def getFinalIntegrals (results : SeparationResults R) (es : EvaluationState R) :
    SeparationResults R :=
  let first := es.cuts.getD 0 ⟨0, []⟩
  let (bgIntegral, streamIntegrals) := (es.cuts.drop 1).foldl (fun integrals cut =>
    (integrals.1 - cut.bgIntegral,
      integrals.2.mapIdx fun j integral => integral - cut.streamIntegrals.getD j 0))
    (first.bgIntegral, first.streamIntegrals)
  { results with backgroundIntegral := bgIntegral, streamIntegrals }

def calcRConstsLik (L : Libm R) (coords : R) (ap : AstronomyParameters R) : RConsts R :=
  let gPrime := calcG L coords
  if ap.modfit then
    let tempr := distance_magnitude L gPrime
    let stdev_r := 0.52 * inv (1.0 + L.exp (12.0 - tempr)) + 0.76
    ⟨0.0, gPrime, 1.0 / (0.5 * (0.36 + stdev_r) * SQRT_2PI), stdev_r, modfitEps L tempr⟩
  else ⟨0.0, gPrime, 1.0 / (stdev * SQRT_2PI), stdev, 1.0⟩

def setSplitRPoints (L : Libm R) (ap : AstronomyParameters R) (sg : StreamGauss R)
    (rc : RConsts R) : ℕ → RPoints R := fun i =>
  calc_r_point L ap (sg.dx i) (sg.qgaus_W i) rc

/-- A probability too small has a fixed logarithm. -/
def probability_log (L : Libm R) (bg sum_exp_weights : R) : R :=
  if mw_fabs bg < SEPARATION_EPS then -238.0 else L.log10 (bg / sum_exp_weights)

/-- The sums over the stars: of the probability, of the background's and of each stream's. -/
structure LikelihoodSums (R : Type) where
  prob : Kahan R
  bgSum : Kahan R
  streamSums : List (Kahan R)

variable (L : Libm R) (probabilityFunc : ProbabilityFunc R) (ap : AstronomyParameters R)
  (sc : List (StreamConstants R)) (streams : Streams R) (results : SeparationResults R)

/-- The probability of a star, which adds to the sums of the background and the streams. -/
def likelihood_probability (sg_dx r_points qw_r3_N : ℕ → R) (lbt : LBTrig R)
    (gPrime reff_xr_rp3 : R) (sums : LikelihoodSums R) : R × LikelihoodSums R :=
  let (bgTmp, streamTmps) :=
    if ap.q == 0.0 then (-1.0, List.replicate ap.number_streams 0)
    else probabilityFunc ap sc sg_dx r_points qw_r3_N lbt gPrime reff_xr_rp3
  let bgTmp := bgTmp / results.backgroundIntegral
  let streamOnly := fun i =>
    streamTmps.getD i 0 / results.streamIntegrals.getD i 0 *
      (streams.parameters[i]?.elim 0 (·.epsilonExp))
  let starProb := (List.range ap.number_streams).foldl (fun prob i => prob + streamOnly i) bgTmp
  (starProb / streams.sumExpWeights,
    { sums with
      bgSum := sums.bgSum.add (probability_log L bgTmp streams.sumExpWeights)
      streamSums := sums.streamSums.mapIdx fun i sum =>
        sum.add (probability_log L (streamOnly i) streams.sumExpWeights) })

def likelihoodStar (sg : StreamGauss R) (sums : LikelihoodSums R) (point : Vec3 R) :
    LikelihoodSums R :=
  let rc := calcRConstsLik L point.z ap
  let points := setSplitRPoints L ap sg rc
  let reff_xr_rp3 := calcReffXrRp3 L point.z rc.gPrime
  let lbt := lb_trig L ⟨point.x, point.y⟩
  let (star_prob, sums) := likelihood_probability L probabilityFunc ap sc streams results sg.dx
    (fun i => (points i).r_point) (fun i => (points i).qw_r3_N) lbt rc.gPrime reff_xr_rp3 sums
  if mw_fabs star_prob * SEPARATION_EPS ≤ mw_fabs star_prob then
    { sums with prob := sums.prob.add (L.log10 star_prob) }
  else { sums with prob := { sums.prob with sum := sums.prob.sum - 238.0 } }

def calculateLikelihood (ksum : Kahan R) (nStars badJacobians : ℕ) : R :=
  (ksum.sum + ksum.correction) / ((nStars - badJacobians : ℕ) : R) - 3.0

def likelihood_sum (sg : StreamGauss R) (stars : List (Vec3 R)) : SeparationResults R :=
  let sums := stars.foldl (likelihoodStar L probabilityFunc ap sc streams results sg)
    ⟨0, 0, List.replicate ap.number_streams 0⟩
  { results with
    backgroundLikelihood := calculateLikelihood sums.bgSum stars.length 0
    streamLikelihoods := sums.streamSums.map fun sum => calculateLikelihood sum stars.length 0
    likelihood := calculateLikelihood sums.prob stars.length 0 }

/-- A result that is not a number gets a very bad likelihood. -/
def checkSeparationResults (isfinite : R → Bool) (results : SeparationResults R) :
    SeparationResults R :=
  if isfinite results.likelihood && isfinite results.backgroundIntegral &&
      isfinite results.backgroundLikelihood && results.streamIntegrals.all isfinite &&
      results.streamLikelihoods.all isfinite then results
  else { results with likelihood := -999.0 }

/-- The results of a unit that nothing is known of. -/
def newSeparationResults (NAN : R) (number_streams : ℕ) : SeparationResults R :=
  ⟨NAN, NAN, NAN, List.replicate number_streams NAN, List.replicate number_streams NAN⟩

end

end MilkyWay.Separation
