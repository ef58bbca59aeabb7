import MilkyWay.Foundation.Stoppable
import MilkyWay.Separation.EvaluationState
import MilkyWay.Separation.Probabilities

/-! The integrals over the areas on the processor: loops over nu, mu and r whose
counters and sums are in the state of the evaluation. The state may be saved at each
step in mu. -/

namespace MilkyWay.Separation

open Foundation

/-- What the integrals are made with: the areas, the points of the quadrature and the
function that is in use. -/
structure Integration (R : Type) where
  L : Libm R
  ias : ℕ → IntegralArea R
  sg : StreamGauss R
  probabilityFunc : ProbabilityFunc R

/-- The state of an evaluation and the sums that the integrals completed so far have
been taken from. -/
abbrev Progress (R : Type) := EvaluationState R × List (Sums R)

def newProgress {R : Type} [Zero R] (ap : AstronomyParameters R) : Progress R :=
  (newEvaluationState ap, [])

/-- The state that is read back, with the sums taken so far. -/
def readProgress {R : Type} [Zero R] [Add R] [Sub R] (p : Progress R) : Progress R :=
  (readCheckpoint p.1, p.2)

abbrev Failure (R : Type) := ℤ × List (Sums R)

section
variable {R : Type} [Zero R] [Add R] [Neg R] [Sub R] [Mul R] [Div R] [OfScientific R] [NatCast R]
  [IntCast R] [BEq R] [LT R] [DecidableLT R] [LE R] [DecidableLE R]

/-- Adds the probabilities at a point to the sums. -/
def sumProbs (sums : Sums R) (probs : R × List R) : Sums R :=
  (sums.1.add probs.1, sums.2.mapIdx fun i sum => sum.add (probs.2.getD i 0))

variable (E : Integration R) (ap : AstronomyParameters R) (sc : List (StreamConstants R))

/-- The probabilities at a step in r. -/
def atPoint (ia : IntegralArea R) (lbt : LBTrig R) (id : R) (r_step : ℕ) : R × List R :=
  let (rPts, rc) := precalculateRPts E.L ap ia E.sg
  let points := fun i => rPts (r_step * ap.convolve + i)
  let reff_xr_rp3 := id * (rc r_step).irv_reff_xr_rp3
  E.probabilityFunc ap sc E.sg.dx (fun i => (points i).r_point) (fun i => (points i).qw_r3_N) lbt
    (rc r_step).gPrime reff_xr_rp3

def r_sum (ia : IntegralArea R) (lbt : LBTrig R) (id : R) (sums : Sums R) : Sums R :=
  (List.range ia.r_steps).foldl (fun sums r_step =>
    sumProbs sums (atPoint E ap sc ia lbt id r_step)) sums

/-- The direction of a step in mu. -/
def muTrig (ia : IntegralArea R) (nuid : NuId R) (mu_step : ℕ) : LBTrig R :=
  let mu := ia.mu_min + ((mu_step : R) + 0.5) * ia.mu_step_size
  lb_trig E.L (gc2lb E.L ap.wedge mu nuid.nu)

def muStep (ia : IntegralArea R) (nuid : NuId R) (es : EvaluationState R) : EvaluationState R :=
  let es := es.withSums
    (r_sum E ap sc ia (muTrig E ap ia nuid es.mu_step) nuid.id es.sums)
  { es with mu_step := es.mu_step + 1 }

def mu_sum (ia : IntegralArea R) (nuid : NuId R) : Stoppable (EvaluationState R) ℤ :=
  (forLoop (·.mu_step) ia.mu_steps
    ((opportunity writeCheckpoint).andThen fun es => .ok (muStep E ap sc ia nuid es))).andThen
    fun es => .ok { es with mu_step := 0 }

def nuSum (ia : IntegralArea R) : Stoppable (EvaluationState R) ℤ :=
  (forLoop (·.nu_step) ia.nu_steps fun o es =>
    (mu_sum E ap sc ia (calcNuStep E.L ia es.nu_step)).andThen
      (fun es => .ok { es with nu_step := es.nu_step + 1 }) o es).andThen
    fun es => .ok { es with nu_step := 0 }

/-- The final sums become the integrals of the current cut. -/
def separationIntegralGetSums (es : EvaluationState R) : EvaluationState R :=
  { es with cuts := es.cuts.set es.currentCut ⟨es.bgSum.sum, es.streamSums.map Kahan.sum⟩ }

/-- Without a flattening there is no probability and the integral fails. -/
def integrate (ia : IntegralArea R) : Stoppable (EvaluationState R) ℤ := fun o es =>
  if ap.q == 0.0 then .error (.failed 1)
  else (nuSum E ap sc ia).andThen (fun es => .ok (separationIntegralGetSums es)) o es

/-- Insignificant streams have no integral. -/
def cleanStreamIntegrals (streamIntegrals : List R) : List R :=
  List.zipWith (fun integral (sc : StreamConstants R) => if sc.large_sigma then integral else 0.0)
    streamIntegrals sc

def finishCut (p : Progress R) : Except (Halt (Progress R) (Failure R)) (Progress R) :=
  let (es, taken) := p
  let taken := taken ++ [es.sums]
  let cut := es.cuts.getD es.currentCut ⟨0, []⟩
  if E.L.isnan cut.bgIntegral then .error (.failed (1, taken))
  else
    let es := { es with
      cuts := es.cuts.set es.currentCut
        { cut with streamIntegrals := cleanStreamIntegrals sc cut.streamIntegrals } }
    let es := clearEvaluationStateTmpSums es
    .ok ({ es with currentCut := es.currentCut + 1 }, taken)

/-- The integrals over all areas, each on the processor or on a device. -/
def calculateIntegrals (integrate : IntegralArea R → Stoppable (EvaluationState R) ℤ) :
    Stoppable (Progress R) (Failure R) :=
  forLoop (·.1.currentCut) ap.number_integrals fun o p =>
    (integrate (E.ias p.1.currentCut)).beside.andThen (finishCut E sc) o p

/-- All integrals on the processor. -/
def calculateOnCPU : Stoppable (Progress R) (Failure R) :=
  calculateIntegrals E ap sc (integrate E ap sc)

end

end MilkyWay.Separation
