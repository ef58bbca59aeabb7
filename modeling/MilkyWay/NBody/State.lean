import MilkyWay.NBody.Gravity
import MilkyWay.NBody.Potential

/-! The state of a run and what the run asks of its surroundings. The bodies are the
list of their positions, masses and velocities; a tree is built of them in memory of
its own. -/

namespace MilkyWay.NBody

open Foundation

/-- The comparisons that count in a likelihood. -/
structure LikelihoodUse where
  useVelDisp : Bool := false
  useBetaDisp : Bool := false
  useBetaComp : Bool := false
  useVlos : Bool := false
  useDist : Bool := false
deriving DecidableEq

structure BestLikelihood (R : Type) where
  bestLikelihood : R
  bestLikelihood_EMD : R
  bestLikelihood_Mass : R
  bestLikelihood_Beta : R
  bestLikelihood_Vel : R
  bestLikelihood_BetaAvg : R
  bestLikelihood_VelAvg : R
  bestLikelihood_Dist : R
  bestLikelihood_time : R

structure NBodyState (R : Type) where
  rsize : R
  structureError : Bool := false
  bodytab : List (Body R)
  bestLikelihoodBodyTab : List (Body R)
  acctab : List (Vec3 R)
  orbitTrace : Option (List (Vec3 R))
  shiftByLMC : Option (List (Vec3 R))
  LMCpos : Vec3 R
  LMCvel : Vec3 R
  lastCheckpoint : ℤ := 0
  step : ℕ := 0
  effNBody : ℤ := 0
  treeIncest : Bool := false
  potentialEvalError : Bool := false
  best : BestLikelihood R
  bestLikelihood_count : ℤ := 0
  use : LikelihoodUse := {}
  ignoreResponsive : Bool := false
  usesExact : Bool := false
  usesQuad : Bool := false
  dirty : Bool := false
  usesCL : Bool := false
  reportProgress : Bool := false
  previousForwardTime : R

structure NBodyFlags where
  histogramFileName : Option String
  histoutFileName : Option String
  outFileName : Option String
  printHistogram : Bool

/-- The values of a comparison of histograms. -/
structure Likelihoods (R : Type) where
  likelihood : R
  EMD : R
  Mass : R
  Beta : R
  Vel : R
  BetaAvg : R
  VelAvg : R
  Dist : R

/-- What all sessions of a run share: the build, the potential, and the comparison of
the bodies of a step with the data, for parameters `I` and histograms `H`. -/
structure World (R I H : Type) where
  B : Build R
  L : Libm R
  K : Components R
  fuel : ℕ
  nbGetLikelihoodInfo : NBodyFlags → Option I
  nbCreateHistogram : ℕ → NBodyCtx R → List (Body R) → LikelihoodUse → I → Option H
  nbReadHistogram : ℕ → String → Option H
  nbSystemLikelihood : ℕ → LikelihoodUse → H → H → I → Likelihoods R

/-- The outcome of the question whether to make a checkpoint: not yet, or the time of
the one that is made and whether it could be written. -/
inductive CheckpointEvent where
  | notYet
  | due (now : ℤ) (written : Bool)

/-- What differs between the sessions of a run: the checkpoints after each step and at
the end, and the satellite that the set-up left behind. -/
structure Session (R : Type) where
  checkpoint : ℕ → CheckpointEvent
  finalCheckpoint : Bool
  getLMCArray : Option (List (Vec3 R))
  getLMCPosVel : Vec3 R × Vec3 R

/-! ## Status bits -/

def NBodyStatus.bits : NBodyStatus → BitVec 32
  | .success => 0
  | .treeStructureError => 1 <<< 3
  | .treeIncestFatal => 1 <<< 4
  | .treeIncestNonfatal => 1 <<< 24
  | .luaPotentialError => 1 <<< 14
  | .checkpointError => 1 <<< 6

def NBODY_STATUS_ALL_WARNINGS : BitVec 32 := 0xff000000

def nbStatusIsFatal (rc : BitVec 32) : Bool := rc &&& ~~~NBODY_STATUS_ALL_WARNINGS != 0

theorem nbStatusIsFatal_or (a b : BitVec 32) :
    nbStatusIsFatal (a ||| b) = (nbStatusIsFatal a || nbStatusIsFatal b) := by
  have both : ∀ x y : BitVec 32, (x ||| y != 0) = (x != 0 || y != 0) := by
    intro x y
    rw [Bool.eq_iff_iff]
    simp only [bne_iff_ne, ne_eq, Bool.or_eq_true]
    exact (not_congr BitVec.or_eq_zero_iff).trans not_and_or
  rw [nbStatusIsFatal, BitVec.and_or_distrib_right, both]
  rfl

end MilkyWay.NBody
