import MilkyWay.Separation.Types

/-! The state of an evaluation: how it starts, how its sums are emptied and what becomes
of it when it is written to a checkpoint and read back. -/

namespace MilkyWay.Separation

open Foundation

variable {R : Type}

abbrev Sums (R : Type) := Kahan R × List (Kahan R)

namespace EvaluationState

def sums (es : EvaluationState R) : Sums R := (es.bgSum, es.streamSums)

def withSums (es : EvaluationState R) (sums : Sums R) : EvaluationState R :=
  { es with bgSum := sums.1, streamSums := sums.2 }

end EvaluationState

def integralsAreDone (es : EvaluationState R) : Bool := es.cuts.length ≤ es.currentCut

/-- The checkpoint keeps the step it was written in. -/
def writeCheckpoint (es : EvaluationState R) : EvaluationState R :=
  { es with lastCheckpointNuStep := es.nu_step }

section
variable [Zero R]

def newEvaluationState (ap : AstronomyParameters R) : EvaluationState R where
  currentWU := ap.currentWU
  WUPrinted := false
  cuts := List.replicate ap.number_integrals ⟨0, List.replicate ap.number_streams 0⟩
  nu_step := 0
  mu_step := 0
  bgSum := 0
  streamSums := List.replicate ap.number_streams 0
  bgSumCheckpoint := 0
  streamSumsCheckpoint := List.replicate ap.number_streams 0
  lastCheckpointNuStep := 0
  currentCut := 0

def clearEvaluationStateTmpSums (es : EvaluationState R) : EvaluationState R :=
  es.withSums (0, es.streamSums.map fun _ => 0)

variable [Add R] [Sub R]

/-- Adds to each sum the one kept from the device and empties these. -/
def addTmpCheckpointSums (es : EvaluationState R) : EvaluationState R :=
  { es with
    bgSum := es.bgSum.reduction es.bgSumCheckpoint
    streamSums := es.streamSums.mapIdx fun i sum =>
      sum.reduction (es.streamSumsCheckpoint.getD i 0)
    bgSumCheckpoint := 0
    streamSumsCheckpoint := es.streamSumsCheckpoint.map fun _ => 0 }

/-- The state that is read back of one that was written. -/
def readCheckpoint (saved : EvaluationState R) : EvaluationState R := addTmpCheckpointSums saved

namespace EvaluationState

def NoneKept (es : EvaluationState R) : Prop :=
  es.bgSumCheckpoint = 0 ∧ ∀ kept ∈ es.streamSumsCheckpoint, kept = 0

/-- Each sum absorbs its correction. -/
def Absorbs (es : EvaluationState R) : Prop :=
  es.bgSum.Absorbs ∧ ∀ sum ∈ es.streamSums, sum.Absorbs

instance [DecidableEq R] (es : EvaluationState R) : Decidable es.Absorbs :=
  inferInstanceAs (Decidable (_ ∧ _))

omit [Add R] [Sub R] in
theorem noneKept_new (ap : AstronomyParameters R) : (newEvaluationState ap).NoneKept :=
  ⟨rfl, fun _ mem => List.eq_of_mem_replicate mem⟩

theorem noneKept_read (saved : EvaluationState R) : (readCheckpoint saved).NoneKept := by
  refine ⟨rfl, fun kept mem => ?_⟩
  obtain ⟨_, -, rfl⟩ := List.mem_map.mp mem
  rfl

omit [Add R] [Sub R] in
theorem getD_kept {es : EvaluationState R} (none : es.NoneKept) (i : ℕ) :
    es.streamSumsCheckpoint.getD i 0 = 0 := by
  rw [List.getD_eq_getElem?_getD]
  cases found : es.streamSumsCheckpoint[i]? with
  | none => rfl
  | some kept => exact none.2 kept (List.mem_of_getElem? found)

theorem readCheckpoint_eq {es : EvaluationState R} (none : es.NoneKept) (absorbs : es.Absorbs) :
    readCheckpoint es = es := by
  have bg : es.bgSum.reduction es.bgSumCheckpoint = es.bgSum := by
    rw [none.1]
    exact Kahan.reduction_zero absorbs.1
  have streams : (es.streamSums.mapIdx fun i sum =>
      sum.reduction (es.streamSumsCheckpoint.getD i 0)) = es.streamSums := by
    refine List.ext_getElem (List.length_mapIdx ..) fun i lt lt' => ?_
    rw [List.getElem_mapIdx, getD_kept none]
    exact Kahan.reduction_zero (absorbs.2 _ (List.getElem_mem lt'))
  have kept : (es.streamSumsCheckpoint.map fun _ => (0 : Kahan R)) = es.streamSumsCheckpoint := by
    conv_rhs => rw [← List.map_id es.streamSumsCheckpoint]
    exact List.map_congr_left fun kept mem => (none.2 kept mem).symm
  rw [readCheckpoint, addTmpCheckpointSums, bg, streams, kept, ← none.1]

end EvaluationState

end

end MilkyWay.Separation
