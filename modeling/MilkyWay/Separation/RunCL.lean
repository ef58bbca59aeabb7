import MilkyWay.Foundation.Halving
import MilkyWay.Separation.Integrals

/-! The integral over an area on a device: each step in nu adds to running sums in the
device's buffers. At a checkpoint and at the end the running sums are summarized and
read into the state. -/

namespace MilkyWay.Separation

open Foundation

structure RunSizes where
  global : ℕ
  nChunk : ℕ
  extra : ℕ

/-- The program for a device and what the device makes of it: the value of a work-item at a
step in nu, in mu and in r, and the steps in nu at which a call fails. -/
structure ProgramCL (R : Type) where
  sizes : IntegralArea R → RunSizes
  value : IntegralArea R → ℕ → ℕ → ℕ → R × List R
  summarizationWorkgroupSize : ℕ
  enableCheckpointing : Bool
  boincApplication : Bool
  launchFails : IntegralArea R → ℕ → Bool
  readFails : IntegralArea R → ℕ → Bool

/-- The buffers of running sums, one sum for each item of the background and one for each
item of each stream. -/
structure Device (R : Type) where
  outBg : ℕ → Kahan R
  outStreams : ℕ → Kahan R

def mwDivRoundup (a b : ℕ) : ℕ := if a % b ≠ 0 then a / b + 1 else a / b

section
variable {R : Type} [Zero R] [Add R] [Sub R]

def Device.zero : Device R := ⟨fun _ => 0, fun _ => 0⟩

def kahanSum (running : Kahan R) (term : R) : Kahan R :=
  let correctedNextTerm := term + running.correction
  let newSum := running.sum + correctedNextTerm
  ⟨newSum, correctedNextTerm - (newSum - running.sum)⟩

def addTerm (buffer : ℕ → Kahan R) (idx : ℕ) (term : R) : ℕ → Kahan R :=
  Function.update buffer idx (kahanSum (buffer idx) term)

/-- What the kernel for the probabilities does with the buffers for a global index; those
beyond the area do nothing. -/
def workItem (P : ProgramCL R) (nStream : ℕ) (ia : IntegralArea R) (nu_step globalId : ℕ)
    (dev : Device R) : Device R :=
  let extra := (P.sizes ia).extra
  if globalId < extra then dev
  else
    let gid := globalId - extra
    let mu_step := gid % ia.mu_steps
    let r_step := gid / ia.mu_steps
    if ia.r_steps ≤ r_step ∨ ia.mu_steps ≤ mu_step then dev
    else
      let idx := mu_step * ia.r_steps + r_step
      let probs := P.value ia nu_step mu_step r_step
      { outBg := addTerm dev.outBg idx probs.1
        outStreams := (List.range nStream).foldl (fun out j =>
          addTerm out (j * ia.mu_steps * ia.r_steps + idx) (probs.2.getD j 0)) dev.outStreams }

def runIntegralKernel (P : ProgramCL R) (nStream : ℕ) (ia : IntegralArea R)
    (nu_step offset : ℕ) (dev : Device R) : Device R :=
  (List.range (P.sizes ia).global).foldl (fun dev i =>
    workItem P nStream ia nu_step (offset + i) dev) dev

def runNuStep (P : ProgramCL R) (nStream : ℕ) (ia : IntegralArea R) (nu_step : ℕ)
    (dev : Device R) : Device R :=
  (List.range (P.sizes ia).nChunk).foldl (fun dev i =>
    runIntegralKernel P nStream ia nu_step (i * (P.sizes ia).global) dev) dev

/-- What the work-groups of the kernel for the summarization leave. -/
def summarization (localSize nElements bufferOffset : ℕ) (buffer : ℕ → Kahan R) :
    ℕ → Kahan R := fun group =>
  let sdata := fun lid =>
    let gid := group * localSize + lid
    if gid < nElements then buffer (bufferOffset + gid) else 0
  halving Kahan.reduction localSize (localSize / 2) sdata 0

def summarizeRest (localSize : ℕ) : ℕ → ℕ → (ℕ → Kahan R) → Kahan R
  | 0, _, buffer => buffer 0
  | calls + 1, nElements, buffer =>
      if nElements ≤ 1 then buffer 0
      else summarizeRest localSize calls (mwDivRoundup nElements localSize)
        (summarization localSize nElements 0 buffer)

def runSummarization (P : ProgramCL R) (ia : IntegralArea R) (which : ℕ) (dev : Device R) :
    Kahan R :=
  let nElements := ia.r_steps * ia.mu_steps
  let localSize := P.summarizationWorkgroupSize
  let (buffer, offset) := if which = 0 then (dev.outBg, 0)
    else (dev.outStreams, (which - 1) * nElements)
  summarizeRest localSize nElements (mwDivRoundup nElements localSize)
    (summarization localSize nElements offset buffer)

/-- The sums on the device replace the ones kept from it before. -/
def readKernelResults (P : ProgramCL R) (ia : IntegralArea R) (dev : Device R)
    (es : EvaluationState R) : EvaluationState R :=
  { es with
    bgSumCheckpoint := runSummarization P ia 0 dev
    streamSumsCheckpoint := es.streamSumsCheckpoint.mapIdx fun i _ =>
      runSummarization P ia (i + 1) dev }

/-- A tenth of the steps has been made since the last checkpoint, as unsigned numbers. -/
def timeToCheckpointGPU (P : ProgramCL R) (ia : IntegralArea R) (es : EvaluationState R) : Bool :=
  P.boincApplication &&
    ia.nu_steps / 10 ≤ (es.nu_step + 2 ^ 32 - es.lastCheckpointNuStep) % 2 ^ 32

/-- The state and the device; only the state is in the checkpoint. -/
def checkpointCL (P : ProgramCL R) (ia : IntegralArea R) :
    Stoppable (EvaluationState R × Device R) ℤ := fun o p =>
  if P.enableCheckpointing && timeToCheckpointGPU P ia p.1 then
    match o p with
    | .pass => .ok p
    | _ => if P.readFails ia p.1.nu_step then .error (.failed 1)
        else opportunity (fun p => (writeCheckpoint (readKernelResults P ia p.2 p.1), p.2)) o p
  else .ok p

def nuStepCL (P : ProgramCL R) (nStream : ℕ) (ia : IntegralArea R)
    (p : EvaluationState R × Device R) :
    Except (Halt (EvaluationState R × Device R) ℤ) (EvaluationState R × Device R) :=
  if P.launchFails ia p.1.nu_step then .error (.failed 1)
  else .ok ({ p.1 with nu_step := p.1.nu_step + 1 }, runNuStep P nStream ia p.1.nu_step p.2)

def finishCL (P : ProgramCL R) (ia : IntegralArea R) (p : EvaluationState R × Device R) :
    Except (Halt (EvaluationState R × Device R) ℤ) (EvaluationState R × Device R) :=
  if P.readFails ia p.1.nu_step then .error (.failed 1)
  else
    let es := { p.1 with nu_step := 0 }
    .ok (addTmpCheckpointSums (readKernelResults P ia p.2 es), p.2)

def runIntegral (P : ProgramCL R) (nStream : ℕ) (ia : IntegralArea R) :
    Stoppable (EvaluationState R × Device R) ℤ :=
  (forLoop (·.1.nu_step) ia.nu_steps
    ((checkpointCL P ia).andThen (nuStepCL P nStream ia))).andThen (finishCL P ia)

/-- The buffers are made anew for each integral. -/
def integrateCL (P : ProgramCL R) (nStream : ℕ) (ia : IntegralArea R) :
    Stoppable (EvaluationState R) ℤ :=
  ((runIntegral P nStream ia).within .zero).andThen fun es => .ok (separationIntegralGetSums es)

end

/-! ## What a run leaves as it was -/

structure SamePlace {R : Type} (s t : EvaluationState R) : Prop where
  currentWU : t.currentWU = s.currentWU
  WUPrinted : t.WUPrinted = s.WUPrinted
  currentCut : t.currentCut = s.currentCut
  cuts : t.cuts = s.cuts

theorem SamePlace.refl {R : Type} (s : EvaluationState R) : SamePlace s s := ⟨rfl, rfl, rfl, rfl⟩

theorem SamePlace.trans {R : Type} {r s t : EvaluationState R} (first : SamePlace r s)
    (second : SamePlace s t) : SamePlace r t where
  currentWU := second.currentWU.trans first.currentWU
  WUPrinted := second.WUPrinted.trans first.WUPrinted
  currentCut := second.currentCut.trans first.currentCut
  cuts := second.cuts.trans first.cuts

section
variable {R : Type} [Zero R] [Add R] [Sub R] (P : ProgramCL R) (nStream : ℕ) (ia : IntegralArea R)

theorem samePlace_turnCL (o : Oracle (EvaluationState R × Device R))
    (p : EvaluationState R × Device R) :
    Ends (fun t => SamePlace p.1 t.1 ∧ t.1.nu_step = p.1.nu_step + 1)
      (fun c => SamePlace p.1 c.1) (fun _ => True)
      ((checkpointCL P ia).andThen (nuStepCL P nStream ia) o p) := by
  refine Ends.bind (Q := fun t => SamePlace p.1 t.1 ∧ t.1.nu_step = p.1.nu_step) ?_ ?_
  · unfold checkpointCL
    split
    · split
      · exact ⟨.refl _, rfl⟩
      · split
        · trivial
        · exact ends_opportunity o ⟨⟨rfl, rfl, rfl, rfl⟩, rfl⟩ ⟨⟨rfl, rfl, rfl, rfl⟩, rfl⟩
            ⟨rfl, rfl, rfl, rfl⟩
    · exact ⟨.refl _, rfl⟩
  · rintro t ⟨same, nu⟩
    unfold nuStepCL
    split
    · trivial
    · exact ⟨same.trans ⟨rfl, rfl, rfl, rfl⟩, congrArg (· + 1) nu⟩

theorem samePlace_integrateCL (o : Oracle (EvaluationState R)) (s : EvaluationState R) :
    Ends (fun t => ∃ u, SamePlace s u ∧ t = separationIntegralGetSums u) (SamePlace s)
      (fun _ => True) (integrateCL P nStream ia o s) := by
  refine Ends.bind (Q := SamePlace s) (ends_within (Ends.bind
    (ends_forLoop (I := fun p => SamePlace s p.1) ?_ (.refl s)) ?_)) fun t same => ⟨t, same, rfl⟩
  · intro p same _
    exact (samePlace_turnCL P nStream ia _ p).mono (fun t ends => ⟨same.trans ends.1, ends.2⟩)
      (fun c ends => same.trans ends) fun _ => id
  · rintro p ⟨same, -⟩
    unfold finishCL
    split
    · trivial
    · exact same.trans ⟨rfl, rfl, rfl, rfl⟩

end

end MilkyWay.Separation
