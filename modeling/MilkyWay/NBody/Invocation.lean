import MilkyWay.Foundation.Flags
import MilkyWay.NBody.ResumeCL

/-! An invocation of the program and the statuses in it. Both loops over the steps
collect the statuses of what they call in one variable, which `nbMain` reads when the
last of its runs is done. The log records every status that is written to it. -/

namespace MilkyWay.NBody

open Foundation

/-- The status so far, the statuses written to it and the state. -/
structure Logged (σ : Type) where
  rc : BitVec 32
  log : List (FlagWrite 32)
  st : σ

namespace Logged

variable {σ : Type}

def or (r : Logged σ) (call : BitVec 32 × σ) : Logged σ :=
  ⟨r.rc ||| call.1, .or call.1 :: r.log, call.2⟩

/-- `rc = status` -/
def set (r : Logged σ) (call : BitVec 32 × σ) : Logged σ :=
  ⟨call.1, .set call.1 :: r.log, call.2⟩

end Logged

structure PlainCalls (σ : Type) where
  stepsLeft : σ → ℕ
  nbGravMap : σ → Option (BitVec 32 × σ)
  nbStepSystemPlain : σ → Option (BitVec 32 × σ)
  nbCheckpoint : σ → Option (BitVec 32 × σ)
  nbWriteFinalCheckpoint : σ → Option (BitVec 32 × σ)

/-- What the run on the graphics processor calls; the flags say whether OpenCL has
succeeded. -/
structure CLCalls (σ : Type) where
  stepsLeft : σ → ℕ
  nbInitNBodyStateCL : σ → Option (BitVec 32 × σ)
  nbRunPreStep : σ → Option (Bool × σ)
  nbCheckKernelErrorCode : σ → Option (BitVec 32 × σ)
  nbStepSystemCL : σ → Option (BitVec 32 × σ)
  nbCheckpointCL : σ → Option (BitVec 32 × σ)
  countStep : σ → σ
  nbMarshalBodies : σ → Option (Bool × σ)
  nbWriteFinalCheckpoint : σ → Option (BitVec 32 × σ)

variable {σ : Type}

namespace PlainCalls

def turn (C : PlainCalls σ) : Turn (Logged σ) (Logged σ) := fun r =>
  if 0 < C.stepsLeft r.st then do
    let stepped ← C.nbStepSystemPlain r.st
    let r := r.or stepped
    if nbStatusIsFatal r.rc then
      return .inr r
    let written ← C.nbCheckpoint r.st
    let r := r.or written
    return if nbStatusIsFatal r.rc then .inr r else .inl r
  else do
    let final ← C.nbWriteFinalCheckpoint r.st
    return .inr (r.set final)

def nbRunSystemPlain (C : PlainCalls σ) (r : Logged σ) : Option (Logged σ) := do
  let r := r.set (0, r.st)
  let first ← C.nbGravMap r.st
  let r := r.or first
  if nbStatusIsFatal r.rc then
    return r
  C.turn.run (C.stepsLeft r.st + 1) r

end PlainCalls

def NBODY_CL_ERROR : BitVec 32 := 1 <<< 7

namespace CLCalls

def turn (C : CLCalls σ) : Turn (Logged σ) (Logged σ) := fun r =>
  if 0 < C.stepsLeft r.st then do
    let checked ← C.nbCheckKernelErrorCode r.st
    let r := r.set checked
    if nbStatusIsFatal r.rc then
      return .inr r
    let stepped ← C.nbStepSystemCL r.st
    let r := r.or stepped
    if nbStatusIsFatal r.rc then
      return .inr r
    let written ← C.nbCheckpointCL r.st
    let r := r.set written
    return if nbStatusIsFatal r.rc then .inr r else .inl { r with st := C.countStep r.st }
  else some (.inr r)

def nbMainLoopCL (C : CLCalls σ) (r : Logged σ) : Option (Logged σ) := do
  let r := r.set (0, r.st)
  let (success, st) ← C.nbRunPreStep r.st
  if success then
    C.turn.run (C.stepsLeft st + 1) { r with st }
  else return r.set (NBODY_CL_ERROR, st)

def nbRunSystemCL (C : CLCalls σ) (r : Logged σ) : Option (Logged σ) := do
  let r ← C.nbMainLoopCL r
  if nbStatusIsFatal r.rc then
    return r
  let (success, st) ← C.nbMarshalBodies r.st
  if success then
    let final ← C.nbWriteFinalCheckpoint st
    return r.set final
  else return r.set (NBODY_CL_ERROR, st)

end CLCalls

/-- The device of an invocation and what `nbMain` does to the state between the runs. -/
structure MainCalls (σ : Type) where
  device : PlainCalls σ ⊕ CLCalls σ
  calibrationRuns : ℕ
  setFromFlags : ℕ → σ → σ
  saveInitial : ℕ → σ → σ
  resetState : ℕ → σ → σ

namespace MainCalls

def initFails (M : MainCalls σ) (st : σ) : Option (Option (BitVec 32) × σ) :=
  match M.device with
  | .inl _ => some (none, st)
  | .inr C => do
      let (rc, st) ← C.nbInitNBodyStateCL st
      return (if nbStatusIsFatal rc then some rc else none, st)

def nbRunSystem (M : MainCalls σ) (r : Logged σ) : Option (Logged σ) :=
  match M.device with
  | .inl C => C.nbRunSystemPlain r
  | .inr C => C.nbRunSystemCL r

def runs (M : MainCalls σ) : ℕ → ℕ → Logged σ → Option (Logged σ)
  | 0, _, r => some r
  | remaining + 1, i, r => do
      let (failed, st) ← M.initFails (M.setFromFlags i r.st)
      match failed with
      | some rc => return r.set (rc, st)
      | none => do
          let r ← M.nbRunSystem { r with st := M.saveInitial i st }
          M.runs remaining (i + 1) { r with st := M.resetState i r.st }

def nbMain (M : MainCalls σ) (st : σ) : Option (Logged σ) :=
  M.runs (M.calibrationRuns + 1) 0 ⟨0, [], st⟩

end MainCalls

/-! ## What the calls return -/

def Logged.statuses (r : Logged σ) : List (BitVec 32) := r.log.map FlagWrite.status

namespace PlainCalls

/-- The calls from a state to the end of a turn, of which none returned a fatal status;
`seen` are their statuses, the last one first. -/
inductive Turns (C : PlainCalls σ) (st : σ) : List (BitVec 32) → σ → Prop
  | force {g : BitVec 32} {st₁ : σ} (force : C.nbGravMap st = some (g, st₁))
      (goesOn : nbStatusIsFatal g = false) : Turns C st [g] st₁
  | turn {seen : List (BitVec 32)} {a b : BitVec 32} {st₁ st₂ st₃ : σ}
      (before : Turns C st seen st₁) (left : 0 < C.stepsLeft st₁)
      (step : C.nbStepSystemPlain st₁ = some (a, st₂)) (stepped : nbStatusIsFatal a = false)
      (checkpoint : C.nbCheckpoint st₂ = some (b, st₃)) (written : nbStatusIsFatal b = false) :
      Turns C st (b :: a :: seen) st₃

/-- The calls of a whole run. A fatal status is the last one and stands with all of the
run; what was returned `before` a final checkpoint does not stand with its status. -/
inductive Returns (C : PlainCalls σ) (st : σ) :
    (before last : List (BitVec 32)) → σ → Prop
  | force {g : BitVec 32} {st₁ : σ} (force : C.nbGravMap st = some (g, st₁))
      (fatal : nbStatusIsFatal g = true) : Returns C st [] [g] st₁
  | step {seen : List (BitVec 32)} {a : BitVec 32} {st₁ st₂ : σ} (turns : C.Turns st seen st₁)
      (left : 0 < C.stepsLeft st₁) (step : C.nbStepSystemPlain st₁ = some (a, st₂))
      (fatal : nbStatusIsFatal a = true) : Returns C st [] (a :: seen) st₂
  | checkpoint {seen : List (BitVec 32)} {a b : BitVec 32} {st₁ st₂ st₃ : σ}
      (turns : C.Turns st seen st₁) (left : 0 < C.stepsLeft st₁)
      (step : C.nbStepSystemPlain st₁ = some (a, st₂)) (stepped : nbStatusIsFatal a = false)
      (checkpoint : C.nbCheckpoint st₂ = some (b, st₃)) (fatal : nbStatusIsFatal b = true) :
      Returns C st [] (b :: a :: seen) st₃
  | final {seen : List (BitVec 32)} {f : BitVec 32} {st₁ st₂ : σ} (turns : C.Turns st seen st₁)
      (done : ¬0 < C.stepsLeft st₁) (final : C.nbWriteFinalCheckpoint st₁ = some (f, st₂)) :
      Returns C st seen [f] st₂

end PlainCalls

namespace CLCalls

inductive Turns (C : CLCalls σ) (st : σ) : List (BitVec 32) → σ → Prop
  | preStep {st₁ : σ} (preStep : C.nbRunPreStep st = some (true, st₁)) : Turns C st [] st₁
  | turn {seen : List (BitVec 32)} {c a b : BitVec 32} {st₁ st₂ st₃ st₄ : σ}
      (before : Turns C st seen st₁) (left : 0 < C.stepsLeft st₁)
      (check : C.nbCheckKernelErrorCode st₁ = some (c, st₂)) (checked : nbStatusIsFatal c = false)
      (step : C.nbStepSystemCL st₂ = some (a, st₃)) (stepped : nbStatusIsFatal a = false)
      (checkpoint : C.nbCheckpointCL st₃ = some (b, st₄)) (written : nbStatusIsFatal b = false) :
      Turns C st (b :: a :: c :: seen) (C.countStep st₄)

/-- The calls of a whole run. A check and the step after it, a checkpoint, an error of
OpenCL and the final checkpoint each stand without what was returned `before`. -/
inductive Returns (C : CLCalls σ) (st : σ) :
    (before last : List (BitVec 32)) → σ → Prop
  | preStep {st₁ : σ} (preStep : C.nbRunPreStep st = some (false, st₁)) :
      Returns C st [] [NBODY_CL_ERROR] st₁
  | check {seen : List (BitVec 32)} {c : BitVec 32} {st₁ st₂ : σ} (turns : C.Turns st seen st₁)
      (left : 0 < C.stepsLeft st₁) (check : C.nbCheckKernelErrorCode st₁ = some (c, st₂))
      (fatal : nbStatusIsFatal c = true) : Returns C st seen [c] st₂
  | step {seen : List (BitVec 32)} {c a : BitVec 32} {st₁ st₂ st₃ : σ}
      (turns : C.Turns st seen st₁) (left : 0 < C.stepsLeft st₁)
      (check : C.nbCheckKernelErrorCode st₁ = some (c, st₂)) (checked : nbStatusIsFatal c = false)
      (step : C.nbStepSystemCL st₂ = some (a, st₃)) (fatal : nbStatusIsFatal a = true) :
      Returns C st seen [a, c] st₃
  | checkpoint {seen : List (BitVec 32)} {c a b : BitVec 32} {st₁ st₂ st₃ st₄ : σ}
      (turns : C.Turns st seen st₁) (left : 0 < C.stepsLeft st₁)
      (check : C.nbCheckKernelErrorCode st₁ = some (c, st₂)) (checked : nbStatusIsFatal c = false)
      (step : C.nbStepSystemCL st₂ = some (a, st₃)) (stepped : nbStatusIsFatal a = false)
      (checkpoint : C.nbCheckpointCL st₃ = some (b, st₄)) (fatal : nbStatusIsFatal b = true) :
      Returns C st (a :: c :: seen) [b] st₄
  | marshal {seen : List (BitVec 32)} {st₁ st₂ : σ} (turns : C.Turns st seen st₁)
      (done : ¬0 < C.stepsLeft st₁) (marshal : C.nbMarshalBodies st₁ = some (false, st₂)) :
      Returns C st seen [NBODY_CL_ERROR] st₂
  | final {seen : List (BitVec 32)} {f : BitVec 32} {st₁ st₂ st₃ : σ} (turns : C.Turns st seen st₁)
      (done : ¬0 < C.stepsLeft st₁) (marshal : C.nbMarshalBodies st₁ = some (true, st₂))
      (final : C.nbWriteFinalCheckpoint st₂ = some (f, st₃)) : Returns C st seen [f] st₃

end CLCalls

namespace MainCalls

def RunReturns (M : MainCalls σ) (st : σ) (before last : List (BitVec 32)) (st' : σ) : Prop :=
  match M.device with
  | .inl C => C.Returns st before last st'
  | .inr C => C.Returns st before last st'

/-- The calls of an invocation from run `i` on: `earlier` is what the runs but the last
one returned. -/
inductive Returns (M : MainCalls σ) :
    ℕ → ℕ → σ → (earlier before last : List (BitVec 32)) → Prop
  | fails {remaining i : ℕ} {st st₁ : σ} {rc : BitVec 32}
      (init : M.initFails (M.setFromFlags i st) = some (some rc, st₁)) :
      Returns M (remaining + 1) i st [] [] [rc]
  | last {i : ℕ} {st st₁ st₂ : σ} {before last : List (BitVec 32)}
      (init : M.initFails (M.setFromFlags i st) = some (none, st₁))
      (run : M.RunReturns (M.saveInitial i st₁) before last st₂) :
      Returns M 1 i st [] before last
  | run {remaining i : ℕ} {st st₁ st₂ : σ} {earlier before last before' last' : List (BitVec 32)}
      (init : M.initFails (M.setFromFlags i st) = some (none, st₁))
      (run : M.RunReturns (M.saveInitial i st₁) before last st₂)
      (rest : Returns M (remaining + 1) (i + 1) (M.resetState i st₂) earlier before' last') :
      Returns M (remaining + 2) i st (last ++ before ++ earlier) before' last'

end MainCalls

/-! ## What is left in the status -/

/-- The status is made of `last`, alone if it is not fatal, and all that was written since
`old` is among `last` and `before`. -/
structure Logged.Left (r : Logged σ) (old before last : List (BitVec 32)) : Prop where
  rc : r.rc = joined last
  alone : nbStatusIsFatal r.rc = false → last = [r.rc]
  written : ∀ s ∈ r.statuses, s ≠ 0 → s ∈ last ∨ s ∈ before ∨ s ∈ old

namespace PlainCalls

variable {C : PlainCalls σ} {st : σ} {old seen : List (BitVec 32)} {r r' : Logged σ}

structure Holding (C : PlainCalls σ) (st : σ) (old seen : List (BitVec 32)) (r : Logged σ) :
    Prop where
  turns : C.Turns st seen r.st
  rc : r.rc = joined seen
  goesOn : nbStatusIsFatal r.rc = false
  written : ∀ s ∈ r.statuses, s ≠ 0 → s ∈ seen ∨ s ∈ old

def Ended (C : PlainCalls σ) (st : σ) (old : List (BitVec 32)) (r : Logged σ) : Prop :=
  ∃ before last, C.Returns st before last r.st ∧ r.Left old before last

theorem joined_or (call : BitVec 32 × σ) (rc : r.rc = joined seen) :
    (r.or call).rc = joined (call.1 :: seen) := by
  rw [Logged.or, rc, BitVec.or_comm]
  rfl

theorem written_or (call : BitVec 32 × σ)
    (written : ∀ s ∈ r.statuses, s ≠ 0 → s ∈ seen ∨ s ∈ old) :
    ∀ s ∈ (r.or call).statuses, s ≠ 0 → s ∈ call.1 :: seen ∨ s ∈ old := by
  intro s mem nonzero
  obtain rfl | mem := List.mem_cons.mp mem
  · exact .inl List.mem_cons_self
  · exact (written s mem nonzero).imp_left (List.mem_cons_of_mem _)

theorem ended_fatal (returns : C.Returns st [] seen r.st) (rc : r.rc = joined seen)
    (fatal : nbStatusIsFatal r.rc = true)
    (written : ∀ s ∈ r.statuses, s ≠ 0 → s ∈ seen ∨ s ∈ old) : Ended C st old r := by
  refine ⟨[], seen, returns, rc, fun goesOn => ?_, fun s mem nonzero => ?_⟩
  · rw [fatal] at goesOn
    cases goesOn
  · exact (written s mem nonzero).imp_right .inr

theorem turn_holding {x : Logged σ ⊕ Logged σ} (holding : Holding C st old seen r)
    (turn : C.turn r = some x) :
    x.elim (fun r => ∃ seen, Holding C st old seen r) (Ended C st old) := by
  unfold PlainCalls.turn at turn
  split at turn
  · rename_i left
    simp only [Option.bind_eq_bind, Option.bind_eq_some_iff, Option.pure_def] at turn
    obtain ⟨stepped, step, turn⟩ := turn
    have rc := joined_or stepped holding.rc
    have status : nbStatusIsFatal (r.or stepped).rc = nbStatusIsFatal stepped.1 := by
      rw [Logged.or, nbStatusIsFatal_or, holding.goesOn, Bool.false_or]
    have written := written_or stepped holding.written
    split at turn
    · rename_i fatal
      cases turn
      exact ended_fatal (.step holding.turns left step (status ▸ fatal)) rc fatal written
    · rename_i goesOn
      obtain ⟨checkpointed, checkpoint, turn⟩ := Option.bind_eq_some_iff.mp turn
      have goesOn := (Bool.not_eq_true _).mp goesOn
      have rc' := joined_or checkpointed rc
      have status' : nbStatusIsFatal ((r.or stepped).or checkpointed).rc =
          nbStatusIsFatal checkpointed.1 := by
        rw [Logged.or, nbStatusIsFatal_or, goesOn, Bool.false_or]
      have written' := written_or checkpointed written
      split at turn
      · rename_i fatal
        cases turn
        exact ended_fatal (.checkpoint holding.turns left step (status ▸ goesOn) checkpoint
          (status' ▸ fatal)) rc' fatal written'
      · rename_i again
        have again := (Bool.not_eq_true _).mp again
        cases turn
        exact ⟨_, .turn holding.turns left step (status ▸ goesOn) checkpoint (status' ▸ again),
          rc', again, written'⟩
  · rename_i done
    simp only [Option.bind_eq_bind, Option.bind_eq_some_iff, Option.pure_def] at turn
    obtain ⟨final, call, turn⟩ := turn
    cases turn
    refine ⟨seen, [final.1], .final holding.turns done call, ?_, fun _ => rfl, ?_⟩
    · simp [Logged.set, joined]
    · intro s mem nonzero
      obtain rfl | mem := List.mem_cons.mp mem
      · exact .inl (List.mem_singleton_self _)
      · exact .inr (holding.written s mem nonzero)

/-- A run on the processor makes the calls of a run and is left with the last of them. -/
theorem nbRunSystemPlain_ended (run : C.nbRunSystemPlain r = some r') :
    Ended C r.st r.statuses r' := by
  simp only [nbRunSystemPlain, Option.bind_eq_bind, Option.bind_eq_some_iff] at run
  obtain ⟨first, force, run⟩ := run
  have force : C.nbGravMap r.st = some first := force
  have rc : ((r.set (0, r.st)).or first).rc = joined [first.1] := by
    simp [Logged.set, Logged.or, joined]
  have written : ∀ s ∈ ((r.set (0, r.st)).or first).statuses, s ≠ 0 →
      s ∈ [first.1] ∨ s ∈ r.statuses := by
    intro s mem nonzero
    obtain rfl | mem := List.mem_cons.mp mem
    · exact .inl (List.mem_singleton_self _)
    · obtain rfl | mem := List.mem_cons.mp mem
      · exact absurd rfl nonzero
      · exact .inr mem
  have status : nbStatusIsFatal ((r.set (0, r.st)).or first).rc = nbStatusIsFatal first.1 := by
    simp [Logged.set, Logged.or]
  split at run
  · rename_i fatal
    cases run
    exact ended_fatal (.force force (status ▸ fatal)) rc fatal written
  · rename_i goesOn
    have goesOn := (Bool.not_eq_true _).mp goesOn
    refine Turn.run_invariant (fun s => ∃ seen, Holding C r.st r.statuses seen s) _ ?_
      ⟨_, .force force (status ▸ goesOn), rc, goesOn, written⟩ run
    rintro s x ⟨seen, holding⟩ turn
    exact turn_holding holding turn

end PlainCalls

namespace CLCalls

variable {C : CLCalls σ} {st : σ} {old seen : List (BitVec 32)} {r r' : Logged σ}

theorem left_set {before : List (BitVec 32)} (call : BitVec 32 × σ)
    (written : ∀ s ∈ r.statuses, s ≠ 0 → s ∈ before ∨ s ∈ old) :
    (r.set call).Left old before [call.1] where
  rc := by simp [Logged.set, joined]
  alone _ := rfl
  written s mem nonzero := by
    obtain rfl | mem := List.mem_cons.mp mem
    · exact .inl (List.mem_singleton_self _)
    · exact .inr (written s mem nonzero)

structure Holding (C : CLCalls σ) (st : σ) (old seen : List (BitVec 32)) (r : Logged σ) :
    Prop where
  turns : C.Turns st seen r.st
  goesOn : nbStatusIsFatal r.rc = false
  written : ∀ s ∈ r.statuses, s ≠ 0 → s ∈ seen ∨ s ∈ old

def Ended (C : CLCalls σ) (st : σ) (old : List (BitVec 32)) (r : Logged σ) : Prop :=
  ∃ before last, C.Returns st before last r.st ∧ r.Left old before last

def LoopEnded (C : CLCalls σ) (st : σ) (old : List (BitVec 32)) (r : Logged σ) : Prop :=
  (∃ seen, Holding C st old seen r ∧ ¬0 < C.stepsLeft r.st) ∨
    nbStatusIsFatal r.rc = true ∧ Ended C st old r

theorem turn_holding {x : Logged σ ⊕ Logged σ} (holding : Holding C st old seen r)
    (turn : C.turn r = some x) :
    x.elim (fun r => ∃ seen, Holding C st old seen r) (LoopEnded C st old) := by
  unfold CLCalls.turn at turn
  split at turn
  · rename_i left
    simp only [Option.bind_eq_bind, Option.bind_eq_some_iff, Option.pure_def] at turn
    obtain ⟨checked, check, turn⟩ := turn
    split at turn
    · rename_i fatal
      cases turn
      exact .inr ⟨fatal, _, _, .check holding.turns left check fatal,
        left_set checked holding.written⟩
    · rename_i checkGoesOn
      have checkGoesOn := (Bool.not_eq_true _).mp checkGoesOn
      obtain ⟨stepped, step, turn⟩ := Option.bind_eq_some_iff.mp turn
      have status : nbStatusIsFatal ((r.set checked).or stepped).rc =
          nbStatusIsFatal stepped.1 := by
        rw [Logged.or, nbStatusIsFatal_or, checkGoesOn, Bool.false_or]
      have written : ∀ s ∈ ((r.set checked).or stepped).statuses, s ≠ 0 →
          s ∈ stepped.1 :: checked.1 :: seen ∨ s ∈ old :=
        PlainCalls.written_or _ (PlainCalls.written_or _ (r := r) holding.written)
      split at turn
      · rename_i fatal
        cases turn
        refine .inr ⟨fatal, _, _,
          .step holding.turns left check checkGoesOn step (status ▸ fatal), ?_, ?_, ?_⟩
        · exact PlainCalls.joined_or _ (r := r.set checked) (by simp [Logged.set, joined])
        · intro goesOn
          rw [fatal] at goesOn
          cases goesOn
        · intro s mem nonzero
          have here := written s mem nonzero
          simp only [List.mem_cons, List.not_mem_nil, or_false] at here ⊢
          tauto
      · rename_i stepGoesOn
        have stepGoesOn := (Bool.not_eq_true _).mp stepGoesOn
        obtain ⟨checkpointed, checkpoint, turn⟩ := Option.bind_eq_some_iff.mp turn
        split at turn
        · rename_i fatal
          cases turn
          exact .inr ⟨fatal, _, _, .checkpoint holding.turns left check checkGoesOn step
            (status ▸ stepGoesOn) checkpoint fatal, left_set checkpointed written⟩
        · rename_i again
          have again := (Bool.not_eq_true _).mp again
          cases turn
          exact ⟨_, .turn holding.turns left check checkGoesOn step (status ▸ stepGoesOn)
            checkpoint again, again, PlainCalls.written_or _ written⟩
  · rename_i done
    cases turn
    exact .inl ⟨seen, holding, done⟩

theorem nbMainLoopCL_ended (run : C.nbMainLoopCL r = some r') :
    LoopEnded C r.st r.statuses r' := by
  simp only [nbMainLoopCL, Option.bind_eq_bind, Option.bind_eq_some_iff, Prod.exists] at run
  obtain ⟨success, st, preStep, run⟩ := run
  have preStep : C.nbRunPreStep r.st = some (success, st) := preStep
  have written : ∀ s ∈ (r.set (0, st)).statuses, s ≠ 0 → s ∈ [] ∨ s ∈ r.statuses := by
    intro s mem nonzero
    obtain rfl | mem := List.mem_cons.mp mem
    · exact absurd rfl nonzero
    · exact .inr mem
  cases success with
  | true =>
      refine Turn.run_invariant (fun s => ∃ seen, Holding C r.st r.statuses seen s) _ ?_
        ⟨[], .preStep preStep, by show nbStatusIsFatal 0 = false; decide, written⟩ run
      rintro s x ⟨seen, holding⟩ turn
      exact turn_holding holding turn
  | false =>
      cases run
      have fatal : nbStatusIsFatal NBODY_CL_ERROR = true := by decide
      exact .inr ⟨fatal, _, _, .preStep preStep, left_set (NBODY_CL_ERROR, st) written⟩

/-- A run on the graphics processor makes the calls of a run and is left with the last of
them. -/
theorem nbRunSystemCL_ended (run : C.nbRunSystemCL r = some r') :
    Ended C r.st r.statuses r' := by
  simp only [nbRunSystemCL, Option.bind_eq_bind, Option.bind_eq_some_iff] at run
  obtain ⟨looped, loop, run⟩ := run
  obtain ⟨seen, holding, done⟩ | ⟨fatal, ended⟩ := nbMainLoopCL_ended loop
  · rw [holding.goesOn, if_neg Bool.false_ne_true] at run
    obtain ⟨⟨success, st⟩, marshal, run⟩ := Option.bind_eq_some_iff.mp run
    cases success with
    | true =>
        obtain ⟨final, call, run⟩ := Option.bind_eq_some_iff.mp run
        cases run
        exact ⟨_, _, .final holding.turns done marshal call, left_set final holding.written⟩
    | false =>
        cases run
        exact ⟨_, _, .marshal holding.turns done marshal,
          left_set (NBODY_CL_ERROR, st) holding.written⟩
  · rw [fatal, if_pos rfl] at run
    cases run
    exact ended

end CLCalls

namespace MainCalls

variable {M : MainCalls σ}

theorem nbRunSystem_ended {r r' : Logged σ} (run : M.nbRunSystem r = some r') :
    ∃ before last, M.RunReturns r.st before last r'.st ∧ r'.Left r.statuses before last := by
  unfold nbRunSystem at run
  unfold RunReturns
  split at run
  · exact PlainCalls.nbRunSystemPlain_ended run
  · exact CLCalls.nbRunSystemCL_ended run

theorem runs_ended {remaining i : ℕ} {r r' : Logged σ} (old : List (BitVec 32))
    (run : M.runs (remaining + 1) i r = some r')
    (written : ∀ s ∈ r.statuses, s ≠ 0 → s ∈ old) :
    ∃ earlier before last, M.Returns (remaining + 1) i r.st earlier before last ∧
      r'.Left (earlier ++ old) before last := by
  induction remaining generalizing i r old with
  | zero =>
      rw [runs] at run
      simp only [Option.bind_eq_bind, Option.bind_eq_some_iff, Prod.exists] at run
      obtain ⟨failed, st, init, run⟩ := run
      cases failed with
      | some rc =>
          cases run
          exact ⟨[], [], [rc], .fails init, CLCalls.left_set (rc, st) fun s mem nonzero =>
            .inr (written s mem nonzero)⟩
      | none =>
          obtain ⟨ran, first, rest⟩ := Option.bind_eq_some_iff.mp run
          obtain ⟨before, last, returns, left⟩ := nbRunSystem_ended first
          cases rest
          refine ⟨[], before, last, .last init returns, left.rc, left.alone, ?_⟩
          intro s mem nonzero
          obtain here | here | earlier := left.written s mem nonzero
          · exact .inl here
          · exact .inr (.inl here)
          · exact .inr (.inr (written s earlier nonzero))
  | succ remaining ih =>
      rw [runs] at run
      simp only [Option.bind_eq_bind, Option.bind_eq_some_iff, Prod.exists] at run
      obtain ⟨failed, st, init, run⟩ := run
      cases failed with
      | some rc =>
          cases run
          exact ⟨[], [], [rc], .fails init, CLCalls.left_set (rc, st) fun s mem nonzero =>
            .inr (written s mem nonzero)⟩
      | none =>
          obtain ⟨ran, first, rest⟩ := Option.bind_eq_some_iff.mp run
          obtain ⟨before, last, returns, left⟩ := nbRunSystem_ended first
          have upTo : ∀ s ∈ ({ ran with st := M.resetState i ran.st } : Logged σ).statuses,
              s ≠ 0 → s ∈ last ++ before ++ old := by
            intro s mem nonzero
            have here := left.written s mem nonzero
            have earlier := fun mem => written s mem nonzero
            simp only [List.mem_append]
            tauto
          obtain ⟨earlier, before', last', rest, left'⟩ := ih _ rest upTo
          refine ⟨_, before', last', .run init returns rest, left'.rc, left'.alone, ?_⟩
          intro s mem nonzero
          have here := left'.written s mem nonzero
          simp only [List.mem_append] at here ⊢
          tauto

/-- The status that `nbMain` acts on has every status that the calls returned if and only
if `last` has the bits of what the earlier runs returned and of what the last run returned
`before`; unless it is fatal, it is the status of the last call alone. -/
theorem nbMain_carriesAll_iff (M : MainCalls σ) (st : σ) (r : Logged σ)
    (main : M.nbMain st = some r) :
    ∃ earlier before last, M.Returns (M.calibrationRuns + 1) 0 st earlier before last ∧
      ((∀ s ∈ earlier ++ before ++ last, Within s r.rc) ↔
        ∀ s ∈ earlier ++ before, Within s (joined last)) ∧
      (nbStatusIsFatal r.rc = false → last = [r.rc]) := by
  obtain ⟨earlier, before, last, returns, left⟩ :=
    runs_ended [] main fun s mem => absurd mem List.not_mem_nil
  refine ⟨earlier, before, last, returns, ?_, left.alone⟩
  rw [left.rc]
  constructor
  · exact fun all s mem => all s (List.mem_append_left _ mem)
  · intro kept s mem
    obtain mem | mem := List.mem_append.mp mem
    · exact kept s mem
    · exact within_joined mem

end MainCalls

/-! ## The calls of a run -/

variable {R I H : Type} [Zero R] [Add R] [Neg R] [Sub R] [Mul R] [Div R] [OfScientific R] [BEq R]
  [LT R] [DecidableLT R] [LE R] [DecidableLE R] [NatCast R]

def plainCalls (W : World R I H) (S : Session R) (ctx : NBodyCtx R) (nbf : NBodyFlags) :
    PlainCalls (NBodyState R) where
  stepsLeft st := ctx.nStep - st.step
  nbGravMap st := (nbRunStart W S ctx st).map fun (rc, st) => (rc.bits, st)
  nbStepSystemPlain st := do
    let (acc_i, acc_i1) ← shiftAt ctx st
    let (stepped, st) ← nbStepSystemPlain W ctx st acc_i acc_i1
    return (stepped.bits, observe W ctx nbf st)
  nbCheckpoint st :=
    let (written, st) := nbCheckpoint S st
    some (written.bits, st)
  nbWriteFinalCheckpoint st := some ((nbWriteFinalCheckpoint S).bits, st)

theorem plainCalls_turn (W : World R I H) (S : Session R) (ctx : NBodyCtx R) (nbf : NBodyFlags)
    (r : Logged (NBodyState R)) :
    nbRunTurn W S ctx nbf (r.rc, r.st) = ((plainCalls W S ctx nbf).turn r).map
      (Sum.map (fun r => (r.rc, r.st)) fun r => (r.rc, r.st)) := by
  have more : 0 < (plainCalls W S ctx nbf).stepsLeft r.st ↔ r.st.step < ctx.nStep :=
    Nat.sub_pos_iff_lt
  unfold nbRunTurn PlainCalls.turn
  by_cases left : r.st.step < ctx.nStep
  · rw [if_pos (more.mpr left)]
    simp only [if_pos left]
    cases shift : shiftAt ctx r.st with
    | none => simp [plainCalls, shift]
    | some acc =>
        cases step : nbStepSystemPlain W ctx r.st acc.1 acc.2 with
        | none => simp [plainCalls, shift, step]
        | some p =>
            simp only [plainCalls, shift, step, Option.bind_eq_bind, Option.bind_some,
              Option.pure_def]
            rw [apply_ite (Option.map _), Option.map_some, Option.map_some, apply_ite (Sum.map _ _)]
            rfl
  · rw [if_neg (mt more.mp left)]
    simp only [if_neg left]
    rfl

/-- The run evaluates to the status and the state of its logged form. -/
theorem nbRunSystemPlain_eq (W : World R I H) (S : Session R) (ctx : NBodyCtx R)
    (nbf : NBodyFlags) (r : Logged (NBodyState R)) :
    nbRunSystemPlain W S ctx nbf r.st =
      ((plainCalls W S ctx nbf).nbRunSystemPlain r).map fun r => (r.rc, r.st) := by
  unfold nbRunSystemPlain PlainCalls.nbRunSystemPlain
  cases start : nbRunStart W S ctx r.st with
  | none => simp [plainCalls, Logged.set, start]
  | some p =>
      obtain ⟨rc, st⟩ := p
      have first : (plainCalls W S ctx nbf).nbGravMap (r.set (0, r.st)).st = some (rc.bits, st) :=
        congrArg (Option.map _) start
      have status : ((r.set (0, r.st)).or (rc.bits, st)).rc = rc.bits := BitVec.zero_or
      simp only [first, Option.bind_eq_bind, Option.bind_some]
      rw [apply_ite (Option.map _), status]
      by_cases fatal : nbStatusIsFatal rc.bits = true
      · rw [if_pos fatal, if_pos fatal]
        exact congrArg (fun rc => some (rc, st)) status.symm
      · rw [if_neg fatal, if_neg fatal,
          ← Turn.run_map (fun r : Logged (NBodyState R) => (r.rc, r.st))
            _ (plainCalls_turn W S ctx nbf), status]
        rfl

/-! ## A test particle -/

/-- A body and one without a mass, which the tree leaves out. -/
def testParticle : NBodyState ℚ :=
  quietState [{ pos := 0, mass := 1, vel := 0 }, { pos := ⟨2, 2, 0⟩, mass := 0, id := 1, vel := 0 }]

/-- An invocation of one step that tolerates incest. -/
def testMain : MainCalls (NBodyState ℚ) :=
  let ctx := { rowCtx with allowIncest := true, nStep := 1 }
  { device := .inl (plainCalls pairWorld quietSession ctx histogramFlags)
    calibrationRuns := 0
    setFromFlags := fun _ st => nbSetForRun ctx 4 st
    saveInitial := fun _ st => st
    resetState := fun _ st => st }

theorem nbMain_carriesAll_iff_test : ∃ r, testMain.nbMain testParticle = some r ∧
    ∃ earlier before last, testMain.Returns 1 0 testParticle earlier before last ∧
      ((∀ s ∈ earlier ++ before ++ last, Within s r.rc) ↔
        ∀ s ∈ earlier ++ before, Within s (joined last)) ∧
      (nbStatusIsFatal r.rc = false → last = [r.rc]) := by
  have completes : (testMain.nbMain testParticle).isSome = true := by decide +kernel
  obtain ⟨r, main⟩ := Option.isSome_iff_exists.mp completes
  exact ⟨r, main, testMain.nbMain_carriesAll_iff testParticle r main⟩

/-- The step and the first forces report the incest; after the final checkpoint the status
is that of success. -/
theorem nbMain_lost : ∃ r, testMain.nbMain testParticle = some r ∧ r.rc = 0 ∧
    ∃ earlier before last, testMain.Returns 1 0 testParticle earlier before last ∧
      NBodyStatus.treeIncestNonfatal.bits ∈ earlier ++ before ++ last ∧
      ¬∀ s ∈ earlier ++ before ++ last, Within s r.rc := by
  have ends : (testMain.nbMain testParticle).map (fun r => (r.rc, r.statuses)) =
      some (0, [0, 0, NBodyStatus.treeIncestNonfatal.bits,
        NBodyStatus.treeIncestNonfatal.bits, 0]) := by decide +kernel
  obtain ⟨r, main, rest⟩ := Option.map_eq_some_iff.mp ends
  obtain ⟨status, log⟩ := Prod.mk.inj rest
  obtain ⟨earlier, before, last, returns, left⟩ :=
    MainCalls.runs_ended [] main fun s mem => absurd mem List.not_mem_nil
  have returned : NBodyStatus.treeIncestNonfatal.bits ∈ earlier ++ before ++ last := by
    have here := left.written NBodyStatus.treeIncestNonfatal.bits (by rw [log]; decide) (by decide)
    simp only [List.mem_append, List.not_mem_nil, or_false] at here ⊢
    tauto
  refine ⟨r, main, status, earlier, before, last, returns, returned, fun all => ?_⟩
  have within := all _ returned
  rw [status] at within
  exact absurd within (by decide)

end MilkyWay.NBody
