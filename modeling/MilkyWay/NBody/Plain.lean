import MilkyWay.Foundation.Run
import MilkyWay.NBody.Force

/-! The run on the processor: a leapfrog step, the record of the best likelihood, the
checkpoint after each step and the loop over the steps. -/

namespace MilkyWay.NBody

open Foundation

theorem half_mul {R : Type} [Field R] [CharZero R] (dt : R) : 0.5 * dt = dt / 2 := by
  rw [show (0.5 : R) = 1 / 2 by norm_num, one_div_mul_eq_div]

variable {R I H : Type} [Zero R] [Add R] [Neg R] [Sub R] [Mul R] [Div R] [OfScientific R] [BEq R]
  [LT R] [DecidableLT R] [LE R] [DecidableLE R] [NatCast R]

/-- Advance velocity by half a timestep. -/
def bodyAdvanceVel (p : Body R) (a : Vec3 R) (dtHalf : R) : Body R :=
  { p with vel := p.vel + dtHalf • a }

/-- Advance body position by one timestep. -/
def bodyAdvancePos (p : Body R) (dt : R) : Body R := { p with pos := p.pos + dt • p.vel }

def advancePosVel (st : NBodyState R) (dt : R) (acc_i : Vec3 R) : NBodyState R :=
  let dtHalf := 0.5 * dt
  let advance := fun p a => bodyAdvancePos (bodyAdvanceVel p (a + acc_i) dtHalf) dt
  { st with bodytab := List.zipWith advance st.bodytab st.acctab }

def advancePosVel_LMC (st : NBodyState R) (dt : R) (acc acc_i : Vec3 R) : NBodyState R :=
  let dtHalf := 0.5 * dt
  { st with
    LMCpos := st.LMCpos + dt • st.LMCvel
    LMCvel := st.LMCvel + dtHalf • (acc + acc_i) }

def advanceVelocities (st : NBodyState R) (dt : R) (acc_i1 : Vec3 R) : NBodyState R :=
  let dtHalf := 0.5 * dt
  let advance := fun p a => bodyAdvanceVel p (a + acc_i1) dtHalf
  { st with bodytab := List.zipWith advance st.bodytab st.acctab }

def advanceVelocities_LMC (st : NBodyState R) (dt : R) (acc acc_i : Vec3 R) : NBodyState R :=
  let dtHalf := 0.5 * dt
  { st with LMCvel := st.LMCvel + dtHalf • (acc + acc_i) }

def moveLMC (W : World R I H) (ctx : NBodyCtx R) (bar : R) (acc_i : Vec3 R)
    (advance : NBodyState R → R → Vec3 R → Vec3 R → NBodyState R) (st : NBodyState R) :
    Option (NBodyState R) :=
  if ctx.LMC then
    (accelLMC W.L W.K ctx st.LMCpos st.LMCvel bar).map fun acc_LMC =>
      advance st ctx.timestep acc_LMC acc_i
  else some st

/-- Advance the system one time-step; `acc_i` and `acc_i1` are the accelerations of the
shifting Milky Way. -/
def nbStepSystemPlain (W : World R I H) (ctx : NBodyCtx R) (st : NBodyState R)
    (acc_i acc_i1 : Vec3 R) : Option (NBodyStatus × NBodyState R) := do
  let dt := ctx.timestep
  let bar := barTime ctx st
  let st ← moveLMC W ctx bar acc_i advancePosVel_LMC (advancePosVel st dt acc_i)
  let (rc, st) ← nbGravMap W ctx st
  let st ← moveLMC W ctx bar acc_i1 advanceVelocities_LMC (advanceVelocities st dt acc_i1)
  return (rc, { st with step := st.step + 1 })

/-! ## The best likelihood -/

def DEFAULT_WORST_CASE : R := 9999999.9
def DEFAULT_BEST_CASE : R := 1.0e-9

def clampLikelihood (likelihood : R) : R :=
  if DEFAULT_WORST_CASE < likelihood ∨ likelihood < -1.0 * DEFAULT_WORST_CASE ∨
      likelihood != likelihood then DEFAULT_WORST_CASE
  else if likelihood == 0.0 then DEFAULT_BEST_CASE else likelihood

/-- The likelihood of the bodies as they stand, unless the data, the histogram or its
parameters are missing or no comparison is asked for. -/
def likelihoodOf (W : World R I H) (ctx : NBodyCtx R) (nbf : NBodyFlags) (st : NBodyState R) :
    Option (Likelihoods R) := do
  let histogramFileName ← nbf.histogramFileName
  let hp ← W.nbGetLikelihoodInfo nbf
  let histogram ← W.nbCreateHistogram st.step ctx st.bodytab st.use hp
  let data ← W.nbReadHistogram st.step histogramFileName
  return W.nbSystemLikelihood st.step st.use data histogram hp

def recordOf (ctx : NBodyCtx R) (step : ℕ) (use : LikelihoodUse) (l : Likelihoods R) :
    BestLikelihood R where
  bestLikelihood := clampLikelihood l.likelihood
  bestLikelihood_EMD := l.EMD
  bestLikelihood_Mass := l.Mass
  bestLikelihood_Beta := if use.useBetaDisp then l.Beta else 0.0
  bestLikelihood_Vel := if use.useVelDisp then l.Vel else 0.0
  bestLikelihood_BetaAvg := if use.useBetaComp then l.BetaAvg else 0.0
  bestLikelihood_VelAvg := if use.useVlos then l.VelAvg else 0.0
  bestLikelihood_Dist := if use.useDist then l.Dist else 0.0
  bestLikelihood_time := (step : R) / (ctx.nStep : R) * ctx.timeEvolve

def get_likelihood (W : World R I H) (ctx : NBodyCtx R) (nbf : NBodyFlags) (st : NBodyState R) :
    NBodyState R :=
  match likelihoodOf W ctx nbf st with
  | none => st
  | some l =>
      if mw_abs (clampLikelihood l.likelihood) < mw_abs st.best.bestLikelihood then
        { st with
          best := recordOf ctx st.step st.use l
          bestLikelihood_count := st.bestLikelihood_count + 1
          bestLikelihoodBodyTab :=
            if nbf.outFileName.isSome then st.bodytab else st.bestLikelihoodBodyTab }
      else st

/-! ## The run -/

def nbCheckpoint (S : Session R) (st : NBodyState R) : NBodyStatus × NBodyState R :=
  match S.checkpoint st.step with
  | .notYet => (.success, st)
  | .due now written =>
      (if written then .success else .checkpointError, { st with lastCheckpoint := now })

def nbWriteFinalCheckpoint (S : Session R) : NBodyStatus :=
  if S.finalCheckpoint then .success else .checkpointError

def shiftAt (ctx : NBodyCtx R) (st : NBodyState R) : Option (Vec3 R × Vec3 R) :=
  if ctx.LMC then do
    let shiftByLMC ← st.shiftByLMC
    let acc_i ← shiftByLMC[st.step]?
    let acc_i1 ← shiftByLMC[st.step + 1]?
    return (acc_i, acc_i1)
  else some (0, 0)

def inWindow (ctx : NBodyCtx R) (st : NBodyState R) : Bool :=
  decide (ctx.BestLikeStart ≤ (st.step : R) / (ctx.nStep : R)) && ctx.useBestLike

def observe (W : World R I H) (ctx : NBodyCtx R) (nbf : NBodyFlags) (st : NBodyState R) :
    NBodyState R :=
  if inWindow ctx st then get_likelihood W ctx nbf st else st

def nbRunTurn (W : World R I H) (S : Session R) (ctx : NBodyCtx R) (nbf : NBodyFlags) :
    Turn (BitVec 32 × NBodyState R) (BitVec 32 × NBodyState R) := fun (rc, st) =>
  if st.step < ctx.nStep then do
    let (acc_i, acc_i1) ← shiftAt ctx st
    let (stepped, st) ← nbStepSystemPlain W ctx st acc_i acc_i1
    let rc := rc ||| stepped.bits
    let st := observe W ctx nbf st
    if nbStatusIsFatal rc then
      return .inr (rc, st)
    let (written, st) := nbCheckpoint S st
    let rc := rc ||| written.bits
    return if nbStatusIsFatal rc then .inr (rc, st) else .inl (rc, st)
  else some (.inr ((nbWriteFinalCheckpoint S).bits, st))

def fetchLMC (S : Session R) (ctx : NBodyCtx R) (st : NBodyState R) : NBodyState R :=
  if ctx.LMC && st.shiftByLMC.isNone then
    { st with
      shiftByLMC := S.getLMCArray, LMCpos := S.getLMCPosVel.1, LMCvel := S.getLMCPosVel.2 }
  else st

def resetBest (st : NBodyState R) : NBodyState R :=
  { st with best := { st.best with bestLikelihood := DEFAULT_WORST_CASE } }

/-- The accelerations for the first step of a session and the state its loop starts in. -/
def nbRunStart (W : World R I H) (S : Session R) (ctx : NBodyCtx R) (st : NBodyState R) :
    Option (NBodyStatus × NBodyState R) := do
  let (rc, st) ← nbGravMap W ctx (fetchLMC S ctx st)
  return (rc, if nbStatusIsFatal rc.bits then st else resetBest st)

def nbRunSystemPlain (W : World R I H) (S : Session R) (ctx : NBodyCtx R) (nbf : NBodyFlags)
    (st : NBodyState R) : Option (BitVec 32 × NBodyState R) := do
  let (rc, st) ← nbRunStart W S ctx st
  if nbStatusIsFatal rc.bits then
    return (rc.bits, st)
  (nbRunTurn W S ctx nbf).run (ctx.nStep - st.step + 1) (rc.bits, st)

/-- The state after `n` steps of a session, where the checkpoint of that step is made. -/
def nbRunUpTo (W : World R I H) (S : Session R) (ctx : NBodyCtx R) (nbf : NBodyFlags) (n : ℕ)
    (st : NBodyState R) : Option (BitVec 32 × NBodyState R) := do
  let (rc, st) ← nbRunStart W S ctx st
  if nbStatusIsFatal rc.bits then none
  else (nbRunTurn W S ctx nbf).after n (rc.bits, st)

/-! ## What a turn does -/

theorem moveLMC_cases {W : World R I H} {ctx : NBodyCtx R} {bar : R} {acc_i : Vec3 R}
    {advance : NBodyState R → R → Vec3 R → Vec3 R → NBodyState R} {st s : NBodyState R}
    (run : moveLMC W ctx bar acc_i advance st = some s) :
    (ctx.LMC = false ∧ s = st) ∨ ctx.LMC = true ∧ ∃ acc,
      accelLMC W.L W.K ctx st.LMCpos st.LMCvel bar = some acc ∧
      s = advance st ctx.timestep acc acc_i := by
  unfold moveLMC at run
  cases lmc : ctx.LMC with
  | false =>
      simp only [lmc, Bool.false_eq_true, if_false, Option.some.injEq] at run
      exact .inl ⟨rfl, run.symm⟩
  | true =>
      simp only [lmc, if_true, Option.map_eq_some_iff] at run
      obtain ⟨acc, accel, rfl⟩ := run
      exact .inr ⟨rfl, acc, accel, rfl⟩

theorem nbStepSystemPlain_cases {W : World R I H} {ctx : NBodyCtx R} {st s : NBodyState R}
    {acc_i acc_i1 : Vec3 R} {rc : NBodyStatus}
    (run : nbStepSystemPlain W ctx st acc_i acc_i1 = some (rc, s)) :
    ∃ s₁ s₂ s₃, moveLMC W ctx (barTime ctx st) acc_i advancePosVel_LMC
        (advancePosVel st ctx.timestep acc_i) = some s₁ ∧
      nbGravMap W ctx s₁ = some (rc, s₂) ∧
      moveLMC W ctx (barTime ctx st) acc_i1 advanceVelocities_LMC
        (advanceVelocities s₂ ctx.timestep acc_i1) = some s₃ ∧
      s = { s₃ with step := s₃.step + 1 } := by
  simp only [nbStepSystemPlain, Option.bind_eq_bind, Option.bind_eq_some_iff, Option.pure_def,
    Option.some.injEq, Prod.mk.injEq, Prod.exists] at run
  obtain ⟨s₁, first, rc', s₂, force, s₃, second, rfl, rfl⟩ := run
  exact ⟨s₁, s₂, s₃, first, force, second, rfl⟩

theorem nbRunTurn_cases {W : World R I H} {S : Session R} {ctx : NBodyCtx R} {nbf : NBodyFlags}
    {rc : BitVec 32} {st : NBodyState R}
    {x : (BitVec 32 × NBodyState R) ⊕ (BitVec 32 × NBodyState R)}
    (run : nbRunTurn W S ctx nbf (rc, st) = some x) :
    (¬st.step < ctx.nStep ∧ x = .inr ((nbWriteFinalCheckpoint S).bits, st)) ∨
      st.step < ctx.nStep ∧ ∃ acc_i acc_i1 stepped s, shiftAt ctx st = some (acc_i, acc_i1) ∧
        nbStepSystemPlain W ctx st acc_i acc_i1 = some (stepped, s) ∧
        ((nbStatusIsFatal (rc ||| stepped.bits) = true ∧
            x = .inr (rc ||| stepped.bits, observe W ctx nbf s)) ∨
          nbStatusIsFatal (rc ||| stepped.bits) = false ∧ ∃ written t,
            nbCheckpoint S (observe W ctx nbf s) = (written, t) ∧
            x = if nbStatusIsFatal (rc ||| stepped.bits ||| written.bits) then
                .inr (rc ||| stepped.bits ||| written.bits, t)
              else .inl (rc ||| stepped.bits ||| written.bits, t)) := by
  unfold nbRunTurn at run
  by_cases more : st.step < ctx.nStep
  · simp only [more, if_true, Option.bind_eq_bind, Option.bind_eq_some_iff, Prod.exists] at run
    obtain ⟨acc_i, acc_i1, shift, stepped, s, step, run⟩ := run
    refine .inr ⟨more, acc_i, acc_i1, stepped, s, shift, step, ?_⟩
    cases fatal : nbStatusIsFatal (rc ||| stepped.bits) with
    | true =>
        simp only [fatal, if_true, Option.pure_def, Option.some.injEq] at run
        exact .inl ⟨rfl, run.symm⟩
    | false =>
        simp only [fatal, Bool.false_eq_true, if_false, Option.pure_def, Option.some.injEq] at run
        exact .inr ⟨rfl, _, _, rfl, run.symm⟩
  · simp only [more, if_false, Option.some.injEq] at run
    exact .inl ⟨more, run.symm⟩

theorem nbRunTurn_eq {W : World R I H} (S : Session R) {ctx : NBodyCtx R} (nbf : NBodyFlags)
    (rc : BitVec 32) {st s : NBodyState R} {acc_i acc_i1 : Vec3 R} {stepped : NBodyStatus}
    (more : st.step < ctx.nStep) (shift : shiftAt ctx st = some (acc_i, acc_i1))
    (step : nbStepSystemPlain W ctx st acc_i acc_i1 = some (stepped, s)) :
    nbRunTurn W S ctx nbf (rc, st) =
      let rc := rc ||| stepped.bits
      let made := nbCheckpoint S (observe W ctx nbf s)
      if nbStatusIsFatal rc then some (.inr (rc, observe W ctx nbf s))
      else if nbStatusIsFatal (rc ||| made.1.bits) then some (.inr (rc ||| made.1.bits, made.2))
      else some (.inl (rc ||| made.1.bits, made.2)) := by
  simp only [nbRunTurn, if_pos more, shift, step, Option.bind_eq_bind, Option.bind_some,
    Option.pure_def]
  split
  · rfl
  · split <;> rfl

structure StepFrame (st s : NBodyState R) : Prop where
  step : s.step = st.step + 1
  best : s.best = st.best
  count : s.bestLikelihood_count = st.bestLikelihood_count
  bestTab : s.bestLikelihoodBodyTab = st.bestLikelihoodBodyTab
  use : s.use = st.use
  shift : s.shiftByLMC = st.shiftByLMC
  forwardTime : s.previousForwardTime = st.previousForwardTime
  usesCL : s.usesCL = st.usesCL

theorem nbStepSystemPlain_frame {W : World R I H} {ctx : NBodyCtx R} {st s : NBodyState R}
    {acc_i acc_i1 : Vec3 R} {rc : NBodyStatus}
    (run : nbStepSystemPlain W ctx st acc_i acc_i1 = some (rc, s)) : StepFrame st s := by
  obtain ⟨s₁, s₂, s₃, first, force, second, rfl⟩ := nbStepSystemPlain_cases run
  have frame := (nbGravMap_frame force).1
  obtain ⟨-, rfl⟩ | ⟨-, _, -, rfl⟩ := moveLMC_cases first <;>
    obtain ⟨-, rfl⟩ | ⟨-, _, -, rfl⟩ := moveLMC_cases second <;>
    rw [frame] <;> exact ⟨rfl, rfl, rfl, rfl, rfl, rfl, rfl, rfl⟩

omit [Add R] [Sub R] [LE R] [DecidableLE R] in
theorem get_likelihood_frame (W : World R I H) (ctx : NBodyCtx R) (nbf : NBodyFlags)
    (st : NBodyState R) : get_likelihood W ctx nbf st = { st with
      best := (get_likelihood W ctx nbf st).best
      bestLikelihood_count := (get_likelihood W ctx nbf st).bestLikelihood_count
      bestLikelihoodBodyTab := (get_likelihood W ctx nbf st).bestLikelihoodBodyTab } := by
  unfold get_likelihood
  split
  · rfl
  · split <;> rfl

omit [Add R] [Sub R] in
theorem observe_frame (W : World R I H) (ctx : NBodyCtx R) (nbf : NBodyFlags)
    (st : NBodyState R) : observe W ctx nbf st = { st with
      best := (observe W ctx nbf st).best
      bestLikelihood_count := (observe W ctx nbf st).bestLikelihood_count
      bestLikelihoodBodyTab := (observe W ctx nbf st).bestLikelihoodBodyTab } := by
  unfold observe
  split
  · exact get_likelihood_frame W ctx nbf st
  · rfl

omit [Add R] [Sub R] in
theorem observe_bodies (W : World R I H) (ctx : NBodyCtx R) (nbf : NBodyFlags)
    (st : NBodyState R) :
    (observe W ctx nbf st).bestLikelihoodBodyTab = st.bestLikelihoodBodyTab ∨
      (observe W ctx nbf st).bestLikelihoodBodyTab = st.bodytab := by
  unfold observe get_likelihood
  split
  · split
    · exact .inl rfl
    · split
      · dsimp only
        split
        · exact .inr rfl
        · exact .inl rfl
      · exact .inl rfl
  · exact .inl rfl

/-- The checkpoint of a step is due and cannot be written. -/
def Session.fails (S : Session R) (step : ℕ) : Bool :=
  match S.checkpoint step with
  | .notYet => false
  | .due _ written => !written

section
omit [Zero R] [Add R] [Neg R] [Sub R] [Mul R] [Div R] [OfScientific R] [BEq R] [LT R]
  [DecidableLT R] [LE R] [DecidableLE R] [NatCast R]

theorem nbCheckpoint_status (S : Session R) (st : NBodyState R) :
    (nbCheckpoint S st).1 = if S.fails st.step then .checkpointError else .success := by
  unfold nbCheckpoint Session.fails
  split
  · rfl
  · rename_i written _
    cases written <;> rfl

theorem nbCheckpoint_frame {S : Session R} {st t : NBodyState R} {rc : NBodyStatus}
    (made : nbCheckpoint S st = (rc, t)) :
    t = { st with lastCheckpoint := t.lastCheckpoint } := by
  unfold nbCheckpoint at made
  split at made <;> cases made <;> rfl

end

theorem nbRunTurn_step {W : World R I H} {S : Session R} {ctx : NBodyCtx R} {nbf : NBodyFlags}
    {p p' : BitVec 32 × NBodyState R} (next : (nbRunTurn W S ctx nbf).GoesOn p p') :
    p'.2.step = p.2.step + 1 ∧ p.2.step < ctx.nStep := by
  obtain ⟨rc, st⟩ := p
  obtain ⟨-, ends⟩ | ⟨more, acc_i, acc_i1, stepped, s, -, step, rest⟩ := nbRunTurn_cases next
  · cases ends
  · obtain ⟨-, ends⟩ | ⟨-, written, t, made, ends⟩ := rest
    · cases ends
    · split at ends
      · cases ends
      · cases ends
        have last := nbCheckpoint_frame made
        have observed := observe_frame W ctx nbf s
        refine ⟨?_, more⟩
        rw [last]
        show (observe W ctx nbf s).step = st.step + 1
        rw [observed]
        exact (nbStepSystemPlain_frame step).step

theorem nbRunTurn_enough {W : World R I H} {S : Session R} {ctx : NBodyCtx R} {nbf : NBodyFlags}
    {rc : BitVec 32} {st : NBodyState R} {n : ℕ} {r : BitVec 32 × NBodyState R}
    (ends : (nbRunTurn W S ctx nbf).run n (rc, st) = some r) :
    (nbRunTurn W S ctx nbf).run (ctx.nStep - st.step + 1) (rc, st) = some r := by
  refine Turn.run_measure (fun p => ctx.nStep - p.2.step) ?_ _ (Nat.lt_succ_self _) ends
  intro p p' next
  obtain ⟨one, more⟩ := nbRunTurn_step next
  show ctx.nStep - p'.2.step < ctx.nStep - p.2.step
  omega

end MilkyWay.NBody
