import MilkyWay.NBody.BestLikelihood
import MilkyWay.NBody.Checkpoint

/-! A run that is stopped after a checkpoint and resumed from it. The accelerations that
a step leaves are computed before the clock moves on, those for the first step of a
resumed run after it; `nbRunSystemPlain_resume` says when both runs end with the same
bodies. -/

namespace MilkyWay.NBody

open Foundation

variable {R I H : Type} [Zero R] [Add R] [Neg R] [Sub R] [Mul R] [Div R] [OfScientific R] [BEq R]
  [LT R] [DecidableLT R] [LE R] [DecidableLE R] [NatCast R]

/-- The settings that the program makes before a run. -/
def nbSetForRun (ctx : NBodyCtx R) (forwardTime : R) (st : NBodyState R) : NBodyState R := { st with
  previousForwardTime := forwardTime
  use := ⟨ctx.useVelDisp, ctx.useBetaDisp, ctx.useBetaComp, ctx.useVlos, ctx.useDist⟩ }

/-- Read a checkpoint into the state `new` and make it ready for a run. -/
def nbResume (B : Build R) (L : Layout R) (new : NBodyState R) (forwardTime : R) (file : Bytes) :
    Option (NBodyCtx R × NBodyState R) := do
  let r ← nbThawState B L new file
  if r.failed then none
  else
    let st := { r.st with acctab := List.replicate r.st.bodytab.length 0 }
    return (r.ctx, nbSetForRun r.ctx forwardTime st)

/-- The state that is resumed from a checkpoint of `c`. -/
def resumed (ctx : NBodyCtx R) (forwardTime : R) (new c : NBodyState R) : NBodyState R :=
  nbSetForRun ctx forwardTime
    { thawed new c with acctab := List.replicate c.bodytab.length 0 }

def resumedStart (ctx : NBodyCtx R) (forwardTime : R) (new c : NBodyState R) : NBodyState R :=
  resetBest { resumed ctx forwardTime new c with acctab := c.acctab }

/-! ## The same motion -/

/-- The states agree on all that the motion depends on, apart from the clock of a bar
that no force reads. -/
structure SameMotion (ctx : NBodyCtx R) (s t : NBodyState R) : Prop where
  step : t.step = s.step
  bodytab : t.bodytab = s.bodytab
  acctab : t.acctab = s.acctab
  rsize : t.rsize = s.rsize
  structureError : t.structureError = s.structureError
  treeIncest : t.treeIncest = s.treeIncest
  potentialEvalError : t.potentialEvalError = s.potentialEvalError
  satellite : ctx.LMC = true → t.shiftByLMC = s.shiftByLMC ∧ t.LMCpos = s.LMCpos ∧
    t.LMCvel = s.LMCvel
  forwardTime : ctx.LMC = true → ctx.pot.disk2.type ≠ .orbitingBar ∨
    t.previousForwardTime = s.previousForwardTime

namespace SameMotion

variable {W : World R I H} {ctx : NBodyCtx R} {s t : NBodyState R}

section
omit [Add R] [Neg R] [Sub R] [Mul R] [Div R] [OfScientific R] [BEq R] [LT R] [DecidableLT R]
  [LE R] [DecidableLE R] [NatCast R] [Zero R]

theorem shiftAt (same : SameMotion ctx s t) [Zero R] :
    NBody.shiftAt ctx t = NBody.shiftAt ctx s := by
  unfold NBody.shiftAt
  by_cases satellite : ctx.LMC = true
  · rw [if_pos satellite, if_pos satellite, (same.satellite satellite).1, same.step]
  · rw [if_neg satellite, if_neg satellite]

theorem forces [OfScientific R] (same : SameMotion ctx s t) : SameForces ctx s t := by
  refine ⟨same.rsize, same.structureError, ?_, ?_, same.treeIncest, same.potentialEvalError⟩
  · rw [same.bodytab]
  · unfold lmc
    by_cases satellite : ctx.LMC = true
    · rw [if_pos satellite, if_pos satellite, (same.satellite satellite).2.1]
    · rw [if_neg satellite, if_neg satellite]

theorem symm (same : SameMotion ctx s t) : SameMotion ctx t s where
  step := same.step.symm
  bodytab := same.bodytab.symm
  acctab := same.acctab.symm
  rsize := same.rsize.symm
  structureError := same.structureError.symm
  treeIncest := same.treeIncest.symm
  potentialEvalError := same.potentialEvalError.symm
  satellite lmc :=
    let ⟨shift, pos, vel⟩ := same.satellite lmc
    ⟨shift.symm, pos.symm, vel.symm⟩
  forwardTime lmc := (same.forwardTime lmc).imp id Eq.symm

theorem trans {u : NBodyState R} (same : SameMotion ctx s t) (same' : SameMotion ctx t u) :
    SameMotion ctx s u where
  step := same'.step.trans same.step
  bodytab := same'.bodytab.trans same.bodytab
  acctab := same'.acctab.trans same.acctab
  rsize := same'.rsize.trans same.rsize
  structureError := same'.structureError.trans same.structureError
  treeIncest := same'.treeIncest.trans same.treeIncest
  potentialEvalError := same'.potentialEvalError.trans same.potentialEvalError
  satellite lmc :=
    let ⟨shift, pos, vel⟩ := same.satellite lmc
    let ⟨shift', pos', vel'⟩ := same'.satellite lmc
    ⟨shift'.trans shift, pos'.trans pos, vel'.trans vel⟩
  forwardTime lmc := (same.forwardTime lmc).elim .inl fun time =>
    (same'.forwardTime lmc).imp id fun time' => time'.trans time

theorem nbCheckpoint (S : Session R) (ctx : NBodyCtx R) (s : NBodyState R) :
    SameMotion ctx s (NBody.nbCheckpoint S s).2 := by
  obtain ⟨rc, t, made⟩ : ∃ rc t, NBody.nbCheckpoint S s = (rc, t) := ⟨_, _, rfl⟩
  rw [made, nbCheckpoint_frame made]
  exact ⟨rfl, rfl, rfl, rfl, rfl, rfl, rfl, fun _ => ⟨rfl, rfl, rfl⟩, fun _ => .inr rfl⟩

end

theorem moveLMC {bar bar' : R} {a : Vec3 R} {s' : NBodyState R}
    {advance : NBodyState R → R → Vec3 R → Vec3 R → NBodyState R} (same : SameMotion ctx s t)
    (kept : ∀ acc, ctx.LMC = true → SameMotion ctx (advance s ctx.timestep acc a)
      (advance t ctx.timestep acc a))
    (clock : ctx.LMC = true → ctx.pot.disk2.type ≠ .orbitingBar ∨ bar' = bar)
    (run : NBody.moveLMC W ctx bar a advance s = some s') :
    ∃ t', NBody.moveLMC W ctx bar' a advance t = some t' ∧ SameMotion ctx s' t' := by
  obtain ⟨no, rfl⟩ | ⟨satellite, acc, accel, rfl⟩ := moveLMC_cases run
  · refine ⟨t, ?_, same⟩
    rw [NBody.moveLMC, no]
    exact if_neg Bool.false_ne_true
  · refine ⟨advance t ctx.timestep acc a, ?_, kept acc satellite⟩
    obtain ⟨-, pos, vel⟩ := same.satellite satellite
    have accel' : accelLMC W.L W.K ctx t.LMCpos t.LMCvel bar' = some acc := by
      rw [pos, vel, ← accel]
      obtain rests | rfl := clock satellite
      · exact accelLMC_time rests _ _ _ _
      · rfl
    rw [NBody.moveLMC, if_pos satellite, accel']
    rfl

omit [Add R] [Sub R] in
theorem observe (W : World R I H) (ctx : NBodyCtx R) (nbf : NBodyFlags) (s : NBodyState R) :
    SameMotion ctx s (NBody.observe W ctx nbf s) := by
  rw [observe_frame]
  exact ⟨rfl, rfl, rfl, rfl, rfl, rfl, rfl, fun _ => ⟨rfl, rfl, rfl⟩, fun _ => .inr rfl⟩

theorem nbStepSystemPlain {s' : NBodyState R} {acc_i acc_i1 : Vec3 R} {rc : NBodyStatus}
    (same : SameMotion ctx s t) (rests : ForceRests ctx)
    (run : NBody.nbStepSystemPlain W ctx s acc_i acc_i1 = some (rc, s')) :
    ∃ t', NBody.nbStepSystemPlain W ctx t acc_i acc_i1 = some (rc, t') ∧
      SameMotion ctx s' t' := by
  obtain ⟨s₁, s₂, s₃, first, force, second, rfl⟩ := nbStepSystemPlain_cases run
  have clock : ctx.LMC = true → ctx.pot.disk2.type ≠ .orbitingBar ∨
      barTime ctx t = barTime ctx s := fun satellite =>
    (same.forwardTime satellite).imp id fun time => by rw [barTime, barTime, time, same.step]
  have drifted : SameMotion ctx (advancePosVel s ctx.timestep acc_i)
      (advancePosVel t ctx.timestep acc_i) := by
    refine ⟨same.step, ?_, same.acctab, same.rsize, same.structureError, same.treeIncest,
      same.potentialEvalError, same.satellite, same.forwardTime⟩
    simp only [advancePosVel, same.bodytab, same.acctab]
  obtain ⟨t₁, first', same₁⟩ := drifted.moveLMC (fun acc satellite => by
    obtain ⟨shift, pos, vel⟩ := drifted.satellite satellite
    exact ⟨drifted.step, drifted.bodytab, drifted.acctab, drifted.rsize, drifted.structureError,
      drifted.treeIncest, drifted.potentialEvalError, fun _ => ⟨shift, by
        simp only [advancePosVel_LMC, pos, vel], by simp only [advancePosVel_LMC, vel]⟩,
      drifted.forwardTime⟩) clock first
  have force' := nbGravMap_congr rests same₁.forces same₁.acctab force
  have same₂ : SameMotion ctx s₂ (withForces t₁ s₂) := by
    rw [(nbGravMap_frame force).1]
    exact ⟨same₁.step, same₁.bodytab, rfl, rfl, rfl, rfl, rfl, same₁.satellite,
      same₁.forwardTime⟩
  have kicked : SameMotion ctx (advanceVelocities s₂ ctx.timestep acc_i1)
      (advanceVelocities (withForces t₁ s₂) ctx.timestep acc_i1) := by
    refine ⟨same₂.step, ?_, same₂.acctab, same₂.rsize, same₂.structureError, same₂.treeIncest,
      same₂.potentialEvalError, same₂.satellite, same₂.forwardTime⟩
    simp only [advanceVelocities, same₂.bodytab, same₂.acctab]
  obtain ⟨t₃, second', same₃⟩ := kicked.moveLMC (fun acc satellite => by
    obtain ⟨shift, pos, vel⟩ := kicked.satellite satellite
    exact ⟨kicked.step, kicked.bodytab, kicked.acctab, kicked.rsize, kicked.structureError,
      kicked.treeIncest, kicked.potentialEvalError, fun _ => ⟨shift, pos, by
        simp only [advanceVelocities_LMC, vel]⟩, kicked.forwardTime⟩) clock second
  refine ⟨{ t₃ with step := t₃.step + 1 }, ?_, ?_⟩
  · simp only [NBody.nbStepSystemPlain, first', force', second', Option.bind_eq_bind,
      Option.bind_some, Option.pure_def]
  · exact ⟨congrArg (· + 1) same₃.step, same₃.bodytab, same₃.acctab, same₃.rsize,
      same₃.structureError, same₃.treeIncest, same₃.potentialEvalError, same₃.satellite,
      same₃.forwardTime⟩

end SameMotion

def SameLoop (ctx : NBodyCtx R) (p q : BitVec 32 × NBodyState R) : Prop :=
  nbStatusIsFatal q.1 = nbStatusIsFatal p.1 ∧ SameMotion ctx p.2 q.2

def SameResult (ctx : NBodyCtx R) (p q : BitVec 32 × NBodyState R) : Prop :=
  SameMotion ctx p.2 q.2

theorem SameLoop.turn {W : World R I H} {S S' : Session R} {ctx : NBodyCtx R} {nbf : NBodyFlags}
    {p q : BitVec 32 × NBodyState R}
    {x : (BitVec 32 × NBodyState R) ⊕ (BitVec 32 × NBodyState R)} (same : SameLoop ctx p q)
    (rests : ForceRests ctx) (writes : ∀ k, S'.fails k = S.fails k)
    (run : nbRunTurn W S ctx nbf p = some x) :
    ∃ y, nbRunTurn W S' ctx nbf q = some y ∧
      Sum.LiftRel (SameLoop ctx) (SameResult ctx) x y := by
  obtain ⟨rc, s⟩ := p
  obtain ⟨rc', t⟩ := q
  obtain ⟨fatal, same⟩ := same
  obtain ⟨ended, rfl⟩ | ⟨more, acc_i, acc_i1, stepped, s', shift, step, -⟩ := nbRunTurn_cases run
  · have ended' : ¬t.step < ctx.nStep := same.step ▸ ended
    exact ⟨_, if_neg ended', .inr same⟩
  · obtain ⟨t', step', same'⟩ := same.nbStepSystemPlain rests step
    have more' : t.step < ctx.nStep := same.step ▸ more
    rw [nbRunTurn_eq S nbf rc more shift step] at run
    rw [nbRunTurn_eq S' nbf rc' more' (same.shiftAt.trans shift) step']
    have observed : SameMotion ctx (observe W ctx nbf s') (observe W ctx nbf t') :=
      (SameMotion.observe W ctx nbf s').symm.trans
        (same'.trans (SameMotion.observe W ctx nbf t'))
    have made : SameMotion ctx (nbCheckpoint S (observe W ctx nbf s')).2
        (nbCheckpoint S' (observe W ctx nbf t')).2 :=
      (SameMotion.nbCheckpoint S ctx _).symm.trans
        (observed.trans (SameMotion.nbCheckpoint S' ctx _))
    have written : (nbCheckpoint S' (observe W ctx nbf t')).1 =
        (nbCheckpoint S (observe W ctx nbf s')).1 := by
      rw [nbCheckpoint_status, nbCheckpoint_status, observed.step, writes]
    have fatal' : nbStatusIsFatal (rc' ||| stepped.bits) =
        nbStatusIsFatal (rc ||| stepped.bits) := by
      rw [nbStatusIsFatal_or, nbStatusIsFatal_or]
      exact congrArg (· || _) fatal
    have failed : nbStatusIsFatal (rc' ||| stepped.bits |||
          (nbCheckpoint S' (observe W ctx nbf t')).1.bits) =
        nbStatusIsFatal (rc ||| stepped.bits |||
          (nbCheckpoint S (observe W ctx nbf s')).1.bits) := by
      rw [nbStatusIsFatal_or, nbStatusIsFatal_or (rc ||| stepped.bits), written, fatal']
    dsimp only at run ⊢
    rw [fatal', failed]
    cases h : nbStatusIsFatal (rc ||| stepped.bits) with
    | true =>
        rw [h, if_pos rfl, Option.some.injEq] at run
        subst run
        exact ⟨_, if_pos rfl, .inr observed⟩
    | false =>
        rw [h, if_neg Bool.false_ne_true] at run
        rw [if_neg Bool.false_ne_true]
        split at run
        · rename_i failing
          cases run
          exact ⟨_, if_pos failing, .inr made⟩
        · rename_i going
          cases run
          exact ⟨_, if_neg going, .inl ⟨failed, made⟩⟩

/-! ## The state at a checkpoint -/

/-- The accelerations in the state `c` of a run from `origin` are those of its bodies at
some time. -/
structure Carried (W : World R I H) (ctx : NBodyCtx R) (origin c : NBodyState R) : Prop where
  forces : ∃ st s rc, nbGravMap W ctx st = some (rc, s) ∧ nbStatusIsFatal rc.bits = false ∧
    SameForces ctx s c ∧ c.acctab = s.acctab
  accelerations : c.acctab.length = c.bodytab.length
  best : c.bestLikelihoodBodyTab.length = c.bodytab.length
  use : c.use = origin.use
  forwardTime : c.previousForwardTime = origin.previousForwardTime
  usesCL : c.usesCL = origin.usesCL

omit [Zero R] [Add R] [Neg R] [Sub R] [Mul R] [Div R] [OfScientific R] [BEq R] [LT R]
  [DecidableLT R] [LE R] [DecidableLE R] [NatCast R] in
theorem points_zipWith [Add R] [Mul R] {bodies : List (Body R)} {accelerations : List (Vec3 R)}
    (length : accelerations.length = bodies.length) (a : Vec3 R) (dtHalf : R) :
    points (List.zipWith (fun p acc => bodyAdvanceVel p (acc + a) dtHalf) bodies accelerations) =
      points bodies := by
  refine List.ext_getElem ?_ fun i h h' => ?_
  · simp only [points, List.length_map, List.length_zipWith, length, min_self]
  · simp only [points, List.getElem_map, List.getElem_zipWith, bodyAdvanceVel]

namespace Carried

variable {W : World R I H} {S : Session R} {ctx : NBodyCtx R} {nbf : NBodyFlags}
  {origin c : NBodyState R}

theorem start {rc : NBodyStatus} (best : origin.bestLikelihoodBodyTab.length =
    origin.bodytab.length) (begins : nbRunStart W S ctx origin = some (rc, c))
    (notFatal : nbStatusIsFatal rc.bits = false) : Carried W ctx origin c := by
  simp only [nbRunStart, Option.bind_eq_bind, Option.bind_eq_some_iff, Option.pure_def,
    Option.some.injEq, Prod.mk.injEq, Prod.exists] at begins
  obtain ⟨rc', s, force, rfl, rfl⟩ := begins
  rw [notFatal, if_neg Bool.false_ne_true]
  obtain ⟨frame, length⟩ := nbGravMap_frame force
  refine ⟨⟨_, s, rc', force, notFatal, ⟨rfl, rfl, rfl, rfl, rfl, rfl⟩, rfl⟩, ?_, ?_, ?_, ?_, ?_⟩
  · rw [frame]
    exact length notFatal
  all_goals
    rw [frame]
    unfold fetchLMC
    split <;> first | rfl | exact best

theorem congr {c' : NBodyState R} (carried : Carried W ctx origin c)
    (same : SameMotion ctx c c') (best : c'.bestLikelihoodBodyTab.length = c'.bodytab.length)
    (use : c'.use = c.use) (forwardTime : c'.previousForwardTime = c.previousForwardTime)
    (usesCL : c'.usesCL = c.usesCL) : Carried W ctx origin c' := by
  obtain ⟨st, s, rc, force, notFatal, forces, acctab⟩ := carried.forces
  have forces' := same.forces
  refine ⟨⟨st, s, rc, force, notFatal, ⟨?_, ?_, ?_, ?_, ?_, ?_⟩, same.acctab.trans acctab⟩, ?_,
    best, use.trans carried.use, forwardTime.trans carried.forwardTime, usesCL.trans carried.usesCL⟩
  · exact forces'.rsize.trans forces.rsize
  · exact forces'.structureError.trans forces.structureError
  · exact forces'.points.trans forces.points
  · exact forces'.lmc.trans forces.lmc
  · exact forces'.treeIncest.trans forces.treeIncest
  · exact forces'.potentialEvalError.trans forces.potentialEvalError
  · rw [same.acctab, same.bodytab]
    exact carried.accelerations

theorem step {s : NBodyState R} {acc_i acc_i1 : Vec3 R} {rc : NBodyStatus}
    (carried : Carried W ctx origin c)
    (run : nbStepSystemPlain W ctx c acc_i acc_i1 = some (rc, s))
    (notFatal : nbStatusIsFatal rc.bits = false) : Carried W ctx origin s := by
  have kept := nbStepSystemPlain_frame run
  obtain ⟨s₁, s₂, s₃, first, force, second, rfl⟩ := nbStepSystemPlain_cases run
  have bodies₁ : s₁.bodytab.length = c.bodytab.length := by
    have drifted : (advancePosVel c ctx.timestep acc_i).bodytab.length = c.bodytab.length := by
      simp only [advancePosVel, List.length_zipWith, carried.accelerations, min_self]
    obtain ⟨-, rfl⟩ | ⟨-, _, -, rfl⟩ := moveLMC_cases first <;> exact drifted
  obtain ⟨frame, length⟩ := nbGravMap_frame force
  have bodies₂ : s₂.bodytab = s₁.bodytab := by rw [frame]; rfl
  have accelerations : s₂.acctab.length = s₂.bodytab.length := by
    rw [length notFatal, bodies₂]
  have kicked : (advanceVelocities s₂ ctx.timestep acc_i1).bodytab.length = s₂.bodytab.length := by
    simp only [advanceVelocities, List.length_zipWith, accelerations, min_self]
  have same : points (advanceVelocities s₂ ctx.timestep acc_i1).bodytab = points s₂.bodytab :=
    points_zipWith accelerations _ _
  have forces : SameForces ctx s₂ { s₃ with step := s₃.step + 1 } ∧ s₃.acctab = s₂.acctab ∧
      s₃.bodytab = (advanceVelocities s₂ ctx.timestep acc_i1).bodytab := by
    obtain ⟨-, rfl⟩ | ⟨-, _, -, rfl⟩ := moveLMC_cases second <;>
      exact ⟨⟨rfl, rfl, same, rfl, rfl, rfl⟩, rfl, rfl⟩
  obtain ⟨forces, acctab, bodies₃⟩ := forces
  refine ⟨⟨s₁, s₂, rc, force, notFatal, forces, acctab⟩, ?_, ?_, kept.use.trans carried.use,
    kept.forwardTime.trans carried.forwardTime, kept.usesCL.trans carried.usesCL⟩
  · show s₃.acctab.length = s₃.bodytab.length
    rw [acctab, bodies₃, kicked, accelerations]
  · rw [kept.bestTab]
    show c.bestLikelihoodBodyTab.length = s₃.bodytab.length
    rw [carried.best, bodies₃, kicked, bodies₂, bodies₁]

theorem observe (carried : Carried W ctx origin c) :
    Carried W ctx origin (NBody.observe W ctx nbf c) := by
  have frame := observe_frame W ctx nbf c
  have same := SameMotion.observe W ctx nbf c
  refine carried.congr same ?_ ?_ ?_ ?_
  · rw [same.bodytab]
    obtain kept | new := observe_bodies W ctx nbf c
    · rw [kept, carried.best]
    · rw [new]
  all_goals
    rw [frame]

theorem goesOn {p p' : BitVec 32 × NBodyState R} (carried : Carried W ctx origin p.2)
    (next : (nbRunTurn W S ctx nbf).GoesOn p p') :
    Carried W ctx origin p'.2 ∧ nbStatusIsFatal p'.1 = false ∧
      (ctx.LMC = true → entries p'.2.shiftByLMC ≠ 0) := by
  obtain ⟨rc, st⟩ := p
  obtain ⟨-, ends⟩ | ⟨more, acc_i, acc_i1, stepped, s, shift, step, rest⟩ := nbRunTurn_cases next
  · cases ends
  · obtain ⟨-, ends⟩ | ⟨going, written, t, made, ends⟩ := rest
    · cases ends
    · split at ends
      · cases ends
      · rename_i notFatal
        cases ends
        rw [nbStatusIsFatal_or, Bool.or_eq_false_iff] at going
        have observed : Carried W ctx origin (NBody.observe W ctx nbf _) :=
          (carried.step step going.2).observe
        have last := nbCheckpoint_frame made
        refine ⟨?_, Bool.eq_false_of_not_eq_true notFatal, ?_⟩
        · have same := SameMotion.nbCheckpoint S ctx (NBody.observe W ctx nbf s)
          rw [made] at same
          refine observed.congr same ?_ ?_ ?_ ?_
          · rw [last]
            exact observed.best
          all_goals
            rw [last]
        · intro satellite
          have shifted : t.shiftByLMC = st.shiftByLMC := by
            rw [last, observe_frame W ctx nbf s]
            exact (nbStepSystemPlain_frame step).shift
          rw [shiftAt, if_pos satellite, Option.bind_eq_bind, Option.bind_eq_some_iff] at shift
          obtain ⟨l, some_, shift⟩ := shift
          rw [Option.bind_eq_bind, Option.bind_eq_some_iff] at shift
          obtain ⟨_, entry, -⟩ := shift
          have positive := (List.getElem?_eq_some_iff.mp entry).1
          show entries t.shiftByLMC ≠ 0
          rw [shifted, some_, entries, Option.getD_some]
          exact Nat.ne_of_gt (Nat.zero_lt_of_lt positive)

theorem after {n : ℕ} {p p' : BitVec 32 × NBodyState R} (carried : Carried W ctx origin p.2)
    (run : (nbRunTurn W S ctx nbf).after (n + 1) p = some p') :
    Carried W ctx origin p'.2 ∧ nbStatusIsFatal p'.1 = false ∧
      (ctx.LMC = true → entries p'.2.shiftByLMC ≠ 0) := by
  obtain ⟨q, before, next⟩ := Turn.after_succ run
  have invariant : Carried W ctx origin q.2 :=
    (Turn.reaches_of_after before).invariant (fun p => Carried W ctx origin p.2)
      (fun _ _ carried next => (carried.goesOn next).1) carried
  exact invariant.goesOn next

theorem resume (new : NBodyState R) {forwardTime : R} (carried : Carried W ctx origin c)
    (doubling : ∀ r : R, 0 < r → 0 < r * 2.0) (S : Session R)
    (shifted : ctx.LMC = true → entries c.shiftByLMC ≠ 0)
    (noError : new.potentialEvalError = false) (rests : ForceRests ctx)
    (clock : ctx.LMC = true → ctx.pot.disk2.type ≠ .orbitingBar ∨
      forwardTime = origin.previousForwardTime) :
    ∃ rc, nbRunStart W S ctx (resumed ctx forwardTime new c) =
        some (rc, resumedStart ctx forwardTime new c) ∧
      nbStatusIsFatal rc.bits = false ∧ SameMotion ctx c (resumedStart ctx forwardTime new c) := by
  obtain ⟨st, s, rc, force, notFatal, forces, acctab⟩ := carried.forces
  have satellite : ctx.LMC = true → (resumed ctx forwardTime new c).shiftByLMC = c.shiftByLMC ∧
      (resumed ctx forwardTime new c).LMCpos = c.LMCpos ∧
      (resumed ctx forwardTime new c).LMCvel = c.LMCvel := fun lmc =>
    ⟨if_neg (shifted lmc), if_neg (shifted lmc), if_neg (shifted lmc)⟩
  have fetched : fetchLMC S ctx (resumed ctx forwardTime new c) =
      resumed ctx forwardTime new c := by
    unfold fetchLMC
    split
    · rename_i fetch
      rw [Bool.and_eq_true, Option.isNone_iff_eq_none] at fetch
      rw [(satellite fetch.1).1] at fetch
      exact absurd (by rw [fetch.2]; rfl) (shifted fetch.1)
    · rfl
  have error : c.potentialEvalError = false :=
    forces.potentialEvalError.trans (nbGravMap_noError force notFatal)
  have same : SameMotion ctx c { resumed ctx forwardTime new c with acctab := c.acctab } :=
    ⟨rfl, rfl, rfl, rfl, rfl, rfl, noError.trans error.symm, satellite, fun lmc => by
      rw [carried.forwardTime]
      exact clock lmc⟩
  have forces' : SameForces ctx s (resumed ctx forwardTime new c) := by
    have next := same.forces
    exact ⟨next.rsize.trans forces.rsize, next.structureError.trans forces.structureError,
      next.points.trans forces.points, next.lmc.trans forces.lmc,
      next.treeIncest.trans forces.treeIncest,
      next.potentialEvalError.trans forces.potentialEvalError⟩
  have again := nbGravMap_again doubling force notFatal rests forces'
  refine ⟨rc, ?_, notFatal, ⟨same.step, same.bodytab,
    same.acctab, same.rsize, same.structureError, same.treeIncest, same.potentialEvalError,
    same.satellite, same.forwardTime⟩⟩
  rw [nbRunStart, fetched, again, Option.bind_eq_bind, Option.bind_some]
  dsimp only
  rw [notFatal, if_neg Bool.false_ne_true, ← acctab]
  rfl

end Carried

/-! ## The resumed run -/

section
variable {W : World R I H} {L : Layout R} {S S' : Session R} {ctx : NBodyCtx R} {nbf : NBodyFlags}

omit [Add R] [Neg R] [Sub R] [Mul R] [Div R] [OfScientific R] [BEq R] [LT R] [DecidableLT R]
  [LE R] [DecidableLE R] [NatCast R] in
theorem nbResume_written {c new : NBodyState R} (forwardTime : R) {previous file : Bytes}
    {tailAt : ℕ} (fits : Fits L ctx c)
    (best : c.bestLikelihoodBodyTab.length = c.bodytab.length) (fresh : Fresh new)
    (usesCL : new.usesCL = c.usesCL) (storable : Storable W.B c)
    (written : nbWriteCheckpoint L ctx c previous = some (file, tailAt)) :
    nbResume W.B L new forwardTime file = some (ctx, resumed ctx forwardTime new c) := by
  obtain ⟨-, read⟩ := storable.thaws fits best fresh usesCL written
  rw [nbResume, read, Option.bind_eq_bind, Option.bind_some]
  rfl

theorem nbRunUpTo_cases {n : ℕ} {st : NBodyState R} {p : BitVec 32 × NBodyState R}
    (stopped : nbRunUpTo W S ctx nbf n st = some p) :
    ∃ rc start, nbRunStart W S ctx st = some (rc, start) ∧ nbStatusIsFatal rc.bits = false ∧
      (nbRunTurn W S ctx nbf).after n (rc.bits, start) = some p := by
  rw [nbRunUpTo, Option.bind_eq_bind, Option.bind_eq_some_iff] at stopped
  obtain ⟨⟨rc, start⟩, begins, run⟩ := stopped
  dsimp only at run
  split at run
  · cases run
  · rename_i notFatal
    exact ⟨rc, start, begins, Bool.eq_false_of_not_eq_true notFatal, run⟩

theorem nbRunSystemPlain_loop {st start : NBodyState R} {rc : NBodyStatus}
    (begins : nbRunStart W S ctx st = some (rc, start))
    (notFatal : nbStatusIsFatal rc.bits = false) :
    nbRunSystemPlain W S ctx nbf st =
      (nbRunTurn W S ctx nbf).run (ctx.nStep - start.step + 1) (rc.bits, start) := by
  rw [nbRunSystemPlain, begins, Option.bind_eq_bind, Option.bind_some]
  dsimp only
  rw [notFatal, if_neg Bool.false_ne_true]

/-- Where no force depends on the time, a run that is stopped at a checkpoint and resumed
from it ends with the bodies of the run that is not. -/
theorem nbRunSystemPlain_resume (doubling : ∀ r : R, 0 < r → 0 < r * 2.0) (W : World R I H)
    (L : Layout R) (S S' : Session R) (ctx : NBodyCtx R) (nbf : NBodyFlags)
    (st new c fin : NBodyState R) (time time' : R) (rc rck : BitVec 32) (n tailAt : ℕ)
    (previous file : Bytes) (best : st.bestLikelihoodBodyTab.length = st.bodytab.length)
    (fresh : Fresh new) (noError : new.potentialEvalError = false)
    (usesCL : new.usesCL = st.usesCL)
    (whole : nbRunSystemPlain W S ctx nbf (nbSetForRun ctx time st) = some (rc, fin))
    (stopped : nbRunUpTo W S ctx nbf (n + 1) (nbSetForRun ctx time st) = some (rck, c))
    (written : nbWriteCheckpoint L ctx c previous = some (file, tailAt))
    (fits : Fits L ctx c) (storable : Storable W.B c) (writes : ∀ k, S'.fails k = S.fails k)
    (rests : ForceRests ctx)
    (clock : ctx.LMC = true → ctx.pot.disk2.type ≠ .orbitingBar ∨ time' = time) :
    ∃ again rc' fin', nbResume W.B L new time' file = some (ctx, again) ∧
      nbRunSystemPlain W S' ctx nbf again = some (rc', fin') ∧ fin'.bodytab = fin.bodytab := by
  obtain ⟨rc₀, start, begins, notFatal, upTo⟩ := nbRunUpTo_cases stopped
  have first : Carried W ctx (nbSetForRun ctx time st) start := .start best begins notFatal
  obtain ⟨carried, going, shifted⟩ := Carried.after (p := (rc₀.bits, start)) first upTo
  rw [nbRunSystemPlain_loop begins notFatal] at whole
  have rest := Turn.run_of_reaches (Turn.reaches_of_after upTo) whole
  obtain ⟨rc₁, begins', notFatal', same⟩ :=
    carried.resume new doubling S' shifted noError rests clock
  have read := nbResume_written time' fits carried.best fresh
    (usesCL.trans carried.usesCL.symm) storable written
  have loops : SameLoop ctx (rck, c) (rc₁.bits, resumedStart ctx time' new c) :=
    ⟨notFatal'.trans going.symm, same⟩
  obtain ⟨⟨rc', fin'⟩, ends, result⟩ := Turn.run_related (SameLoop ctx) (SameResult ctx)
    (fun _ _ _ same run => same.turn rests writes run) loops rest
  refine ⟨_, rc', fin', read, ?_, result.bodytab⟩
  rw [nbRunSystemPlain_loop begins' notFatal']
  exact nbRunTurn_enough ends

end

/-! ## Runs of a few bodies -/

def Small (c : NBodyState R) : Prop :=
  0 < c.bodytab.length ∧ c.bodytab.length ≤ 2 ∧
    c.bestLikelihoodBodyTab.length = c.bodytab.length ∧ c.orbitTrace = none ∧
    c.shiftByLMC = none ∧ c.usesCL = false

instance (c : NBodyState R) : Decidable (Small c) := by
  unfold Small
  infer_instance

omit [Zero R] [Add R] [Neg R] [Sub R] [Mul R] [Div R] [OfScientific R] [BEq R] [LT R]
  [DecidableLT R] [LE R] [DecidableLE R] [NatCast R] in
theorem Small.storable {B : Build R} {c : NBodyState R} (small : Small c) : Storable B c := by
  obtain ⟨some_, few, -, trace, shift, -⟩ := small
  refine ⟨Nat.lt_of_le_of_lt few (by norm_num), ?_, ?_, ?_, .inr some_⟩
  · rw [trace]
    exact Nat.two_pow_pos 32
  · rw [shift]
    exact Nat.two_pow_pos 32
  · rw [shift]
    exact nofun

/-- The ends of a run and of the one that is resumed after `n` steps, and the state that
is stored there. -/
def bothEnds (W : World R I H) (ctx : NBodyCtx R) (time : R) (st : NBodyState R) (n : ℕ) :
    Option (NBodyState R × NBodyState R × NBodyState R) := do
  let (_, fin) ← nbRunSystemPlain W quietSession ctx histogramFlags (nbSetForRun ctx time st)
  let (_, c) ← nbRunUpTo W quietSession ctx histogramFlags n (nbSetForRun ctx time st)
  let (_, fin') ← nbRunSystemPlain W quietSession ctx histogramFlags
    (resumed ctx time (quietState []) c)
  return (fin, fin', c)

omit [Add R] [Neg R] [Sub R] [Mul R] [Div R] [BEq R] [LT R] [DecidableLT R] [LE R]
  [DecidableLE R] [NatCast R] in
theorem quietState_fresh : Fresh (quietState [] : NBodyState R) := ⟨rfl, rfl, rfl, rfl⟩

theorem exists_bothEnds [DecidableEq R] {W : World R I H} {ctx : NBodyCtx R} {time : R}
    {st : NBodyState R} {n : ℕ} {P : NBodyState R → NBodyState R → Prop}
    [∀ fin fin', Decidable (P fin fin')] (ends : (bothEnds W ctx time st n).map (fun p =>
      decide (P p.1 p.2.1 ∧ Small p.2.2)) = some true) :
    ∃ file again rc rck rc' c fin fin',
      nbRunSystemPlain W quietSession ctx histogramFlags (nbSetForRun ctx time st) =
        some (rc, fin) ∧
      nbRunUpTo W quietSession ctx histogramFlags n (nbSetForRun ctx time st) = some (rck, c) ∧
      (nbWriteCheckpoint (layoutOf ctx c) ctx c []).map Prod.fst = some file ∧
      nbResume W.B (layoutOf ctx c) (quietState []) time file = some (ctx, again) ∧
      nbRunSystemPlain W quietSession ctx histogramFlags again = some (rc', fin') ∧
      P fin fin' := by
  obtain ⟨⟨_, _, _⟩, ends, both⟩ := Option.map_eq_some_iff.mp ends
  obtain ⟨differ, small⟩ := of_decide_eq_true both
  simp only [bothEnds, Option.bind_eq_bind, Option.bind_eq_some_iff, Option.pure_def,
    Option.some.injEq, Prod.mk.injEq, Prod.exists] at ends
  obtain ⟨rc, fin, whole, rck, c, stopped, rc', fin', run, rfl, rfl, rfl⟩ := ends
  obtain ⟨file, tailAt, written⟩ :=
    Storable.writes (layoutOf ctx c) ctx [] small.2.2.1 (small.storable (B := W.B))
  have read := nbResume_written (W := W) time (layoutOf_fits ctx c) small.2.2.1 quietState_fresh
    small.2.2.2.2.2.symm small.storable written
  exact ⟨file, _, rc, rck, rc', c, fin, fin', whole, stopped, by rw [written]; rfl, read, run,
    differ⟩

/-- Two bodies that fall towards each other. -/
def pairState : NBodyState ℚ :=
  quietState [{ pos := 0, mass := 1, vel := 0 }, { pos := ⟨2, 2, 0⟩, mass := 1, id := 1, vel := 0 }]

def pairWorld : World ℚ Unit Unit := { quietWorld ratSqrt fun _ => 1 with B := rowBuild, fuel := 9 }

theorem nbRunSystemPlain_resume_pair :
    ∃ file again rc rc' c fin fin', nbRunSystemPlain pairWorld quietSession rowCtx histogramFlags
        (nbSetForRun rowCtx 4 pairState) = some (rc, fin) ∧
      (nbWriteCheckpoint (layoutOf rowCtx c) rowCtx c []).map Prod.fst = some file ∧
      nbResume rowBuild (layoutOf rowCtx c) (quietState []) 4 file = some (rowCtx, again) ∧
      nbRunSystemPlain pairWorld quietSession rowCtx histogramFlags again = some (rc', fin') ∧
      fin'.bodytab = fin.bodytab := by
  have completes : (nbRunSystemPlain pairWorld quietSession rowCtx histogramFlags
      (nbSetForRun rowCtx 4 pairState)).isSome = true := by decide +kernel
  have stops : (nbRunUpTo pairWorld quietSession rowCtx histogramFlags 2
      (nbSetForRun rowCtx 4 pairState)).map (fun p => decide (Small p.2)) = some true := by
    decide +kernel
  obtain ⟨⟨rc, fin⟩, whole⟩ := Option.isSome_iff_exists.mp completes
  obtain ⟨⟨rck, c⟩, stopped, small⟩ := Option.map_eq_some_iff.mp stops
  have small : Small c := of_decide_eq_true small
  obtain ⟨file, tailAt, written⟩ :=
    Storable.writes (layoutOf rowCtx c) rowCtx [] small.2.2.1 (small.storable (B := rowBuild))
  obtain ⟨again, rc', fin', read, run, same⟩ := nbRunSystemPlain_resume
    (fun r (h : 0 < r) => mul_pos h (by norm_num)) pairWorld (layoutOf rowCtx c) quietSession
    quietSession rowCtx histogramFlags pairState (quietState []) c fin 4 4 rc rck 1 tailAt [] file
    rfl quietState_fresh rfl rfl whole stopped written (layoutOf_fits rowCtx c) small.storable
    (fun _ => rfl) (.inl nofun) nofun
  exact ⟨file, again, rc, rc', c, fin, fin', whole, by rw [written]; rfl, read, run, same⟩

def barLibm : Libm ℚ where
  sqrt := ratSqrt
  exp x := 1 + x + x * x / 2
  atan x := x - x * x * x / 3
  cos x := 1 - x * x / 2
  sin x := x - x * x * x / 6
  erf x := x - x * x * x / 3
  pow x y := x ^ y.num

/-- A bar that turns by an eighth of a radian in a step. -/
def barCtx : NBodyCtx ℚ := { rowCtx with
  criterion := .exact
  potentialType := .default
  nStep := 2
  timeEvolve := 2
  pot := { noPotential with disk2 := ⟨.orbitingBar, 4, 2, 0, 1 / 8, 0⟩ } }

def barWorld : World ℚ Unit Unit :=
  { quietWorld ratSqrt fun _ => 1 with B := rowBuild, L := barLibm }

def barState : NBodyState ℚ := quietState [{ pos := ⟨3, 1, 1⟩, mass := 1, vel := 0 }]

/-- A body in the field of a turning bar ends elsewhere after the run is resumed. -/
theorem nbRunSystemPlain_resume_bar :
    ∃ file again rc rck rc' c fin fin', nbRunSystemPlain barWorld quietSession barCtx histogramFlags
        (nbSetForRun barCtx 2 barState) = some (rc, fin) ∧
      nbRunUpTo barWorld quietSession barCtx histogramFlags 1 (nbSetForRun barCtx 2 barState) =
        some (rck, c) ∧
      (nbWriteCheckpoint (layoutOf barCtx c) barCtx c []).map Prod.fst = some file ∧
      nbResume rowBuild (layoutOf barCtx c) (quietState []) 2 file = some (barCtx, again) ∧
      nbRunSystemPlain barWorld quietSession barCtx histogramFlags again = some (rc', fin') ∧
      fin'.bodytab ≠ fin.bodytab :=
  exists_bothEnds (W := barWorld) (P := fun fin fin' => fin'.bodytab ≠ fin.bodytab)
    (by decide +kernel)

end MilkyWay.NBody
