import MilkyWay.NBody.Resume
import MilkyWay.NBody.SatelliteCL

/-! The loop on the graphics processor with its checkpoints. A checkpoint holds the bodies
after a step that its counter has not counted, so that a run which is resumed from it
takes the step again: `nbRunSessionsCL_iff` counts the steps of all sessions. -/

namespace MilkyWay.NBody

open Foundation

variable {R I H : Type} [Field R] [LinearOrder R]

def nbLoopStepCL (W : World R I H) (K : Kernels R) (ctx : NBodyCtx R) (d : StateCL R) :
    Option (StateCL R) :=
  if ctx.LMC then do
    let (acc_i, acc_i1) ← shiftAt ctx d.st
    nbStepSystemCL_LMC W K ctx d acc_i acc_i1
  else some (nbStepSystemCL K ctx d)

/-- The bodies are copied back for the file. -/
def nbCheckpointCL (S : Session R) (d : StateCL R) : NBodyStatus × StateCL R :=
  match S.checkpoint d.st.step with
  | .notYet => (.success, d)
  | .due now written =>
      let d := nbMarshalBodies d
      (if written then .success else .checkpointError,
        { d with st := { d.st with lastCheckpoint := now } })

def nbMainTurnCL (W : World R I H) (K : Kernels R) (S : Session R) (ctx : NBodyCtx R) :
    Turn (StateCL R × ℕ) (NBodyStatus × StateCL R × ℕ) := fun (d, taken) =>
  if d.st.step < ctx.nStep then do
    let d ← nbLoopStepCL W K ctx d
    let (rc, d) := nbCheckpointCL S d
    return if nbStatusIsFatal rc.bits then .inr (rc, d, taken + 1)
      else .inl ({ d with st := { d.st with step := d.st.step + 1 } }, taken + 1)
  else some (.inr (.success, d, taken))

def nbMainStartCL (K : Kernels R) (S : Session R) (ctx : NBodyCtx R) (st : NBodyState R) :
    StateCL R :=
  let d := nbInitCL st
  nbRunPreStep K ctx { d with st := fetchLMC S ctx d.st }

def nbRunSystemCL (W : World R I H) (K : Kernels R) (S : Session R) (ctx : NBodyCtx R)
    (st : NBodyState R) (taken : ℕ) : Option (NBodyStatus × NBodyState R × ℕ) := do
  let (rc, d, taken) ← (nbMainTurnCL W K S ctx).run (ctx.nStep - st.step + 1)
    (nbMainStartCL K S ctx st, taken)
  if nbStatusIsFatal rc.bits then return (rc, d.st, taken)
  return (nbWriteFinalCheckpoint S, (nbMarshalBodies d).st, taken)

def nbCheckpointAtCL (W : World R I H) (K : Kernels R) (S : Session R) (ctx : NBodyCtx R)
    (turns : ℕ) (st : NBodyState R) (taken : ℕ) : Option (NBodyState R × ℕ) := do
  let (d, taken) ← (nbMainTurnCL W K S ctx).after turns (nbMainStartCL K S ctx st, taken)
  if d.st.step < ctx.nStep then
    let d ← nbLoopStepCL W K ctx d
    match S.checkpoint d.st.step with
    | .due _ true => return ((nbCheckpointCL S d).2.st, taken + 1)
    | _ => none
  else none

/-- A session that is interrupted after the checkpoint of its turn `turns`, and what its
file is read into. -/
structure Interruption (R : Type) where
  session : Session R
  turns : ℕ
  new : NBodyState R
  forwardTime : R

/-- The sessions of a run, each resumed from the file of the one before. -/
def nbRunSessionsCL (W : World R I H) (K : Kernels R) (ctx : NBodyCtx R) (last : Session R) :
    List (Interruption R) → NBodyState R → ℕ → Option (NBodyStatus × NBodyState R × ℕ)
  | [], st, taken => nbRunSystemCL W K last ctx st taken
  | i :: rest, st, taken => do
      let (c, taken) ← nbCheckpointAtCL W K i.session ctx i.turns st taken
      nbRunSessionsCL W K ctx last rest (resumed ctx i.forwardTime i.new c) taken

/-! ## The steps that are taken -/

section
variable {W : World R I H} {K : Kernels R} {S : Session R} {ctx : NBodyCtx R}

theorem nbStepSystemCL_LMC_step {d d' : StateCL R} {acc_i acc_i1 : Vec3 R}
    (run : nbStepSystemCL_LMC W K ctx d acc_i acc_i1 = some d') : d'.st.step = d.st.step := by
  rw [nbStepSystemCL_LMC_eq, Option.map_eq_some_iff] at run
  obtain ⟨p, -, rfl⟩ := run
  rfl

theorem nbLoopStepCL_step {d d' : StateCL R} (run : nbLoopStepCL W K ctx d = some d') :
    d'.st.step = d.st.step := by
  unfold nbLoopStepCL at run
  split at run
  · simp only [Option.bind_eq_bind, Option.bind_eq_some_iff, Prod.exists] at run
    obtain ⟨acc_i, acc_i1, -, run⟩ := run
    exact nbStepSystemCL_LMC_step run
  · cases run
    rfl

omit [Field R] [LinearOrder R] in
theorem nbMarshalBodies_step (d : StateCL R) : (nbMarshalBodies d).st.step = d.st.step := by
  unfold nbMarshalBodies
  split <;> rfl

omit [Field R] [LinearOrder R] in
theorem nbCheckpointCL_step (S : Session R) (d : StateCL R) :
    (nbCheckpointCL S d).2.st.step = d.st.step := by
  unfold nbCheckpointCL
  split
  · rfl
  · exact nbMarshalBodies_step d

theorem nbMainTurnCL_cases {d : StateCL R} {taken : ℕ}
    {x : (StateCL R × ℕ) ⊕ (NBodyStatus × StateCL R × ℕ)}
    (turn : nbMainTurnCL W K S ctx (d, taken) = some x) :
    (¬d.st.step < ctx.nStep ∧ x = .inr (.success, d, taken)) ∨
      d.st.step < ctx.nStep ∧ ∃ d' rc e, nbLoopStepCL W K ctx d = some d' ∧
        nbCheckpointCL S d' = (rc, e) ∧
        ((nbStatusIsFatal rc.bits = true ∧ x = .inr (rc, e, taken + 1)) ∨
          nbStatusIsFatal rc.bits = false ∧
            x = .inl ({ e with st := { e.st with step := e.st.step + 1 } }, taken + 1)) := by
  unfold nbMainTurnCL at turn
  by_cases more : d.st.step < ctx.nStep
  · simp only [more, if_true, Option.bind_eq_bind, Option.bind_eq_some_iff, Option.pure_def,
      Option.some.injEq] at turn
    obtain ⟨d', step, turn⟩ := turn
    refine .inr ⟨more, d', (nbCheckpointCL S d').1, (nbCheckpointCL S d').2, step, rfl, ?_⟩
    cases fatal : nbStatusIsFatal (nbCheckpointCL S d').1.bits with
    | true =>
        rw [fatal, if_pos rfl] at turn
        exact .inl ⟨rfl, turn.symm⟩
    | false =>
        rw [fatal, if_neg Bool.false_ne_true] at turn
        exact .inr ⟨rfl, turn.symm⟩
  · simp only [more, if_false, Option.some.injEq] at turn
    exact .inl ⟨more, turn.symm⟩

theorem nbMainTurnCL_step {p p' : StateCL R × ℕ} (next : (nbMainTurnCL W K S ctx).GoesOn p p') :
    p.1.st.step < ctx.nStep ∧ p'.1.st.step = p.1.st.step + 1 ∧ p'.2 = p.2 + 1 := by
  obtain ⟨-, ends⟩ | ⟨more, d', rc, e, step, made, ⟨-, ends⟩ | ⟨-, goesOn⟩⟩ :=
    nbMainTurnCL_cases next
  · cases ends
  · cases ends
  · cases goesOn
    have kept := nbCheckpointCL_step S d'
    rw [made, nbLoopStepCL_step step] at kept
    exact ⟨more, congrArg (· + 1) kept, rfl⟩

theorem nbMainTurnCL_after {d d' : StateCL R} {taken taken' m : ℕ}
    (turns : (nbMainTurnCL W K S ctx).after m (d, taken) = some (d', taken')) :
    d'.st.step = d.st.step + m ∧ taken' = taken + m := by
  induction m generalizing d' taken' with
  | zero =>
      cases turns
      exact ⟨rfl, rfl⟩
  | succ m ih =>
      obtain ⟨⟨e, t⟩, before, next⟩ := Turn.after_succ turns
      obtain ⟨step, count⟩ := ih before
      obtain ⟨-, step', count'⟩ := nbMainTurnCL_step next
      dsimp only at step' count'
      omega

theorem nbMainTurnCL_run {d d' : StateCL R} {taken taken' n : ℕ} {rc : NBodyStatus}
    (ends : (nbMainTurnCL W K S ctx).run n (d, taken) = some (rc, d', taken'))
    (calm : nbStatusIsFatal rc.bits = false) (le : d.st.step ≤ ctx.nStep) :
    taken' = taken + (ctx.nStep - d.st.step) := by
  induction n generalizing d taken with
  | zero => cases ends
  | succ n ih =>
      cases turn : nbMainTurnCL W K S ctx (d, taken) with
      | none =>
          rw [Turn.run, turn] at ends
          cases ends
      | some x =>
          cases x with
          | inl next =>
              obtain ⟨e, t⟩ := next
              obtain ⟨more, step, count⟩ := nbMainTurnCL_step turn
              dsimp only at more step count
              rw [Turn.run_goesOn turn] at ends
              have rest := ih ends (by omega)
              omega
          | inr result =>
              rw [Turn.run_ends turn, Option.some.injEq] at ends
              subst ends
              obtain ⟨all, ends⟩ | ⟨-, _, rc', _, -, -, ⟨fatal, ends⟩ | ⟨-, goesOn⟩⟩ :=
                nbMainTurnCL_cases turn
              · cases ends
                omega
              · cases ends
                exact absurd (fatal.symm.trans calm) Bool.true_eq_false_eq_False
              · cases goesOn

omit [Field R] [LinearOrder R] in
theorem fetchLMC_step (S : Session R) (ctx : NBodyCtx R) (st : NBodyState R) :
    (fetchLMC S ctx st).step = st.step := by
  unfold fetchLMC
  split <;> rfl

theorem nbRunSystemCL_taken {st fin : NBodyState R} {taken taken' : ℕ} {rc : NBodyStatus}
    (run : nbRunSystemCL W K S ctx st taken = some (rc, fin, taken'))
    (calm : nbStatusIsFatal rc.bits = false) (le : st.step ≤ ctx.nStep) :
    taken' = taken + (ctx.nStep - st.step) := by
  simp only [nbRunSystemCL, Option.bind_eq_bind, Option.bind_eq_some_iff, Prod.exists] at run
  obtain ⟨rc', d, t, loop, run⟩ := run
  have start : (nbMainStartCL K S ctx st).st.step = st.step :=
    fetchLMC_step S ctx { st with dirty := false }
  have goesOn : nbStatusIsFatal rc'.bits = false := by
    cases fatal : nbStatusIsFatal rc'.bits with
    | false => rfl
    | true =>
        rw [fatal, if_pos rfl] at run
        cases run
        exact fatal.symm.trans calm
  rw [goesOn] at run
  cases run
  rw [nbMainTurnCL_run loop goesOn (start.trans_le le), start]

theorem nbCheckpointAtCL_taken {st c : NBodyState R} {taken taken' m : ℕ}
    (run : nbCheckpointAtCL W K S ctx m st taken = some (c, taken')) :
    c.step = st.step + m ∧ c.step < ctx.nStep ∧ taken' = taken + m + 1 := by
  simp only [nbCheckpointAtCL, Option.bind_eq_bind, Option.bind_eq_some_iff, Prod.exists] at run
  obtain ⟨d, t, turns, run⟩ := run
  obtain ⟨step, count⟩ := nbMainTurnCL_after turns
  have start : (nbMainStartCL K S ctx st).st.step = st.step :=
    fetchLMC_step S ctx { st with dirty := false }
  split at run
  · rename_i more
    rw [Option.bind_eq_some_iff] at run
    obtain ⟨e, taken_, run⟩ := run
    have kept := nbLoopStepCL_step taken_
    split at run
    · cases run
      rw [nbCheckpointCL_step]
      omega
    · cases run
  · cases run

theorem nbRunSessionsCL_taken {ints : List (Interruption R)} {st fin : NBodyState R}
    {taken taken' : ℕ} {rc : NBodyStatus}
    (run : nbRunSessionsCL W K ctx S ints st taken = some (rc, fin, taken'))
    (calm : nbStatusIsFatal rc.bits = false) (le : st.step ≤ ctx.nStep) :
    taken' = taken + (ctx.nStep - st.step) + ints.length := by
  induction ints generalizing st taken with
  | nil => exact nbRunSystemCL_taken run calm le
  | cons i rest ih =>
      simp only [nbRunSessionsCL, Option.bind_eq_bind, Option.bind_eq_some_iff,
        Prod.exists] at run
      obtain ⟨c, t, checkpoint, run⟩ := run
      obtain ⟨step, more, count⟩ := nbCheckpointAtCL_taken checkpoint
      have resumedStep : (resumed ctx i.forwardTime i.new c).step = c.step := rfl
      have later := ih run (by omega)
      rw [List.length_cons]
      omega

end

/-! ## Checkpoints without an interruption -/

section
omit [LinearOrder R]

def Body.bare (b : Body R) : Body R := { b with pos := 0, vel := 0, mass := 0 }

def copied (bodytab : List (Body R)) (nbb : List (BodyCL R)) : List (Body R) :=
  List.zipWith (fun b c => { b with pos := c.pos, vel := c.vel, mass := c.mass }) bodytab nbb

theorem copied_bare (bodytab : List (Body R)) (nbb : List (BodyCL R)) :
    copied bodytab nbb = copied (bodytab.map Body.bare) nbb := by
  rw [copied, copied, List.zipWith_map_left]
  rfl

structure UpToDate (d : StateCL R) : Prop where
  length : d.nbb.length = d.st.bodytab.length
  clean : d.st.dirty = false → copied d.st.bodytab d.nbb = d.st.bodytab

omit [Field R] in
theorem UpToDate.readBack {d : StateCL R} (upToDate : UpToDate d) :
    readBack d = copied d.st.bodytab d.nbb := by
  unfold NBody.readBack nbMarshalBodies
  cases dirty : d.st.dirty with
  | true => rfl
  | false => exact (upToDate.clean dirty).symm

omit [Field R] in
theorem copied_copied (bodytab : List (Body R)) (nbb : List (BodyCL R)) :
    copied (copied bodytab nbb) nbb = copied bodytab nbb := by
  refine List.ext_getElem ?_ fun i lt lt' => ?_
  · simp only [copied, List.length_zipWith, min_assoc, min_self]
  · simp only [copied, List.getElem_zipWith]

theorem bare_copied {bodytab : List (Body R)} {nbb : List (BodyCL R)}
    (length : nbb.length = bodytab.length) :
    (copied bodytab nbb).map Body.bare = bodytab.map Body.bare := by
  refine List.ext_getElem ?_ fun i lt lt' => ?_
  · simp only [copied, List.length_map, List.length_zipWith, length, min_self]
  · simp only [copied, List.getElem_map, List.getElem_zipWith, Body.bare]

end

def withHost (d : StateCL R) (bodytab : List (Body R)) (dirty : Bool) (lastCheckpoint : ℤ) :
    StateCL R :=
  { d with st := { d.st with bodytab, dirty, lastCheckpoint } }

structure SameRunCL (d e : StateCL R) : Prop where
  host : e = withHost d e.st.bodytab e.st.dirty e.st.lastCheckpoint
  bare : e.st.bodytab.map Body.bare = d.st.bodytab.map Body.bare
  left : UpToDate d
  right : UpToDate e

section
variable {W : World R I H} {K : Kernels R} {S : Session R} {ctx : NBodyCtx R}

omit [LinearOrder R] in
theorem SameRunCL.readBack {d e : StateCL R} (same : SameRunCL d e) :
    NBody.readBack e = NBody.readBack d := by
  have nbb : e.nbb = d.nbb := by rw [same.host]; rfl
  rw [same.left.readBack, same.right.readBack, copied_bare, same.bare, nbb, ← copied_bare]

theorem nbLoopStepCL_withHost (d : StateCL R) (b : List (Body R)) (q : Bool) (l : ℤ) :
    nbLoopStepCL W K ctx (withHost d b q l) =
      (nbLoopStepCL W K ctx d).map fun d' => withHost d' b true l := by
  unfold nbLoopStepCL
  split
  · rw [show shiftAt ctx (withHost d b q l).st = shiftAt ctx d.st from rfl]
    cases shiftAt ctx d.st with
    | none => rfl
    | some shift =>
        show nbStepSystemCL_LMC W K ctx (withHost d b q l) shift.1 shift.2 =
          (nbStepSystemCL_LMC W K ctx d shift.1 shift.2).map _
        rw [nbStepSystemCL_LMC_eq, nbStepSystemCL_LMC_eq, Option.map_map]
        rfl
  · rfl

theorem nbLoopStepCL_frame {d d' : StateCL R} (run : nbLoopStepCL W K ctx d = some d') :
    d'.st.bodytab = d.st.bodytab ∧ d'.st.dirty = true ∧ d'.nbb.length = d.nbb.length := by
  have forces : ∀ args nbb, (forceCalculation K ctx args nbb).length = nbb.length := by
    intro args nbb
    rw [forceCalculation, List.length_map, List.length_zipIdx]
  have moves : ∀ args nbb, (integration ctx args nbb : List (BodyCL R)).length = nbb.length :=
    fun args nbb => List.length_map ..
  unfold nbLoopStepCL at run
  split at run
  · simp only [Option.bind_eq_bind, Option.bind_eq_some_iff, Prod.exists] at run
    obtain ⟨acc_i, acc_i1, -, run⟩ := run
    rw [nbStepSystemCL_LMC_eq, Option.map_eq_some_iff] at run
    obtain ⟨p, -, rfl⟩ := run
    refine ⟨rfl, rfl, ?_⟩
    show (integration ctx _ (forceCalculation K ctx _ (integration ctx _ d.nbb))).length = _
    rw [moves, forces, moves]
  · cases run
    refine ⟨rfl, rfl, ?_⟩
    show (integration ctx _ (forceCalculation K ctx _ d.nbb)).length = _
    rw [moves, forces]

theorem UpToDate.step {d d' : StateCL R} (upToDate : UpToDate d)
    (run : nbLoopStepCL W K ctx d = some d') : UpToDate d' := by
  obtain ⟨bodytab, dirty, length⟩ := nbLoopStepCL_frame run
  refine ⟨by rw [length, bodytab, upToDate.length], fun clean => ?_⟩
  exact absurd (clean.symm.trans dirty) Bool.false_ne_true

theorem SameRunCL.step {d e d' : StateCL R} (same : SameRunCL d e)
    (run : nbLoopStepCL W K ctx d = some d') :
    ∃ e', nbLoopStepCL W K ctx e = some e' ∧ SameRunCL d' e' := by
  have run' : nbLoopStepCL W K ctx e =
      some (withHost d' e.st.bodytab true e.st.lastCheckpoint) := by
    rw [same.host, nbLoopStepCL_withHost, run]
    rfl
  refine ⟨_, run', rfl, ?_, same.left.step run, same.right.step run'⟩
  rw [(nbLoopStepCL_frame run).1]
  exact same.bare

omit [LinearOrder R] in
theorem UpToDate.marshal {d : StateCL R} (upToDate : UpToDate d) (now : ℤ) :
    let c := nbMarshalBodies d
    let e := { c with st := { c.st with lastCheckpoint := now } }
    UpToDate e ∧ e.st.bodytab.map Body.bare = d.st.bodytab.map Body.bare ∧
      e = withHost d e.st.bodytab e.st.dirty now := by
  unfold nbMarshalBodies
  cases dirty : d.st.dirty with
  | true =>
      refine ⟨⟨?_, fun _ => copied_copied d.st.bodytab d.nbb⟩, bare_copied upToDate.length, rfl⟩
      show d.nbb.length = (copied d.st.bodytab d.nbb).length
      rw [copied, List.length_zipWith, upToDate.length, min_self]
  | false => exact ⟨⟨upToDate.length, fun _ => upToDate.clean dirty⟩, rfl, rfl⟩

omit [LinearOrder R] in
theorem SameRunCL.checkpoint {d e : StateCL R} (same : SameRunCL d e) (S : Session R) :
    SameRunCL (nbCheckpointCL S d).2 e := by
  unfold nbCheckpointCL
  cases S.checkpoint d.st.step with
  | notYet => exact same
  | due now written =>
      obtain ⟨upToDate, bare, host⟩ := same.left.marshal now
      refine ⟨?_, same.bare.trans bare.symm, upToDate, same.right⟩
      dsimp only at host ⊢
      rw [host]
      exact same.host

omit [LinearOrder R] in
theorem SameRunCL.count {d e : StateCL R} (same : SameRunCL d e) :
    SameRunCL { d with st := { d.st with step := d.st.step + 1 } }
      { e with st := { e.st with step := e.st.step + 1 } } := by
  refine ⟨?_, same.bare, ⟨same.left.length, same.left.clean⟩,
    ⟨same.right.length, same.right.clean⟩⟩
  have host := same.host
  generalize e.st.bodytab = b at host ⊢
  generalize e.st.dirty = q at host ⊢
  generalize e.st.lastCheckpoint = l at host ⊢
  rw [host]
  rfl

/-- The session without its checkpoints. -/
def withoutCheckpoints (S : Session R) : Session R := { S with checkpoint := fun _ => .notYet }

theorem SameRunCL.run {d e d' : StateCL R} {taken taken' n : ℕ} {rc : NBodyStatus}
    (same : SameRunCL d e)
    (ends : (nbMainTurnCL W K S ctx).run n (d, taken) = some (rc, d', taken'))
    (calm : nbStatusIsFatal rc.bits = false) :
    ∃ e', (nbMainTurnCL W K (withoutCheckpoints S) ctx).run n (e, taken) =
      some (.success, e', taken') ∧ SameRunCL d' e' := by
  induction n generalizing d e taken with
  | zero => cases ends
  | succ n ih =>
      have step_e : e.st.step = d.st.step := by rw [same.host]; rfl
      cases turn : nbMainTurnCL W K S ctx (d, taken) with
      | none =>
          rw [Turn.run, turn] at ends
          cases ends
      | some x =>
          obtain ⟨all, rfl⟩ | ⟨more, t, rc', c, step, made, ⟨fatal, rfl⟩ | ⟨-, rfl⟩⟩ :=
            nbMainTurnCL_cases turn
          · rw [Turn.run_ends turn] at ends
            cases ends
            refine ⟨e, Turn.run_ends ?_ n, same⟩
            rw [nbMainTurnCL, step_e, if_neg all]
          · rw [Turn.run_ends turn] at ends
            cases ends
            exact absurd (fatal.symm.trans calm) Bool.true_eq_false_eq_False
          · rw [Turn.run_goesOn turn] at ends
            obtain ⟨t', step', same'⟩ := same.step step
            have checked := same'.checkpoint S
            rw [made] at checked
            have goesOn : (nbMainTurnCL W K (withoutCheckpoints S) ctx).GoesOn (e, taken)
                ({ t' with st := { t'.st with step := t'.st.step + 1 } }, taken + 1) := by
              have none_ : nbCheckpointCL (withoutCheckpoints S) t' = (.success, t') := rfl
              have fine : nbStatusIsFatal NBodyStatus.success.bits = false := rfl
              simp only [Turn.GoesOn, nbMainTurnCL, step_e, if_pos more, step', none_, fine,
                Option.bind_eq_bind, Option.bind_some, Bool.false_eq_true, if_false,
                Option.pure_def]
            rw [Turn.run_goesOn goesOn]
            exact ih checked.count ends

theorem upToDate_nbMainStartCL (K : Kernels R) (S : Session R) (ctx : NBodyCtx R)
    (st : NBodyState R) : UpToDate (nbMainStartCL K S ctx st) := by
  have bodytab : (nbMainStartCL K S ctx st).st.bodytab = st.bodytab := by
    show (fetchLMC S ctx { st with dirty := false }).bodytab = st.bodytab
    unfold fetchLMC
    split <;> rfl
  have nbb : ∀ i : ℕ, ((nbMainStartCL K S ctx st).nbb[i]?.map fun c : BodyCL R =>
      (c.pos, c.vel, c.mass)) = st.bodytab[i]?.map fun b => (b.pos, b.vel, b.mass) := by
    intro i
    show (forceCalculation K ctx _ (nbMarshalIn st.bodytab))[i]?.map _ = _
    rw [getElem?_forceCalculation, nbMarshalIn, List.getElem?_map, Option.map_map, Option.map_map]
    simp only [Function.comp_def, forceBody, Bool.and_false, Bool.false_eq_true, if_false]
  refine ⟨?_, fun _ => ?_⟩
  · rw [bodytab]
    show (forceCalculation K ctx _ (nbMarshalIn st.bodytab)).length = _
    rw [forceCalculation, List.length_map, List.length_zipIdx, nbMarshalIn, List.length_map]
  · rw [bodytab]
    refine List.ext_getElem? fun i => ?_
    have here := nbb i
    rw [copied, List.getElem?_zipWith]
    cases body : st.bodytab[i]? with
    | none => rfl
    | some b =>
        cases buffer : (nbMainStartCL K S ctx st).nbb[i]? with
        | none =>
            rw [body, buffer] at here
            cases here
        | some c =>
            rw [body, buffer, Option.map_some, Option.map_some, Option.some.injEq,
              Prod.mk.injEq, Prod.mk.injEq] at here
            obtain ⟨pos, vel, mass⟩ := here
            simp only [pos, vel, mass]

/-- Checkpoints that no session is resumed from do not matter. -/
theorem nbRunSystemCL_checkpoints {st fin : NBodyState R} {taken taken' : ℕ} {rc : NBodyStatus}
    (run : nbRunSystemCL W K S ctx st taken = some (rc, fin, taken'))
    (calm : nbStatusIsFatal rc.bits = false) :
    ∃ fin', nbRunSystemCL W K (withoutCheckpoints S) ctx st taken = some (rc, fin', taken') ∧
      fin'.bodytab = fin.bodytab := by
  simp only [nbRunSystemCL, Option.bind_eq_bind, Option.bind_eq_some_iff, Prod.exists] at run
  obtain ⟨rc', d, t, loop, run⟩ := run
  have goesOn : nbStatusIsFatal rc'.bits = false := by
    cases fatal : nbStatusIsFatal rc'.bits with
    | false => rfl
    | true =>
        rw [fatal, if_pos rfl] at run
        cases run
        exact fatal.symm.trans calm
  rw [goesOn] at run
  cases run
  have upToDate := upToDate_nbMainStartCL K S ctx st
  obtain ⟨e, loop', same⟩ := SameRunCL.run ⟨rfl, rfl, upToDate, upToDate⟩ loop goesOn
  have fine : nbStatusIsFatal NBodyStatus.success.bits = false := rfl
  refine ⟨(nbMarshalBodies e).st, ?_, same.readBack⟩
  rw [nbRunSystemCL, show nbMainStartCL K (withoutCheckpoints S) ctx st =
    nbMainStartCL K S ctx st from rfl, loop']
  simp only [Option.bind_eq_bind, Option.bind_some, fine, Bool.false_eq_true, if_false,
    Option.pure_def]
  rfl

/-- A run with interruptions takes one step more for each of them, so that it is the
uninterrupted run only where there are none. -/
theorem nbRunSessionsCL_iff {ints : List (Interruption R)} {st fin fin₀ : NBodyState R}
    {taken taken₀ : ℕ} {rc rc₀ : NBodyStatus} (fresh : st.step = 0)
    (run : nbRunSessionsCL W K ctx S ints st 0 = some (rc, fin, taken))
    (calm : nbStatusIsFatal rc.bits = false)
    (whole : nbRunSystemCL W K (withoutCheckpoints S) ctx st 0 = some (rc₀, fin₀, taken₀)) :
    taken = ctx.nStep + ints.length ∧
      (taken = ctx.nStep ∧ fin.bodytab = fin₀.bodytab ↔ ints = []) := by
  have count := nbRunSessionsCL_taken run calm (by omega)
  rw [fresh, Nat.zero_add, Nat.sub_zero] at count
  refine ⟨count, ?_⟩
  constructor
  · rintro ⟨exact_, -⟩
    exact List.length_eq_zero_iff.mp (by omega)
  · rintro rfl
    obtain ⟨fin', run', same⟩ := nbRunSystemCL_checkpoints run calm
    rw [whole] at run'
    cases run'
    exact ⟨count, same.symm⟩

end

/-! ## One interruption -/

/-- A session that is interrupted after its first step. -/
def firstStep : Interruption ℚ where
  session := ⟨fun _ => .due 1 true, true, none, (0, 0)⟩
  turns := 0
  new := quietState []
  forwardTime := 0

/-- Two bodies fall for three steps instead of two. -/
theorem nbRunSessionsCL_ne_falling :
    ∃ rc fin taken rc₀ fin₀ taken₀, nbRunSessionsCL fallingWorld fallingKernels (quietCtx 2)
        quietSession [firstStep] fallingState 0 = some (rc, fin, taken) ∧
      nbRunSystemCL fallingWorld fallingKernels (withoutCheckpoints quietSession) (quietCtx 2)
        fallingState 0 = some (rc₀, fin₀, taken₀) ∧
      rc = .success ∧ taken ≠ (quietCtx 2 : NBodyCtx ℚ).nStep ∧
      fin.bodytab.map Body.pos ≠ fin₀.bodytab.map Body.pos := by
  have differ : ((nbRunSessionsCL fallingWorld fallingKernels (quietCtx 2) quietSession
      [firstStep] fallingState 0).bind fun r =>
        (nbRunSystemCL fallingWorld fallingKernels (withoutCheckpoints quietSession)
          (quietCtx 2) fallingState 0).map fun r₀ =>
            decide (r.1 = .success ∧ r.2.2 ≠ (quietCtx 2 : NBodyCtx ℚ).nStep ∧
              r.2.1.bodytab.map Body.pos ≠ r₀.2.1.bodytab.map Body.pos)) = some true := by
    decide +kernel
  obtain ⟨⟨rc, fin, taken⟩, run, differ⟩ := Option.bind_eq_some_iff.mp differ
  obtain ⟨⟨rc₀, fin₀, taken₀⟩, whole, differ⟩ := Option.map_eq_some_iff.mp differ
  exact ⟨rc, fin, taken, rc₀, fin₀, taken₀, run, whole, of_decide_eq_true differ⟩

theorem nbRunSessionsCL_iff_falling :
    ∃ rc fin taken rc₀ fin₀ taken₀, nbRunSessionsCL fallingWorld fallingKernels (quietCtx 2)
        quietSession [firstStep] fallingState 0 = some (rc, fin, taken) ∧
      nbRunSystemCL fallingWorld fallingKernels (withoutCheckpoints quietSession) (quietCtx 2)
        fallingState 0 = some (rc₀, fin₀, taken₀) ∧
      taken = (quietCtx 2 : NBodyCtx ℚ).nStep + [firstStep].length ∧
      (taken = (quietCtx 2 : NBodyCtx ℚ).nStep ∧ fin.bodytab = fin₀.bodytab ↔
        [firstStep] = []) := by
  have completes : ((nbRunSessionsCL fallingWorld fallingKernels (quietCtx 2) quietSession
      [firstStep] fallingState 0).bind fun r =>
        (nbRunSystemCL fallingWorld fallingKernels (withoutCheckpoints quietSession)
          (quietCtx 2) fallingState 0).map fun _ => r.1) = some .success := by
    decide +kernel
  obtain ⟨⟨rc, fin, taken⟩, run, completes⟩ := Option.bind_eq_some_iff.mp completes
  obtain ⟨⟨rc₀, fin₀, taken₀⟩, whole, rfl⟩ := Option.map_eq_some_iff.mp completes
  exact ⟨.success, fin, taken, rc₀, fin₀, taken₀, run, whole,
    nbRunSessionsCL_iff rfl run rfl whole⟩

end MilkyWay.NBody
