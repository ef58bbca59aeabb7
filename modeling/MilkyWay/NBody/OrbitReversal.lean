import MilkyWay.Foundation.Leapfrog
import MilkyWay.NBody.BestLikelihood
import MilkyWay.NBody.ReverseOrbit

/-! The orbits back against the steps forwards. A body alone in a potential that rests
is followed back by a leapfrog, which undoes itself, but for one step more than fits.
The satellite is followed back by a leapfrog and forwards by a step that drifts before
it is kicked. -/

namespace MilkyWay.NBody

open Foundation Foundation.Leapfrog

structure OrbitBody (R : Type) where
  x : Vec3 R
  v : Vec3 R
  acc : Vec3 R

section
variable {R : Type} [Field R] [LinearOrder R] [IsStrictOrderedRing R]
variable (L : Libm R) (K : Components R)

def nbReverseOrbitTurn (pot : Potential R) (dt t : R) (o : OrbitBody R) : Option (OrbitBody R) := do
  let dt_half := dt / 2.0
  let v := o.v + dt_half • o.acc
  let x := o.x + dt • v
  let acc ← nbExtAcceleration L K pot x t
  return ⟨x, v + dt_half • acc, acc⟩

/-- The orbit back from today for a time `tstop`. -/
def nbReverseOrbit [FloorRing R] (pot : Potential R) (pos vel : Vec3 R) (tstop dt : R) :
    Except Fault (Vec3 R × Vec3 R) := do
  let acc ← Fault.ofOption (nbExtAcceleration L K pot pos 0)
  let o ← timeLoopDown (tstop * -1) dt
    (fun t o => Fault.ofOption (nbReverseOrbitTurn L K pot dt t o))
    (⌊tstop / dt⌋₊ + 2) 0 ⟨pos, -vel, acc⟩
  return (o.x, -o.v)

/-- The turns of that loop, counted. -/
def reverseOrbitTurns [FloorRing R] (tstop dt : R) : Except Fault ℕ :=
  timeLoopDown (tstop * -1) dt (fun _ n => .ok (n + 1)) (⌊tstop / dt⌋₊ + 2) 0 0

/-! ## Bodies that only the potential moves -/

def testForces (ctx : NBodyCtx R) (st : NBodyState R) : Option (NBodyState R) :=
  (st.bodytab.mapM fun b => nbExtAcceleration L K ctx.pot b.pos (barTime ctx st)).map
    fun acctab => { st with acctab := acctab }

def testStep (ctx : NBodyCtx R) (st : NBodyState R) : Option (NBodyState R) := do
  let st ← testForces L K ctx (advancePosVel st ctx.timestep 0)
  let st := advanceVelocities st ctx.timestep 0
  return { st with step := st.step + 1 }

/-- A run of some steps; the first accelerations are computed before it. -/
def testRun (ctx : NBodyCtx R) (n : ℕ) (st : NBodyState R) : Option (NBodyState R) :=
  (testForces L K ctx st).bind (advance (fun _ => testStep L K ctx) n)

/-- A state with one body, at a position and with a velocity. -/
def launch (st : NBodyState R) (b : Body R) (pos vel : Vec3 R) : NBodyState R :=
  { st with bodytab := [{ b with pos := pos, vel := vel }] }

/-- The orbit back takes `n` steps, and as many forwards lead from its end to its start. -/
structure RetracedBy [FloorRing R] (ctx : NBodyCtx R) (pos vel : Vec3 R) (n : ℕ) : Prop where
  steps : reverseOrbitTurns (n * ctx.timestep) ctx.timestep = .ok n
  returns : ∃ pos' vel',
    nbReverseOrbit L K ctx.pot pos vel (n * ctx.timestep) ctx.timestep = .ok (pos', vel') ∧
      ∀ st b, ∃ s, testRun L K ctx n (launch st b pos' vel') = some s ∧
        s.bodytab = [{ b with pos := pos, vel := vel }]

/-- The acceleration is one function of the position. -/
def MovesBy (pot : Potential R) (F : Vec3 R → Vec3 R) : Prop :=
  ∀ pos time, nbExtAcceleration L K pot pos time = some (F pos)

variable {L K} {ctx : NBodyCtx R} {F : Vec3 R → Vec3 R}

omit [IsStrictOrderedRing R] in
/-- A potential without a bar that can be evaluated has one. -/
theorem movesBy_of_rests {pot : Potential R} (rests : pot.disk2.type ≠ .orbitingBar)
    (evaluated : ∀ pos, (nbExtAcceleration L K pot pos 0).isSome = true) :
    MovesBy L K pot fun pos => (nbExtAcceleration L K pot pos 0).get (evaluated pos) := by
  intro pos time
  rw [nbExtAcceleration_time rests pos time 0, Option.some_get]

def launched (F : Vec3 R → Vec3 R) (st : NBodyState R) (b : Body R) (p : Phase (Vec3 R)) :
    NBodyState R := { launch st b p.pos p.vel with acctab := [F p.pos] }

omit [IsStrictOrderedRing R] in
theorem testForces_launch (moves : MovesBy L K ctx.pot F) (st : NBodyState R) (b : Body R)
    (pos vel : Vec3 R) :
    testForces L K ctx (launch st b pos vel) = some (launched F st b ⟨pos, vel⟩) := by
  simp only [testForces, launch, List.mapM_cons, List.mapM_nil, moves pos]
  rfl

omit [LinearOrder R] [IsStrictOrderedRing R] in
theorem advancePosVel_launched [CharZero R] (F : Vec3 R → Vec3 R) (st : NBodyState R) (b : Body R)
    (p : Phase (Vec3 R)) (dt : R) : advancePosVel (launched F st b p) dt 0 =
      { launch st b (drift dt (F p.pos) p).pos (drift dt (F p.pos) p).vel with
        acctab := [F p.pos] } := by
  simp only [advancePosVel, launched, launch, List.zipWith_cons_cons, List.zipWith_nil_left,
    bodyAdvancePos, bodyAdvanceVel, half_mul, add_zero, drift]

theorem testStep_launched (moves : MovesBy L K ctx.pot F) (st : NBodyState R) (b : Body R)
    (p : Phase (Vec3 R)) : testStep L K ctx (launched F st b p) =
      some (launched F { st with step := st.step + 1 } b (leap ctx.timestep F p)) := by
  rw [testStep, advancePosVel_launched]
  simp only [testForces, launch, List.mapM_cons, List.mapM_nil, moves _, Option.bind_eq_bind,
    Option.bind_some, Option.pure_def, Option.map_some]
  simp only [advanceVelocities, List.zipWith_cons_cons, List.zipWith_nil_left, bodyAdvanceVel,
    half_mul, add_zero]
  rfl

theorem nbGravMap_launch {I H : Type} {W : World R I H} (moves : MovesBy W.L W.K ctx.pot F)
    (sums : ctx.criterion = .exact) (default_ : ctx.potentialType = .default)
    (alone : ctx.LMC = false) (st : NBodyState R) (b : Body R) (pos vel : Vec3 R)
    (acctab : List (Vec3 R)) :
    nbGravMap W ctx { launch st b pos vel with acctab := acctab } =
      some (forceStatus ctx st, launched F st b ⟨pos, vel⟩) := by
  have zero : (0.0 : R) = 0 := by norm_num
  simp only [nbGravMap, sums, ne_eq, not_true_eq_false, if_false, nbMapForceBody_Exact, mapForce,
    bodyForces, points, launch, List.map_cons, List.map_nil, List.zipIdx_cons, List.zipIdx_nil,
    List.mapM_cons, List.mapM_nil, nbGravity_Exact, treeState, List.length_cons, List.length_nil,
    List.range_one, List.foldl_cons, List.foldl_nil, sub_self, monopole, smul_zero,
    add_zero, addExternal, default_, moves _, lmc, alone, plummerAccel, zero, zero_div, zero_smul,
    Option.bind_eq_bind, Option.bind_some, Option.pure_def, Option.map_some, Bool.false_eq_true,
    List.any_cons, List.any_nil, Bool.or_false, zero_add]
  rfl

/-- A step of the system with a single body is that of a test body. -/
theorem nbStepSystemPlain_launched {I H : Type} {W : World R I H}
    (moves : MovesBy W.L W.K ctx.pot F) (sums : ctx.criterion = .exact)
    (default_ : ctx.potentialType = .default) (alone : ctx.LMC = false) (st : NBodyState R)
    (b : Body R) (p : Phase (Vec3 R)) :
    nbStepSystemPlain W ctx (launched F st b p) 0 0 =
      (testStep W.L W.K ctx (launched F st b p)).map fun s => (forceStatus ctx st, s) := by
  have forces := testForces_launch moves st b (drift ctx.timestep (F p.pos) p).pos
    (drift ctx.timestep (F p.pos) p).vel
  have forced := nbGravMap_launch moves sums default_ alone st b
    (drift ctx.timestep (F p.pos) p).pos (drift ctx.timestep (F p.pos) p).vel [F p.pos]
  simp only [nbStepSystemPlain, moveLMC, alone, Bool.false_eq_true, if_false,
    advancePosVel_launched, Option.bind_eq_bind, Option.bind_some, forced]
  rw [testStep_launched moves]
  simp only [advanceVelocities, launched, launch, List.zipWith_cons_cons, List.zipWith_nil_left,
    bodyAdvanceVel, half_mul, add_zero]
  rfl

theorem testRun_launch (moves : MovesBy L K ctx.pot F) (st : NBodyState R) (b : Body R)
    (p : Phase (Vec3 R)) (n : ℕ) : testRun L K ctx n (launch st b p.pos p.vel) =
      some (launched F { st with step := st.step + n } b ((leap ctx.timestep F)^[n] p)) := by
  rw [testRun, testForces_launch moves, Option.bind_some]
  induction n with
  | zero => rfl
  | succ n ih =>
      rw [advance_succ, ih, Option.bind_some, testStep_launched moves,
        Function.iterate_succ_apply']
      rfl

/-! ## The orbit back of a body -/

def OrbitBody.at (F : Vec3 R → Vec3 R) (p : Phase (Vec3 R)) : OrbitBody R :=
  ⟨p.pos, p.vel, F p.pos⟩

theorem nbReverseOrbitTurn_at {pot : Potential R} (moves : MovesBy L K pot F) (dt t : R)
    (p : Phase (Vec3 R)) :
    nbReverseOrbitTurn L K pot dt t (.at F p) = some (.at F (leap dt F p)) := by
  have half : dt / 2.0 = dt / 2 := by norm_num
  simp only [nbReverseOrbitTurn, OrbitBody.at, moves _ t, half, Option.bind_eq_bind,
    Option.bind_some]
  rfl

theorem reverseOrbit_fold {pot : Potential R} (moves : MovesBy L K pot F) (dt : R)
    (p : Phase (Vec3 R)) (n : ℕ) :
    (List.range n).foldlM (fun o (m : ℕ) =>
      Fault.ofOption (nbReverseOrbitTurn L K pot dt (-(m * dt)) o)) (.at F p) =
        .ok (.at F ((leap dt F)^[n] p)) := by
  induction n with
  | zero => rfl
  | succ n ih =>
      rw [List.range_succ, List.foldlM_append, ih, Function.iterate_succ_apply']
      simp only [ok_bind, List.foldlM_cons, List.foldlM_nil, nbReverseOrbitTurn_at moves,
        Fault.ofOption]
      rfl

variable [FloorRing R]

theorem nbReverseOrbit_eq {pot : Potential R} (moves : MovesBy L K pot F) {dt : R}
    (positive : 0 < dt) (p : Phase (Vec3 R)) (n : ℕ) :
    nbReverseOrbit L K pot p.pos p.vel (n * dt) dt =
      let q := ((leap dt F)^[n + 1] p.reverse).reverse
      .ok (q.pos, q.vel) := by
  have run := reverseOrbit_fold moves dt p.reverse (n + 1)
  rw [nbReverseOrbit, moves, floor_time positive]
  change (do
    let o ← timeLoopDown (n * dt * -1) dt _ (n + 2) 0 (OrbitBody.at F p.reverse)
    pure (o.x, -o.v)) = _
  rw [timeLoopDown_eq positive, run]
  rfl

theorem reverseOrbitTurns_eq {dt : R} (positive : 0 < dt) (n : ℕ) :
    reverseOrbitTurns (n * dt) dt = .ok (n + 1) := by
  have counted : ∀ m, (List.range m).foldlM (fun k (_ : ℕ) => (.ok (k + 1) : Except Fault ℕ)) 0 =
      .ok m := by
    intro m
    induction m with
    | zero => rfl
    | succ m ih =>
        rw [List.range_succ, List.foldlM_append, ih]
        rfl
  rw [reverseOrbitTurns, floor_time positive, timeLoopDown_eq positive]
  exact counted (n + 1)

/-- From the end of the orbit back a run of one step more leads to its start. -/
theorem testRun_reverse (moves : MovesBy L K ctx.pot F) (positive : 0 < ctx.timestep)
    (pos vel : Vec3 R) (n : ℕ) : ∃ pos' vel',
      nbReverseOrbit L K ctx.pot pos vel (n * ctx.timestep) ctx.timestep = .ok (pos', vel') ∧
        ∀ st b, ∃ s, testRun L K ctx (n + 1) (launch st b pos' vel') = some s ∧
          s.bodytab = [{ b with pos := pos, vel := vel }] := by
  refine ⟨_, _, nbReverseOrbit_eq moves positive ⟨pos, vel⟩ n, fun st b => ?_⟩
  refine ⟨_, testRun_launch moves st b _ (n + 1), ?_⟩
  have back := iterate_reverse ctx.timestep F (n + 1) (Phase.reverse ⟨pos, vel⟩)
  rw [reverse_reverse] at back
  simp only [launched, launch, back]

/-- The orbit back is never one of the steps that fit. Followed forwards for these the
body comes back only to a place where it rests. -/
theorem nbReverseOrbit_retraced (moves : MovesBy L K ctx.pot F) (positive : 0 < ctx.timestep)
    (pos vel : Vec3 R) (n : ℕ) :
    ¬RetracedBy L K ctx pos vel n ∧
      reverseOrbitTurns (n * ctx.timestep) ctx.timestep = .ok (n + 1) ∧
      ∃ pos' vel',
        nbReverseOrbit L K ctx.pot pos vel (n * ctx.timestep) ctx.timestep = .ok (pos', vel') ∧
          ∀ st b, ∃ s, testRun L K ctx n (launch st b pos' vel') = some s ∧
            (s.bodytab = [{ b with pos := pos, vel := vel }] ↔ vel = 0 ∧ F pos = 0) := by
  have turns := reverseOrbitTurns_eq positive n
  refine ⟨?_, turns, _, _, nbReverseOrbit_eq moves positive ⟨pos, vel⟩ n, fun st b => ?_⟩
  · intro retraced
    have same := retraced.steps
    rw [turns, Except.ok.injEq] at same
    omega
  · refine ⟨_, testRun_launch moves st b _ n, ?_⟩
    rw [← iterate_reverse_succ_iff positive.ne' n (p := ⟨pos, vel⟩), Phase.ext_iff]
    simp only [launched, launch, List.cons.injEq, and_true, Body.mk.injEq, true_and]

/-- Functions that are exact on squares and on whole exponents. -/
def rationalLibm : Libm ℚ := ⟨ratSqrt, id, id, id, id, id, fun x y => x ^ ⌊y⌋⟩

omit [IsStrictOrderedRing R] [FloorRing R] in
theorem quietCtx_moves (L : Libm R) (K : Components R) (n : ℕ) :
    MovesBy L K (quietCtx n : NBodyCtx R).pot fun _ => 0 := by
  intro pos time
  change some ((0 : Vec3 R) + 0 + 0 + 0) = some 0
  simp only [add_zero]

theorem nbReverseOrbit_retraced_still :
    (0 : ℚ) < (quietCtx 1 : NBodyCtx ℚ).timestep ∧ ¬RetracedBy rationalLibm
      (quietWorld ratSqrt fun _ => 0).K (quietCtx 1) 0 0 1 :=
  ⟨by decide +kernel,
    (nbReverseOrbit_retraced (quietCtx_moves _ _ 1) (by decide +kernel) 0 0 1).1⟩

/-- A body without forces is followed back for two steps where one was asked for. -/
theorem nbReverseOrbit_twoSteps :
    let ctx : NBodyCtx ℚ := quietCtx 1
    let K := (quietWorld ratSqrt fun _ => (0 : ℚ)).K
    reverseOrbitTurns (1 * ctx.timestep) ctx.timestep = .ok 2 ∧
      nbReverseOrbit rationalLibm K ctx.pot 0 ⟨1, 0, 0⟩ (1 * ctx.timestep) ctx.timestep =
        .ok (⟨-2, 0, 0⟩, ⟨1, 0, 0⟩) ∧
      (testRun rationalLibm K ctx 1
        (launch (quietState []) restingBody ⟨-2, 0, 0⟩ ⟨1, 0, 0⟩)).map NBodyState.bodytab =
          some [{ restingBody with pos := ⟨-1, 0, 0⟩, vel := ⟨1, 0, 0⟩ }] ∧
      ¬RetracedBy rationalLibm K ctx 0 ⟨1, 0, 0⟩ 1 := by
  have turns : reverseOrbitTurns (1 * (quietCtx 1 : NBodyCtx ℚ).timestep)
      (quietCtx 1 : NBodyCtx ℚ).timestep = .ok 2 := by decide +kernel
  refine ⟨turns, by decide +kernel, by decide +kernel, fun retraced => ?_⟩
  have same := retraced.steps
  rw [Nat.cast_one, turns] at same
  cases same

/-! ## The satellite -/

/-- The shift by the acceleration of the Milky Way towards the satellite at `x`. -/
def OrbitScene.shift (L : Libm R) (c : OrbitScene R) (x : Vec3 R) : Vec3 R :=
  -plummerAccel L 0 x c.LMCmass c.LMCscale

/-- The acceleration of the satellite at `x`, seen from the Milky Way. -/
def OrbitScene.satelliteField (L : Libm R) (c : OrbitScene R) (F : Vec3 R → Vec3 R) (x : Vec3 R) :
    Vec3 R := F x + c.shift L x

open Foundation.Numerals in
/-- Where the satellite is a step before. -/
def OrbitScene.steppedBack (L : Libm R) (c : OrbitScene R) (F : Vec3 R → Vec3 R) (dt : R) :
    Vec3 R :=
  c.LMCposition + dt • (-c.LMCvelocity + (dt / 2) • c.satelliteField L F c.LMCposition)

omit [IsStrictOrderedRing R] in
theorem satellite_backward {c : OrbitScene R} {dt : R} {o : Orbit R} (moves : MovesBy L K c.pot F)
    (noFriction : c.LMCDynaFric = false) (back : c.backward L K dt 1 = some o) :
    (⟨o.LMCx, o.LMCv⟩ : Phase (Vec3 R)) =
      leap dt (c.satelliteField L F) ⟨c.LMCposition, -c.LMCvelocity⟩ := by
  have half : dt / 2.0 = dt / 2 := by norm_num
  simp only [OrbitScene.backward, OrbitScene.back, OrbitScene.accelerate, OrbitScene.reverseAccel,
    noFriction, moves _, Option.bind_eq_bind, Option.bind_some, Bool.false_eq_true, if_false,
    Option.pure_def] at back
  rw [advance_succ, advance_zero, Option.bind_some] at back
  simp only [OrbitScene.turn, OrbitScene.accelerate, OrbitScene.reverseAccel, noFriction, moves _,
    Option.bind_eq_bind, Option.bind_some, Bool.false_eq_true, if_false, Option.pure_def,
    Option.some.injEq, half] at back
  rw [← back]
  rfl

omit [IsStrictOrderedRing R] in
theorem satellite_step {I H : Type} {W : World R I H} {st s : NBodyState R}
    {acc_i acc_i1 : Vec3 R} {rc : NBodyStatus} (moves : MovesBy W.L W.K ctx.pot F)
    (satellite : ctx.LMC = true) (noFriction : ctx.LMCDynaFric = false)
    (run : nbStepSystemPlain W ctx st acc_i acc_i1 = some (rc, s)) :
    s.LMCpos = st.LMCpos + ctx.timestep • st.LMCvel ∧
      s.LMCvel = st.LMCvel + (ctx.timestep / 2) • (F st.LMCpos + acc_i) +
        (ctx.timestep / 2) • (F s.LMCpos + acc_i1) := by
  have accel : ∀ pos vel bar, accelLMC W.L W.K ctx pos vel bar = some (F pos) := by
    intro pos vel bar
    simp only [accelLMC, moves pos, dynamicalFriction_LMC, noFriction, Bool.not_false, if_true,
      Option.bind_eq_bind, Option.bind_some, Option.pure_def, add_zero]
  obtain ⟨s₁, s₂, s₃, first, force, second, rfl⟩ := nbStepSystemPlain_cases run
  have frame := (nbGravMap_frame force).1
  obtain ⟨no, -⟩ | ⟨-, acc, before, rfl⟩ := moveLMC_cases first
  · exact absurd (satellite.symm.trans no) Bool.true_eq_false_eq_False
  obtain ⟨no, -⟩ | ⟨-, acc', after, rfl⟩ := moveLMC_cases second
  · exact absurd (satellite.symm.trans no) Bool.true_eq_false_eq_False
  rw [accel, Option.some.injEq] at before after
  subst before after
  rw [frame]
  simp only [advanceVelocities_LMC, advanceVelocities, withForces, advancePosVel_LMC,
    advancePosVel, half_mul, and_self]

omit [IsStrictOrderedRing R] in
/-- A step forwards undoes one back just where the satellite is stepped back to a place
without acceleration and the shifts are those of the Milky Way at both places. -/
theorem nbStepSystemPlain_retraces_iff {I H : Type} {W : World R I H} {c : OrbitScene R}
    {o : Orbit R} {st s : NBodyState R} {acc_i acc_i1 : Vec3 R} {rc : NBodyStatus}
    (moves : MovesBy W.L W.K ctx.pot F) (same : ctx.pot = c.pot) (satellite : ctx.LMC = true)
    (noFriction : ctx.LMCDynaFric = false) (noFriction' : c.LMCDynaFric = false)
    (back : c.backward W.L W.K ctx.timestep 1 = some o) (pos : st.LMCpos = o.LMCx)
    (vel : st.LMCvel = -o.LMCv)
    (run : nbStepSystemPlain W ctx st acc_i acc_i1 = some (rc, s)) :
    (s.LMCpos = c.LMCposition ∧ s.LMCvel = c.LMCvelocity) ↔ ctx.timestep = 0 ∨
      c.satelliteField W.L F (c.steppedBack W.L F ctx.timestep) = 0 ∧
        acc_i + acc_i1 = c.shift W.L c.LMCposition +
          c.shift W.L (c.steppedBack W.L F ctx.timestep) := by
  have leaps := satellite_backward (same ▸ moves) noFriction' back
  have x : o.LMCx = c.steppedBack W.L F ctx.timestep := congrArg Phase.pos leaps
  have v : o.LMCv = -c.LMCvelocity +
      (ctx.timestep / 2) • c.satelliteField W.L F c.LMCposition +
      (ctx.timestep / 2) • c.satelliteField W.L F (c.steppedBack W.L F ctx.timestep) :=
    congrArg Phase.vel leaps
  obtain ⟨pos', vel'⟩ := satellite_step moves satellite noFriction run
  rw [pos, vel, x, v] at pos'
  rw [pos, vel, x, v] at vel'
  have drifted : s.LMCpos = c.LMCposition - ctx.timestep • (ctx.timestep / 2) •
      c.satelliteField W.L F (c.steppedBack W.L F ctx.timestep) := by
    rw [pos']
    nth_rewrite 1 [OrbitScene.steppedBack]
    simp only [smul_add, smul_neg, neg_add]
    abel
  by_cases still : ctx.timestep = 0
  · simp only [drifted, vel', still, zero_smul, zero_div, sub_zero, add_zero, neg_neg, and_self,
      true_or]
  · have half : ctx.timestep / 2 ≠ 0 := div_ne_zero still two_ne_zero
    have place : s.LMCpos = c.LMCposition ↔
        c.satelliteField W.L F (c.steppedBack W.L F ctx.timestep) = 0 := by
      rw [drifted, sub_eq_self, smul_eq_zero_iff_right still, smul_eq_zero_iff_right half]
    rw [or_iff_right still, place]
    refine and_congr_right fun none => ?_
    have kicked : s.LMCvel = c.LMCvelocity + (ctx.timestep / 2) •
        (acc_i + acc_i1 -
          (c.shift W.L c.LMCposition + c.shift W.L (c.steppedBack W.L F ctx.timestep))) := by
      rw [vel', place.mpr none]
      simp only [OrbitScene.satelliteField]
      module
    rw [kicked, add_eq_left, smul_eq_zero_iff_right half, sub_eq_zero]

/-- A heavy satellite that comes by. -/
def passingScene : OrbitScene ℚ :=
  ⟨noPotential, 0, 0, ⟨4, 0, 0⟩, ⟨2, -4, 0⟩, false, 125, 3, 0⟩

def passingWorld : World ℚ Unit Unit := { quietWorld ratSqrt fun _ => 0 with L := rationalLibm }

def passingCtx : NBodyCtx ℚ := { quietCtx 1 with LMC := true }

/-- The satellite where the orbit back hands it over. -/
def handedOver (o : Orbit ℚ) : NBodyState ℚ :=
  { quietState [] with LMCpos := o.LMCx, LMCvel := -o.LMCv }

theorem nbStepSystemPlain_retraces_iff_passing : ∃ o rc s,
    passingScene.backward passingWorld.L passingWorld.K passingCtx.timestep 1 = some o ∧
    nbStepSystemPlain passingWorld passingCtx (handedOver o) 0 0 = some (rc, s) ∧
    ((s.LMCpos = passingScene.LMCposition ∧ s.LMCvel = passingScene.LMCvelocity) ↔
      passingCtx.timestep = 0 ∨ passingScene.satelliteField rationalLibm (fun _ => 0)
        (passingScene.steppedBack rationalLibm (fun _ => 0) passingCtx.timestep) = 0 ∧
          (0 : Vec3 ℚ) + 0 = passingScene.shift rationalLibm passingScene.LMCposition +
            passingScene.shift rationalLibm
              (passingScene.steppedBack rationalLibm (fun _ => 0) passingCtx.timestep)) := by
  have moves : MovesBy passingWorld.L passingWorld.K passingCtx.pot fun _ => 0 :=
    quietCtx_moves _ _ 1
  have runs : ((passingScene.backward passingWorld.L passingWorld.K passingCtx.timestep 1).bind
      fun o => nbStepSystemPlain passingWorld passingCtx (handedOver o) 0 0).isSome = true := by
    decide +kernel
  obtain ⟨⟨rc, s⟩, run⟩ := Option.isSome_iff_exists.mp runs
  obtain ⟨o, back, run⟩ := Option.bind_eq_some_iff.mp run
  exact ⟨o, rc, s, back, run,
    nbStepSystemPlain_retraces_iff moves rfl rfl rfl rfl back rfl rfl run⟩

/-- With the accelerations of the Milky Way that belong to both places the satellite comes
back with its velocity, but elsewhere. -/
theorem nbStepSystemPlain_misses :
    ((passingScene.backward passingWorld.L passingWorld.K passingCtx.timestep 1).bind fun o =>
      (passingScene.back passingWorld.L passingWorld.K).bind fun start =>
        (nbStepSystemPlain passingWorld passingCtx (handedOver o) o.mw_acc start.mw_acc).map
          fun s => (s.2.LMCpos, s.2.LMCvel)) = some (⟨4, 2, 0⟩, passingScene.LMCvelocity) ∧
      (⟨4, 2, 0⟩ : Vec3 ℚ) ≠ passingScene.LMCposition := by
  decide +kernel

end

end MilkyWay.NBody
