import MilkyWay.NBody.BestLikelihood
import MilkyWay.NBody.LeapfrogCL

/-! Steps without a satellite on both processors. The kernels make two half kicks by the
same acceleration and correct the velocities in the step that follows, so that the
bodies read back lack the correction of the last step: `nbStepSystemCL_iff` says when it
does not matter. -/

namespace MilkyWay.NBody

open Foundation Foundation.Leapfrog

variable {R I H : Type} [Field R] [LinearOrder R] [IsStrictOrderedRing R]

/-- Calls of `nbStepSystemPlain` with the accelerations of the Milky Way before and after
each; a fatal status ends the run. -/
def plainSteps (W : World R I H) (ctx : NBodyCtx R) (shift : ℕ → Vec3 R × Vec3 R) :
    ℕ → NBodyState R → Option (NBodyState R)
  | 0, st => some st
  | n + 1, st => do
      let st ← plainSteps W ctx shift n st
      let (rc, st) ← nbStepSystemPlain W ctx st (shift n).1 (shift n).2
      if nbStatusIsFatal rc.bits then none else return st

/-- The accelerations for the first step. -/
def plainStart (W : World R I H) (ctx : NBodyCtx R) (st : NBodyState R) :
    Option (NBodyState R) := do
  let (rc, st) ← nbGravMap W ctx st
  if nbStatusIsFatal rc.bits then none else return st

/-- The bodies read back after `n` calls of `nbStepSystemCL`. -/
def bodiesCL (K : Kernels R) (ctx : NBodyCtx R) (n : ℕ) (st : NBodyState R) : List (Body R) :=
  (nbMarshalBodies ((nbStepSystemCL K ctx)^[n] (nbRunPreStep K ctx (nbInitCL st)))).st.bodytab

/-- The field of bodies where there is no satellite. -/
def fieldOf (K : Kernels R) (ctx : NBodyCtx R) (bodies : List (Body R)) :
    (ℕ → Vec3 R) → ℕ → Vec3 R :=
  field K ctx (bodies.map Body.mass) 0 0

/-! ## The host -/

omit [IsStrictOrderedRing R] in
theorem plainSteps_succ {W : World R I H} {ctx : NBodyCtx R} {shift : ℕ → Vec3 R × Vec3 R}
    {n : ℕ} {st t : NBodyState R} (run : plainSteps W ctx shift (n + 1) st = some t) :
    ∃ s rc, plainSteps W ctx shift n st = some s ∧
      nbStepSystemPlain W ctx s (shift n).1 (shift n).2 = some (rc, t) ∧
      nbStatusIsFatal rc.bits = false := by
  simp only [plainSteps, Option.bind_eq_bind, Option.bind_eq_some_iff, Prod.exists] at run
  obtain ⟨s, before, rc, t', step, run⟩ := run
  split at run
  · cases run
  · rename_i calm
    cases run
    exact ⟨s, rc, before, step, Bool.eq_false_iff.mpr calm⟩

omit [IsStrictOrderedRing R] in
theorem plainSteps_of_le {W : World R I H} {ctx : NBodyCtx R} {shift : ℕ → Vec3 R × Vec3 R}
    {n m : ℕ} {st t : NBodyState R} (run : plainSteps W ctx shift n st = some t) (le : m ≤ n) :
    ∃ s, plainSteps W ctx shift m st = some s := by
  induction le generalizing t with
  | refl => exact ⟨t, run⟩
  | step _ ih =>
      obtain ⟨s, -, before, -, -⟩ := plainSteps_succ run
      exact ih before

omit [IsStrictOrderedRing R] in
theorem plainStart_spec {W : World R I H} {K : Kernels R} {ctx : NBodyCtx R}
    {st s : NBodyState R} (same : SameAcceleration W K ctx) (start : plainStart W ctx st = some s) :
    s.bodytab = st.bodytab ∧ s.LMCpos = st.LMCpos ∧ s.LMCvel = st.LMCvel ∧ s.step = st.step ∧
      s.previousForwardTime = st.previousForwardTime ∧ Settled K ctx s := by
  simp only [plainStart, Option.bind_eq_bind, Option.bind_eq_some_iff, Prod.exists] at start
  obtain ⟨rc, s', force, start⟩ := start
  split at start
  · cases start
  · rename_i calm
    cases start
    have acctab := same st rc s force (Bool.eq_false_iff.mpr calm)
    have frame := (nbGravMap_frame force).1
    have bodies : s.bodytab = st.bodytab := by rw [frame, withForces]
    have pos : s.LMCpos = st.LMCpos := by rw [frame, withForces]
    refine ⟨bodies, pos, by rw [frame, withForces], by rw [frame, withForces],
      by rw [frame, withForces], ⟨?_⟩⟩
    rw [acctab, bodies, pos]

omit [IsStrictOrderedRing R] in
theorem field_still {K : Kernels R} {ctx : NBodyCtx R} (lmc : ctx.LMC = false) (masses : List R)
    (y c : Vec3 R) : field K ctx masses y c = field K ctx masses 0 c := by
  have args : satelliteArgs ctx y = satelliteArgs ctx 0 := by
    rw [satelliteArgs, satelliteArgs, lmc]
    rfl
  funext x
  rw [field, field, accelerations, accelerations, args]

theorem plainSteps_leap {W : World R I H} {K : Kernels R} {ctx : NBodyCtx R}
    {st s : NBodyState R} (same : SameAcceleration W K ctx) (lmc : ctx.LMC = false)
    (settled : Settled K ctx st) {n : ℕ} (run : plainSteps W ctx (fun _ => (0, 0)) n st = some s) :
    phase s.bodytab = (leap ctx.timestep (fieldOf K ctx st.bodytab))^[n] (phase st.bodytab) ∧
      s.bodytab.map Body.still = st.bodytab.map Body.still ∧ Settled K ctx s := by
  induction n generalizing s with
  | zero =>
      cases run
      exact ⟨rfl, rfl, settled⟩
  | succ n ih =>
      obtain ⟨t, rc, before, step, calm⟩ := plainSteps_succ run
      obtain ⟨onWay, still, settled_t⟩ := ih before
      have host := hostStep_of_run same settled_t.length step calm
      refine ⟨?_, host.still.trans still, host.settled⟩
      rw [Function.iterate_succ_apply', ← onWay, host.phase, settled_t.acctab, leap, fieldOf,
        ← mass_of_still still, field_still lmc, ← field_phase, field_still lmc]

/-! ## The kernels -/

structure Running (ctx : NBodyCtx R) (st : NBodyState R) (d : StateCL R) : Prop where
  force : d.forceArgs.LMCbranching = -125.0
  update : d.forceArgs.updateVel = true
  integration : d.integrationArgs.LMCbranching = -125.0
  mass : d.nbb.map BodyCL.mass = st.bodytab.map Body.mass
  bodytab : d.st.bodytab = st.bodytab

omit [IsStrictOrderedRing R] in
theorem running_nbRunPreStep (K : Kernels R) (ctx : NBodyCtx R) (st : NBodyState R) :
    Running ctx st (nbRunPreStep K ctx (nbInitCL st)) := by
  refine ⟨rfl, rfl, rfl, ?_, rfl⟩
  show (forceCalculation K ctx _ (nbMarshalIn st.bodytab)).map BodyCL.mass = _
  rw [mass_forceCalculation, nbMarshalIn, List.map_map]
  rfl

theorem mergedCL_nbRunPreStep (K : Kernels R) {ctx : NBodyCtx R} (lmc : ctx.LMC = false)
    (st : NBodyState R) : mergedCL (nbRunPreStep K ctx (nbInitCL st)).nbb =
      ⟨(phase st.bodytab).pos, (phase st.bodytab).vel,
        fieldOf K ctx st.bodytab (phase st.bodytab).pos⟩ := by
  have masses : (nbMarshalIn st.bodytab).map BodyCL.mass = st.bodytab.map Body.mass := by
    rw [nbMarshalIn, List.map_map]
    rfl
  have pos : column BodyCL.pos (nbMarshalIn st.bodytab) = (phase st.bodytab).pos := by
    funext i
    rw [column, nbMarshalIn, List.getElem?_map, Option.map_map]
    rfl
  have satellite : ArgsOf ctx 0 { (nbSetKernelArguments : KernelArgs R) with
      updateVel := false } := by
    rw [ArgsOf, lmc]
    rfl
  refine Merged.ext ?_ (funext fun i => ?_) ?_
  · exact (pos_forceCalculation K ctx _ _).trans pos
  · show column BodyCL.vel (forceCalculation K ctx _ (nbMarshalIn st.bodytab)) i = _
    rw [column, getElem?_forceCalculation, nbMarshalIn, List.getElem?_map, Option.map_map,
      Option.map_map]
    simp only [phase, column, Function.comp_def, forceBody, Bool.and_false, Bool.false_eq_true,
      if_false]
  · have acc := acc_forceCalculation_zero K satellite (nbMarshalIn st.bodytab)
    rw [masses, pos] at acc
    exact acc

theorem nbStepSystemCL_merged (K : Kernels R) {ctx : NBodyCtx R} (lmc : ctx.LMC = false)
    {st : NBodyState R} {d : StateCL R} (running : Running ctx st d) :
    Running ctx st (nbStepSystemCL K ctx d) ∧ (nbStepSystemCL K ctx d).st.dirty = true ∧
      mergedCL (nbStepSystemCL K ctx d).nbb =
        merged ctx.timestep (fieldOf K ctx st.bodytab) (mergedCL d.nbb) := by
  refine ⟨⟨running.force, running.update, running.integration, ?_, running.bodytab⟩, rfl, ?_⟩
  · show (integration ctx _ (forceCalculation K ctx _ d.nbb)).map BodyCL.mass = _
    rw [mass_integration, mass_forceCalculation, running.mass]
  · show mergedCL (integration ctx _ (forceCalculation K ctx _ d.nbb)) = _
    rw [mergedCL_integration running.integration,
      mergedCL_forceCalculation K lmc running.force running.update 0, running.mass]
    rfl

theorem iterate_nbStepSystemCL (K : Kernels R) {ctx : NBodyCtx R} (lmc : ctx.LMC = false)
    (st : NBodyState R) (n : ℕ) :
    let d := (nbStepSystemCL K ctx)^[n] (nbRunPreStep K ctx (nbInitCL st))
    Running ctx st d ∧ (0 < n → d.st.dirty = true) ∧
      mergedCL d.nbb = lag ctx.timestep (fieldOf K ctx st.bodytab)
        (before ctx.timestep (fieldOf K ctx st.bodytab) (phase st.bodytab) n)
        ((leap ctx.timestep (fieldOf K ctx st.bodytab))^[n] (phase st.bodytab)) := by
  rw [← merged_iterate, ← mergedCL_nbRunPreStep K lmc]
  induction n with
  | zero => exact ⟨running_nbRunPreStep K ctx st, nofun, rfl⟩
  | succ n ih =>
      obtain ⟨running, -, lags⟩ := ih
      obtain ⟨running', dirty, steps⟩ := nbStepSystemCL_merged K lmc running
      simp only [Function.iterate_succ_apply']
      exact ⟨running', fun _ => dirty, steps.trans (by rw [lags])⟩

/-! ## The bodies read back -/

omit [LinearOrder R] [IsStrictOrderedRing R] in
theorem phase_nbMarshalBodies {d : StateCL R} (dirty : d.st.dirty = true)
    (mass : d.nbb.map BodyCL.mass = d.st.bodytab.map Body.mass) :
    phase (nbMarshalBodies d).st.bodytab = ⟨(mergedCL d.nbb).pos, (mergedCL d.nbb).vel⟩ ∧
      (nbMarshalBodies d).st.bodytab.map Body.still = d.st.bodytab.map Body.still := by
  have length : d.nbb.length = d.st.bodytab.length := by
    have lengths := congrArg List.length mass
    rwa [List.length_map, List.length_map] at lengths
  rw [nbMarshalBodies, if_pos dirty]
  refine ⟨Phase.ext (column_ext _ (fun i lt => ?_) fun i ge => ?_)
    (column_ext _ (fun i lt => ?_) fun i ge => ?_), List.ext_getElem ?_ fun i lt lt' => ?_⟩
  · rw [List.length_zipWith, lt_min_iff] at lt
    simp only [List.getElem_zipWith, mergedCL, column_lt _ lt.2]
  · rw [List.length_zipWith, length, min_self, ← length] at ge
    exact column_ge _ ge
  · rw [List.length_zipWith, lt_min_iff] at lt
    simp only [List.getElem_zipWith, mergedCL, column_lt _ lt.2]
  · rw [List.length_zipWith, length, min_self, ← length] at ge
    exact column_ge _ ge
  · simp only [List.length_map, List.length_zipWith, length, min_self]
  · rw [List.length_map, List.length_zipWith, length, min_self] at lt
    have masses : d.nbb[i]?.map BodyCL.mass = d.st.bodytab[i]?.map Body.mass := by
      rw [← List.getElem?_map, ← List.getElem?_map, mass]
    rw [List.getElem?_eq_getElem (length.symm ▸ lt), List.getElem?_eq_getElem lt, Option.map_some,
      Option.map_some, Option.some.injEq] at masses
    simp only [List.getElem_map, List.getElem_zipWith, Body.still, masses]

theorem bodiesCL_lag (K : Kernels R) {ctx : NBodyCtx R} (lmc : ctx.LMC = false)
    (st : NBodyState R) (n : ℕ) :
    let F := fieldOf K ctx st.bodytab
    let p := (leap ctx.timestep F)^[n] (phase st.bodytab)
    let m := lag ctx.timestep F (before ctx.timestep F (phase st.bodytab) n) p
    phase (bodiesCL K ctx n st) = ⟨m.pos, m.vel⟩ ∧
      (bodiesCL K ctx n st).map Body.still = st.bodytab.map Body.still := by
  obtain ⟨running, dirty, lags⟩ := iterate_nbStepSystemCL K lmc st n
  cases n with
  | zero =>
      refine ⟨?_, rfl⟩
      show phase st.bodytab = ⟨(phase st.bodytab).pos, _⟩
      simp only [lag, before, Function.iterate_zero_apply, sub_self, smul_zero, sub_zero]
  | succ n =>
      have read := phase_nbMarshalBodies (dirty n.succ_pos)
        (running.mass.trans (by rw [running.bodytab]))
      rw [lags, running.bodytab] at read
      exact read

section
variable {W : World R I H} {K : Kernels R} {ctx : NBodyCtx R} {st s₀ s : NBodyState R} {n : ℕ}

/-- The positions agree after every number of steps. -/
theorem bodiesCL_pos (same : SameAcceleration W K ctx) (lmc : ctx.LMC = false)
    (start : plainStart W ctx st = some s₀)
    (run : plainSteps W ctx (fun _ => (0, 0)) n s₀ = some s) :
    (bodiesCL K ctx n st).map Body.pos = s.bodytab.map Body.pos := by
  obtain ⟨bodies, -, -, -, -, settled⟩ := plainStart_spec same start
  obtain ⟨host, still, -⟩ := plainSteps_leap same lmc settled run
  obtain ⟨device, still'⟩ := bodiesCL_lag K lmc st n
  rw [bodies] at host still
  have length : (bodiesCL K ctx n st).length = s.bodytab.length := by
    have lengths := congrArg List.length (still'.trans still.symm)
    rwa [List.length_map, List.length_map] at lengths
  refine map_eq_of_column _ length ?_
  exact congrArg Phase.pos device |>.trans (congrArg Phase.pos host).symm

theorem bodiesCL_eq_iff (same : SameAcceleration W K ctx) (lmc : ctx.LMC = false)
    (start : plainStart W ctx st = some s₀)
    (run : plainSteps W ctx (fun _ => (0, 0)) n s₀ = some s) :
    let F := fieldOf K ctx st.bodytab
    bodiesCL K ctx n st = s.bodytab ↔ ctx.timestep = 0 ∨
      F ((leap ctx.timestep F)^[n] (phase st.bodytab)).pos =
        before ctx.timestep F (phase st.bodytab) n := by
  intro F
  obtain ⟨bodies, -, -, -, -, settled⟩ := plainStart_spec same start
  obtain ⟨host, still, -⟩ := plainSteps_leap same lmc settled run
  obtain ⟨device, still'⟩ := bodiesCL_lag K lmc st n
  rw [bodies] at host still
  rw [bodies_eq_iff (still'.trans still.symm), host, device, ← lag_vel_eq_iff, Phase.ext_iff]
  exact and_iff_right rfl

/-- Both processors leave the same bodies after `n` steps where the field of the leapfrog
has not changed in the last of them, and after each number up to `n` where it does not
change along the parabolas of its first values. -/
theorem nbStepSystemCL_iff (same : SameAcceleration W K ctx) (lmc : ctx.LMC = false)
    (start : plainStart W ctx st = some s₀)
    (run : plainSteps W ctx (fun _ => (0, 0)) n s₀ = some s) :
    let F := fieldOf K ctx st.bodytab
    let p := phase st.bodytab
    (bodiesCL K ctx n st = s.bodytab ↔ ctx.timestep = 0 ∨
      F ((leap ctx.timestep F)^[n] p).pos = before ctx.timestep F p n) ∧
    ((∀ m ≤ n, ∀ t, plainSteps W ctx (fun _ => (0, 0)) m s₀ = some t →
        bodiesCL K ctx m st = t.bodytab) ↔
      ctx.timestep = 0 ∨ ∀ k ≤ n, F (parabola ctx.timestep (F p.pos) p k).pos = F p.pos) := by
  intro F p
  refine ⟨bodiesCL_eq_iff same lmc start run, ?_⟩
  rw [← unchanged_iff]
  constructor
  · intro agree
    by_cases still : ctx.timestep = 0
    · exact .inl still
    · refine .inr fun k le => ?_
      obtain ⟨t, run_k⟩ := plainSteps_of_le run le
      exact ((bodiesCL_eq_iff same lmc start run_k).mp (agree k le t run_k)).resolve_left still
  · rintro (still | rests) m le t run_m
    · exact (bodiesCL_eq_iff same lmc start run_m).mpr (.inl still)
    · exact (bodiesCL_eq_iff same lmc start run_m).mpr (.inr (rests m le))

end

/-! ## Two bodies that fall towards each other -/

def ratLibm : Libm ℚ := ⟨ratSqrt, id, id, id, id, id, fun x y => x ^ y.num⟩

theorem ratLibm_square (x : ℚ) : ratLibm.pow x 2.0 = x * x := by
  show x ^ (2.0 : ℚ).num = x * x
  rw [show (2.0 : ℚ).num = 2 by norm_num, zpow_two]

def ratTrunc (q : ℚ) : ℤ := q.num.tdiv q.den

def fallingWorld : World ℚ Unit Unit := { quietWorld ratSqrt fun _ => 1 with L := ratLibm }

def fallingKernels : Kernels ℚ := hostKernels fallingWorld (quietCtx 2) ratTrunc

def fallingState : NBodyState ℚ :=
  quietState [{ pos := 0, mass := 1, vel := 0 }, { pos := ⟨2, 2, 0⟩, mass := 1, id := 1, vel := 0 }]

theorem sameAcceleration_falling : SameAcceleration fallingWorld fallingKernels (quietCtx 2) :=
  sameAcceleration_exact ratTrunc rfl nofun nofun ratLibm_square

/-- The velocities read back lack the last correction. -/
theorem nbStepSystemCL_ne_falling : SameAcceleration fallingWorld fallingKernels (quietCtx 2) ∧
    ∃ s₀ s, plainStart fallingWorld (quietCtx 2) fallingState = some s₀ ∧
      plainSteps fallingWorld (quietCtx 2) (fun _ => (0, 0)) 1 s₀ = some s ∧
      (bodiesCL fallingKernels (quietCtx 2) 1 fallingState).map Body.vel ≠
        s.bodytab.map Body.vel := by
  have differ : ((plainStart fallingWorld (quietCtx 2) fallingState).bind fun s₀ =>
      (plainSteps fallingWorld (quietCtx 2) (fun _ => (0, 0)) 1 s₀).map fun s =>
        decide ((bodiesCL fallingKernels (quietCtx 2) 1 fallingState).map Body.vel =
          s.bodytab.map Body.vel)) = some false := by decide +kernel
  obtain ⟨s₀, start, steps⟩ := Option.bind_eq_some_iff.mp differ
  obtain ⟨s, run, differ⟩ := Option.map_eq_some_iff.mp steps
  exact ⟨sameAcceleration_falling, s₀, s, start, run, of_decide_eq_false differ⟩

theorem nbStepSystemCL_iff_falling :
    ∃ s₀ s, plainStart fallingWorld (quietCtx 2) fallingState = some s₀ ∧
      plainSteps fallingWorld (quietCtx 2) (fun _ => (0, 0)) 2 s₀ = some s ∧
      (bodiesCL fallingKernels (quietCtx 2) 2 fallingState = s.bodytab ↔
        (quietCtx 2 : NBodyCtx ℚ).timestep = 0 ∨
          fieldOf fallingKernels (quietCtx 2) fallingState.bodytab
            ((leap (quietCtx 2 : NBodyCtx ℚ).timestep
              (fieldOf fallingKernels (quietCtx 2) fallingState.bodytab))^[2]
                (phase fallingState.bodytab)).pos =
          before (quietCtx 2 : NBodyCtx ℚ).timestep
            (fieldOf fallingKernels (quietCtx 2) fallingState.bodytab)
            (phase fallingState.bodytab) 2) := by
  have completes : ((plainStart fallingWorld (quietCtx 2) fallingState).bind
      (plainSteps fallingWorld (quietCtx 2) (fun _ => (0, 0)) 2)).isSome = true := by
    decide +kernel
  obtain ⟨s, completes⟩ := Option.isSome_iff_exists.mp completes
  obtain ⟨s₀, start, run⟩ := Option.bind_eq_some_iff.mp completes
  exact ⟨s₀, s, start, run, (nbStepSystemCL_iff sameAcceleration_falling rfl start run).1⟩

end MilkyWay.NBody
