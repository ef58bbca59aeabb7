import MilkyWay.NBody.StepsCL

/-! Steps with a satellite on both processors. The host moves the satellite alike, and a
step of the kernels is the leapfrog's; but the pre-step runs before the kernels know the
satellite, so that the first half kick lacks its pull. A leapfrog can be run backwards,
so the bodies never agree again: `nbStepSystemCL_LMC_iff`. -/

namespace MilkyWay.NBody

open Foundation Foundation.Leapfrog

variable {R I H : Type} [Field R] [LinearOrder R] [IsStrictOrderedRing R]

/-- Calls of `nbStepSystemCL_LMC` with the accelerations of the Milky Way before and after
each; the loop counts them. -/
def stepsCL_LMC (W : World R I H) (K : Kernels R) (ctx : NBodyCtx R)
    (shift : ℕ → Vec3 R × Vec3 R) : ℕ → StateCL R → Option (StateCL R)
  | 0, d => some d
  | n + 1, d => do
      let d ← stepsCL_LMC W K ctx shift n d
      let d ← nbStepSystemCL_LMC W K ctx d (shift n).1 (shift n).2
      return { d with st := { d.st with step := d.st.step + 1 } }

/-- The pull of the satellite at `y`, where the potential is compiled in. -/
def pull (K : Kernels R) (ctx : NBodyCtx R) (y pos : Vec3 R) : Vec3 R :=
  if USE_EXTERNAL_POTENTIAL ctx then
    plummerLMCAcceleration K.L pos y ctx.LMCmass ctx.LMCscale
  else 0

/-- The satellite's mass as an integer is not one of the marks that choose a branch. -/
def Unmarked (K : Kernels R) (ctx : NBodyCtx R) : Prop :=
  (K.toInt ctx.LMCmass : R) ≠ -125.0 ∧ (K.toInt ctx.LMCmass : R) ≠ -1024.0

def phaseCL (nbb : List (BodyCL R)) : Phase (ℕ → Vec3 R) :=
  ⟨column BodyCL.pos nbb, column BodyCL.vel nbb⟩

/-! ## The kernels with a satellite -/

section
variable {ctx : NBodyCtx R} {args : KernelArgs R} (nbb : List (BodyCL R))

theorem phaseCL_integration_mass (merged : args.LMCbranching ≠ -125.0)
    (second : args.LMCbranching ≠ -1024.0) : phaseCL (integration ctx args nbb) =
      drift ctx.timestep (column (fun b => b.acc + args.LMCacci1) nbb) (phaseCL nbb) := by
  refine Phase.ext (funext fun i => ?_) (funext fun i => ?_)
  all_goals
    simp only [phaseCL, drift, integration, Pi.add_apply, Pi.smul_apply, column,
      List.getElem?_map]
    cases nbb[i]? with
    | none => simp
    | some b => simp [integrationBody, bne_iff_ne.mpr merged, bne_iff_ne.mpr second,
        beq_eq_false_iff_ne.mpr merged, half_mul]

theorem phaseCL_integration_mark (second : args.LMCbranching = -1024.0) :
    phaseCL (integration ctx args nbb) = ⟨(phaseCL nbb).pos,
      (phaseCL nbb).vel + (ctx.timestep / 2) • column (fun b => b.acc + args.LMCacci1) nbb⟩ := by
  have merged : args.LMCbranching ≠ -125.0 := by rw [second]; norm_num
  have mark : (args.LMCbranching != -1024.0) = false := by rw [second, bne_self_eq_false]
  refine Phase.ext (funext fun i => ?_) (funext fun i => ?_)
  all_goals
    simp only [phaseCL, integration, Pi.add_apply, Pi.smul_apply, column, List.getElem?_map]
    cases nbb[i]? with
    | none => simp
    | some b => simp [integrationBody, bne_iff_ne.mpr merged, mark,
        beq_eq_false_iff_ne.mpr merged, half_mul]

omit [IsStrictOrderedRing R] in
theorem acc_integration (c : Vec3 R) : column (fun b => b.acc + c) (integration ctx args nbb) =
    column (fun b => b.acc + c) nbb := by
  funext i
  rw [column, integration, List.getElem?_map, Option.map_map]
  rfl

omit [IsStrictOrderedRing R] in
theorem vel_forceCalculation (K : Kernels R) (branch : args.LMCbranching ≠ -125.0) :
    column BodyCL.vel (forceCalculation K ctx args nbb) = column BodyCL.vel nbb := by
  funext i
  rw [column, getElem?_forceCalculation, Option.map_map]
  simp only [column, Function.comp_def, forceBody, beq_eq_false_iff_ne.mpr branch,
    Bool.false_and, Bool.false_eq_true, if_false]

end

/-! ## A step -/

/-- The kernels of a step in which the host moves the satellite to `y` and its velocity to
`u`. -/
def nbKernelsLMC (K : Kernels R) (ctx : NBodyCtx R) (d : StateCL R) (acc_i acc_i1 y u : Vec3 R) :
    StateCL R :=
  let d := nbRunIntegrationKernel ctx d acc_i (K.toInt ctx.LMCmass)
  let d := { d with st := { d.st with LMCpos := y, dirty := true } }
  let d := nbExecuteForceKernelsLMC K ctx d acc_i1 (-1024) true
  { d with st := { d.st with LMCvel := u } }

omit [IsStrictOrderedRing R] in
theorem nbStepSystemCL_LMC_eq (W : World R I H) (K : Kernels R) (ctx : NBodyCtx R) (d : StateCL R)
    (acc_i acc_i1 : Vec3 R) : nbStepSystemCL_LMC W K ctx d acc_i acc_i1 =
      (moveSatellite W ctx (barTime ctx d.st) acc_i acc_i1 d.st.LMCpos d.st.LMCvel).map fun p =>
        nbKernelsLMC K ctx d acc_i acc_i1 p.1 p.2 := by
  rw [moveSatellite, Option.bind_eq_bind, Option.map_bind]
  refine congrArg (Option.bind _) (funext fun acc => ?_)
  rw [Function.comp_apply, Option.bind_eq_bind, Option.map_bind]
  rfl

structure DeviceStep (K : Kernels R) (ctx : NBodyCtx R) (acc_i acc_i1 y u : Vec3 R)
    (d d' : StateCL R) : Prop where
  phase : phaseCL d'.nbb = Leapfrog.step ctx.timestep (column (fun b => b.acc + acc_i) d.nbb)
    (field K ctx (d.nbb.map BodyCL.mass) y acc_i1) (phaseCL d.nbb)
  mass : d'.nbb.map BodyCL.mass = d.nbb.map BodyCL.mass
  acc : ∀ c, column (fun b => b.acc + c) d'.nbb =
    field K ctx (d.nbb.map BodyCL.mass) y c (phaseCL d'.nbb).pos
  host : d'.st = { d.st with LMCpos := y, LMCvel := u, dirty := true }

theorem deviceStep_nbKernelsLMC {K : Kernels R} {ctx : NBodyCtx R} (lmc : ctx.LMC = true)
    (unmarked : Unmarked K ctx) (d : StateCL R) (acc_i acc_i1 y u : Vec3 R) :
    DeviceStep K ctx acc_i acc_i1 y u d (nbKernelsLMC K ctx d acc_i acc_i1 y u) := by
  have mark : ((-1024 : ℤ) : R) = -1024.0 := by norm_num
  have branch : ((-1024 : ℤ) : R) ≠ -125.0 := by norm_num
  let d₁ := nbRunIntegrationKernel ctx d acc_i (K.toInt ctx.LMCmass)
  let args := setLMCArgs ctx { d.st with LMCpos := y } acc_i1 (-1024) d₁.forceArgs
  let nbb₂ := forceCalculation K ctx args d₁.nbb
  let nbb₃ := integration ctx (setLMCArgs ctx { d.st with LMCpos := y } acc_i1 (-1024)
    d₁.integrationArgs) nbb₂
  have mass₁ : d₁.nbb.map BodyCL.mass = d.nbb.map BodyCL.mass := mass_integration ctx _ d.nbb
  have first : phaseCL d₁.nbb = drift ctx.timestep (column (fun b => b.acc + acc_i) d.nbb)
      (phaseCL d.nbb) := phaseCL_integration_mass d.nbb unmarked.1 unmarked.2
  have satellite : ArgsOf ctx y args := by
    rw [ArgsOf, if_pos lmc]
    exact ⟨rfl, rfl, rfl, branch⟩
  have forced := acc_forceCalculation K satellite d₁.nbb
  have kept : phaseCL nbb₂ = phaseCL d₁.nbb :=
    Phase.ext (pos_forceCalculation K ctx args d₁.nbb) (vel_forceCalculation d₁.nbb K branch)
  have second : phaseCL nbb₃ = kick ctx.timestep
      (field K ctx (d.nbb.map BodyCL.mass) y acc_i1) (phaseCL d₁.nbb) := by
    refine (phaseCL_integration_mark nbb₂ mark).trans ?_
    rw [kept, kick, ← mass₁]
    exact congrArg (fun a => (⟨_, _ + (ctx.timestep / 2) • a⟩ : Phase (ℕ → Vec3 R)))
      (forced acc_i1)
  refine ⟨?_, ?_, fun c => ?_, rfl⟩
  · rw [Leapfrog.step, ← first]
    exact second
  · show (integration ctx _ nbb₂).map BodyCL.mass = _
    rw [mass_integration, mass_forceCalculation, mass₁]
  · show column (fun b => b.acc + c) (integration ctx _ nbb₂) =
      field K ctx (d.nbb.map BodyCL.mass) y c (phaseCL nbb₃).pos
    rw [acc_integration, forced, mass₁, second]
    rfl

/-! ## All steps -/

/-- The kernels and the host have the same satellite and clock, and the buffers belong to
the bodies. -/
structure Together (st s : NBodyState R) (d : StateCL R) : Prop where
  pos : d.st.LMCpos = s.LMCpos
  vel : d.st.LMCvel = s.LMCvel
  step : d.st.step = s.step
  forwardTime : d.st.previousForwardTime = s.previousForwardTime
  bodytab : d.st.bodytab = st.bodytab
  mass : d.nbb.map BodyCL.mass = st.bodytab.map Body.mass

theorem Together.next {W : World R I H} {K : Kernels R} {ctx : NBodyCtx R}
    {st s t : NBodyState R} {d : StateCL R} {shift : ℕ → Vec3 R × Vec3 R} {n : ℕ} {d₀ : StateCL R}
    {rc : NBodyStatus} (lmc : ctx.LMC = true) (unmarked : Unmarked K ctx)
    (together : Together st s d) (runs : stepsCL_LMC W K ctx shift n d₀ = some d)
    (host : HostStep W K ctx (shift n).1 (shift n).2 s t)
    (run : nbStepSystemPlain W ctx s (shift n).1 (shift n).2 = some (rc, t)) :
    ∃ d', stepsCL_LMC W K ctx shift (n + 1) d₀ = some d' ∧ Together st t d' ∧
      d'.st.dirty = true ∧
      (∀ c, column (fun b => b.acc + c) d'.nbb =
        field K ctx (st.bodytab.map Body.mass) t.LMCpos c (phaseCL d'.nbb).pos) ∧
      phaseCL d'.nbb = Leapfrog.step ctx.timestep
        (column (fun b => b.acc + (shift n).1) d.nbb)
        (field K ctx (st.bodytab.map Body.mass) t.LMCpos (shift n).2) (phaseCL d.nbb) := by
  have move := host.satellite lmc
  rw [barTime, ← together.step, ← together.forwardTime, ← together.pos, ← together.vel] at move
  let d' := nbKernelsLMC K ctx d (shift n).1 (shift n).2 t.LMCpos t.LMCvel
  have device : DeviceStep K ctx (shift n).1 (shift n).2 t.LMCpos t.LMCvel d d' :=
    deviceStep_nbKernelsLMC lmc unmarked d _ _ _ _
  have step : nbStepSystemCL_LMC W K ctx d (shift n).1 (shift n).2 = some d' := by
    rw [nbStepSystemCL_LMC_eq, barTime, move, Option.map_some]
  have frame := nbStepSystemPlain_frame run
  refine ⟨{ d' with st := { d'.st with step := d'.st.step + 1 } }, ?_, ?_, ?_, ?_, ?_⟩
  · rw [stepsCL_LMC, runs, Option.bind_eq_bind, Option.bind_some, step]
    rfl
  · have host := device.host
    exact ⟨by rw [host], by rw [host],
      by rw [host, frame.step]; exact congrArg (· + 1) together.step,
      by rw [host, frame.forwardTime]; exact together.forwardTime,
      by rw [host]; exact together.bodytab, device.mass.trans together.mass⟩
  · rw [device.host]
  · rw [← together.mass]
    exact device.acc
  · rw [← together.mass]
    exact device.phase

/-! ## The pre-step -/

theorem accelerationCL_pull (K : Kernels R) {ctx : NBodyCtx R} (lmc : ctx.LMC = true) (y : Vec3 R)
    (pts : List (Vec3 R × R)) (i : ℕ) (pos : Vec3 R) :
    accelerationCL K ctx (satelliteArgs ctx y) pts i pos =
      accelerationCL K ctx { nbSetKernelArguments with updateVel := false } pts i pos +
        pull K ctx y pos := by
  have marks : ((-1024 : R) != -125.0) = true := bne_iff_ne.mpr (by norm_num)
  unfold accelerationCL pull
  cases USE_EXTERNAL_POTENTIAL ctx with
  | false => simp only [Bool.false_eq_true, if_false, add_zero]
  | true => simp only [satelliteArgs, lmc, if_true, marks, nbSetKernelArguments,
      bne_self_eq_false, Bool.false_eq_true, if_false]

section
variable {W : World R I H} {K : Kernels R} {ctx : NBodyCtx R} {st s₀ s : NBodyState R}

omit [IsStrictOrderedRing R] in
theorem phaseCL_nbRunPreStep (K : Kernels R) (ctx : NBodyCtx R) (st : NBodyState R) :
    phaseCL (nbRunPreStep K ctx (nbInitCL st)).nbb = phase st.bodytab := by
  refine Phase.ext ((pos_forceCalculation K ctx _ _).trans (funext fun i => ?_))
    (funext fun i => ?_)
  · show column BodyCL.pos (nbMarshalIn st.bodytab) i = _
    rw [column, nbMarshalIn, List.getElem?_map, Option.map_map]
    rfl
  · show column BodyCL.vel (forceCalculation K ctx _ (nbMarshalIn st.bodytab)) i = _
    rw [column, getElem?_forceCalculation, nbMarshalIn, List.getElem?_map, Option.map_map,
      Option.map_map]
    simp only [phase, column, Function.comp_def, forceBody, Bool.and_false, Bool.false_eq_true,
      if_false]

theorem acc_nbRunPreStep_iff (lmc : ctx.LMC = true) (bodies : s₀.bodytab = st.bodytab)
    (pos : s₀.LMCpos = st.LMCpos) (settled : Settled K ctx s₀) (c : Vec3 R) :
    column (fun b => b.acc + c) (nbRunPreStep K ctx (nbInitCL st)).nbb =
        column (· + c) s₀.acctab ↔
      ∀ b ∈ st.bodytab, pull K ctx st.LMCpos b.pos = 0 := by
  have pts : pointsCL (nbMarshalIn st.bodytab) = points st.bodytab := by
    rw [pointsCL, nbMarshalIn, List.map_map]
    rfl
  have device : ∀ i, column (fun b => b.acc + c) (nbRunPreStep K ctx (nbInitCL st)).nbb i =
      (st.bodytab[i]?.map fun b => accelerationCL K ctx { nbSetKernelArguments with
        updateVel := false } (points st.bodytab) i b.pos + c).getD 0 := by
    intro i
    show column _ (forceCalculation K ctx _ (nbMarshalIn st.bodytab)) i = _
    rw [column, getElem?_forceCalculation, pts, nbMarshalIn, List.getElem?_map, Option.map_map,
      Option.map_map]
    rfl
  have host : ∀ i, column (· + c) s₀.acctab i =
      (st.bodytab[i]?.map fun b => accelerationCL K ctx (satelliteArgs ctx st.LMCpos)
        (points st.bodytab) i b.pos + c).getD 0 := by
    intro i
    rw [settled.acctab, bodies, pos, column, getElem?_accelerations, points, List.getElem?_map,
      Option.map_map, Option.map_map]
    rfl
  constructor
  · intro same b mem
    obtain ⟨i, lt, rfl⟩ := List.getElem_of_mem mem
    have here := congrFun same i
    rw [device, host, List.getElem?_eq_getElem lt, Option.map_some, Option.map_some,
      Option.getD_some, Option.getD_some, accelerationCL_pull K lmc, add_left_inj] at here
    exact left_eq_add.mp here
  · intro none_
    funext i
    rw [device, host]
    cases body : st.bodytab[i]? with
    | none => rfl
    | some b =>
        rw [Option.map_some, Option.map_some, accelerationCL_pull K lmc,
          none_ b (List.mem_of_getElem? body), add_zero]

end

/-! ## The bodies after all steps -/

/-- The bodies read back after `n` calls of `nbStepSystemCL_LMC`. -/
def readBack (d : StateCL R) : List (Body R) := (nbMarshalBodies d).st.bodytab

section
variable {W : World R I H} {K : Kernels R} {ctx : NBodyCtx R} {st s₀ s : NBodyState R}
  {shift : ℕ → Vec3 R × Vec3 R} {n : ℕ}

structure Compared (K : Kernels R) (ctx : NBodyCtx R) (st s : NBodyState R) (n : ℕ)
    (d : StateCL R) : Prop where
  together : Together st s d
  dirty : 0 < n → d.st.dirty = true
  acc : 0 < n → ∀ c, column (fun b => b.acc + c) d.nbb =
    field K ctx (st.bodytab.map Body.mass) s.LMCpos c (phaseCL d.nbb).pos
  same : phaseCL d.nbb = phase s.bodytab ↔ n = 0 ∨ ctx.timestep = 0 ∨
    ∀ b ∈ st.bodytab, pull K ctx st.LMCpos b.pos = 0
  first : n = 0 → ∀ c, column (fun b => b.acc + c) d.nbb = column (· + c) s.acctab ↔
    ∀ b ∈ st.bodytab, pull K ctx st.LMCpos b.pos = 0
  settled : Settled K ctx s
  still : s.bodytab.map Body.still = st.bodytab.map Body.still

theorem compared_start (same : SameAcceleration W K ctx) (lmc : ctx.LMC = true)
    (start : plainStart W ctx st = some s₀) :
    Compared K ctx st s₀ 0 (nbRunPreStep K ctx (nbInitCL st)) := by
  obtain ⟨bodies, pos, vel, step, time, settled⟩ := plainStart_spec same start
  have mass := (running_nbRunPreStep K ctx st).mass
  refine ⟨⟨pos.symm, vel.symm, step.symm, time.symm, rfl, mass⟩, nofun, nofun, ?_,
    fun _ => acc_nbRunPreStep_iff lmc bodies pos settled, settled, by rw [bodies]⟩
  rw [phaseCL_nbRunPreStep, bodies]
  exact iff_of_true rfl (.inl rfl)

theorem Compared.next {t : NBodyState R} {d d₀ : StateCL R} {rc : NBodyStatus}
    (compared : Compared K ctx st s n d) (same : SameAcceleration W K ctx) (lmc : ctx.LMC = true)
    (unmarked : Unmarked K ctx) (runs : stepsCL_LMC W K ctx shift n d₀ = some d)
    (run : nbStepSystemPlain W ctx s (shift n).1 (shift n).2 = some (rc, t))
    (calm : nbStatusIsFatal rc.bits = false) :
    ∃ d', stepsCL_LMC W K ctx shift (n + 1) d₀ = some d' ∧ Compared K ctx st t (n + 1) d' := by
  have host := hostStep_of_run same compared.settled.length run calm
  obtain ⟨d', runs', together, dirty, acc, device⟩ :=
    compared.together.next lmc unmarked runs host run
  refine ⟨d', runs', together, fun _ => dirty, fun _ => acc, ?_, nofun, host.settled,
    host.still.trans compared.still⟩
  have masses := mass_of_still compared.still
  rw [device, host.phase, masses]
  cases n with
  | zero =>
      rw [compared.same.mpr (.inl rfl), step_acc_iff, compared.first rfl]
      exact (or_iff_right (Nat.succ_ne_zero 0)).symm
  | succ n =>
      have felt : column (· + (shift (n + 1)).1) s.acctab =
          field K ctx (st.bodytab.map Body.mass) s.LMCpos (shift (n + 1)).1
            (phase s.bodytab).pos := by
        rw [compared.settled.acctab, ← masses, field_phase]
      rw [compared.acc n.succ_pos, felt, step_phase_iff, compared.same,
        or_iff_right n.succ_ne_zero, or_iff_right (n + 1).succ_ne_zero]

theorem compared_steps (same : SameAcceleration W K ctx) (lmc : ctx.LMC = true)
    (unmarked : Unmarked K ctx) (start : plainStart W ctx st = some s₀)
    (run : plainSteps W ctx shift n s₀ = some s) :
    ∃ d, stepsCL_LMC W K ctx shift n (nbRunPreStep K ctx (nbInitCL st)) = some d ∧
      Compared K ctx st s n d := by
  induction n generalizing s with
  | zero =>
      cases run
      exact ⟨_, rfl, compared_start same lmc start⟩
  | succ n ih =>
      obtain ⟨t, rc, before, step, calm⟩ := plainSteps_succ run
      obtain ⟨d, runs, compared⟩ := ih before
      exact compared.next same lmc unmarked runs step calm

/-- The satellite is the same on both processors, and the bodies are exactly where there
is no step, no time passes or the satellite does not pull the bodies at the start. -/
theorem nbStepSystemCL_LMC_iff (same : SameAcceleration W K ctx) (lmc : ctx.LMC = true)
    (unmarked : Unmarked K ctx) (start : plainStart W ctx st = some s₀)
    (run : plainSteps W ctx shift n s₀ = some s) :
    ∃ d, stepsCL_LMC W K ctx shift n (nbRunPreStep K ctx (nbInitCL st)) = some d ∧
      d.st.LMCpos = s.LMCpos ∧ d.st.LMCvel = s.LMCvel ∧
      (readBack d = s.bodytab ↔ n = 0 ∨ ctx.timestep = 0 ∨
        ∀ b ∈ st.bodytab, pull K ctx st.LMCpos b.pos = 0) := by
  obtain ⟨d, runs, compared⟩ := compared_steps same lmc unmarked start run
  have together := compared.together
  refine ⟨d, runs, together.pos, together.vel, ?_⟩
  rw [← compared.same]
  cases n with
  | zero =>
      cases runs
      cases run
      have bodies := (plainStart_spec same start).1
      rw [phaseCL_nbRunPreStep, bodies]
      exact iff_of_true rfl rfl
  | succ n =>
      obtain ⟨read, still⟩ := phase_nbMarshalBodies (compared.dirty n.succ_pos)
        (together.mass.trans (by rw [together.bodytab]))
      rw [readBack, bodies_eq_iff (still.trans (by rw [together.bodytab, compared.still])), read]
      rfl

end

/-! ## A body next to the satellite -/

def satelliteCtx : NBodyCtx ℚ := { quietCtx 2 with
  LMC := true, LMCmass := 8, LMCscale := 1, potentialType := .default }

def satelliteKernels : Kernels ℚ := hostKernels fallingWorld satelliteCtx ratTrunc

def satelliteState : NBodyState ℚ :=
  { (quietState [{ pos := 0, mass := 1, vel := 0 }] : NBodyState ℚ) with
    LMCpos := ⟨2, 0, 0⟩, LMCvel := ⟨0, 1, 0⟩ }

/-- The Milky Way is shifted along the first axis. -/
def steadyShift : ℕ → Vec3 ℚ × Vec3 ℚ := fun _ => (⟨1, 0, 0⟩, ⟨1, 0, 0⟩)

theorem sameAcceleration_satellite :
    SameAcceleration fallingWorld satelliteKernels satelliteCtx :=
  sameAcceleration_exact ratTrunc rfl nofun nofun ratLibm_square

theorem unmarked_satellite : Unmarked satelliteKernels satelliteCtx := by
  constructor <;> decide +kernel

/-- After one step the body is elsewhere. -/
theorem nbStepSystemCL_LMC_ne_satellite :
    SameAcceleration fallingWorld satelliteKernels satelliteCtx ∧
    ∃ s₀ s d, plainStart fallingWorld satelliteCtx satelliteState = some s₀ ∧
      plainSteps fallingWorld satelliteCtx steadyShift 1 s₀ = some s ∧
      stepsCL_LMC fallingWorld satelliteKernels satelliteCtx steadyShift 1
        (nbRunPreStep satelliteKernels satelliteCtx (nbInitCL satelliteState)) = some d ∧
      (readBack d).map Body.pos ≠ s.bodytab.map Body.pos := by
  have differ : ((plainStart fallingWorld satelliteCtx satelliteState).bind fun s₀ =>
      (plainSteps fallingWorld satelliteCtx steadyShift 1 s₀).bind fun s =>
        (stepsCL_LMC fallingWorld satelliteKernels satelliteCtx steadyShift 1
          (nbRunPreStep satelliteKernels satelliteCtx (nbInitCL satelliteState))).map fun d =>
            decide ((readBack d).map Body.pos = s.bodytab.map Body.pos)) = some false := by
    decide +kernel
  obtain ⟨s₀, start, steps⟩ := Option.bind_eq_some_iff.mp differ
  obtain ⟨s, run, steps⟩ := Option.bind_eq_some_iff.mp steps
  obtain ⟨d, device, differ⟩ := Option.map_eq_some_iff.mp steps
  exact ⟨sameAcceleration_satellite, s₀, s, d, start, run, device, of_decide_eq_false differ⟩

theorem nbStepSystemCL_LMC_iff_satellite :
    ∃ s₀ s d, plainStart fallingWorld satelliteCtx satelliteState = some s₀ ∧
      plainSteps fallingWorld satelliteCtx steadyShift 2 s₀ = some s ∧
      stepsCL_LMC fallingWorld satelliteKernels satelliteCtx steadyShift 2
        (nbRunPreStep satelliteKernels satelliteCtx (nbInitCL satelliteState)) = some d ∧
      d.st.LMCpos = s.LMCpos ∧ d.st.LMCvel = s.LMCvel ∧
      (readBack d = s.bodytab ↔ 2 = 0 ∨ satelliteCtx.timestep = 0 ∨
        ∀ b ∈ satelliteState.bodytab,
          pull satelliteKernels satelliteCtx satelliteState.LMCpos b.pos = 0) := by
  have completes : ((plainStart fallingWorld satelliteCtx satelliteState).bind
      (plainSteps fallingWorld satelliteCtx steadyShift 2)).isSome = true := by
    decide +kernel
  obtain ⟨s, completes⟩ := Option.isSome_iff_exists.mp completes
  obtain ⟨s₀, start, run⟩ := Option.bind_eq_some_iff.mp completes
  obtain ⟨d, device⟩ :=
    nbStepSystemCL_LMC_iff sameAcceleration_satellite rfl unmarked_satellite start run
  exact ⟨s₀, s, d, start, run, device⟩

end MilkyWay.NBody
