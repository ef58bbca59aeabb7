import MilkyWay.Foundation.Leapfrog
import MilkyWay.NBody.StepCL

/-! The steps of both processors as leapfrogs. The bodies of a list are one point of a
vector space of phases; a step of the host is the leap there, a step on the graphics
processor the merged one. -/

namespace MilkyWay.NBody

open Foundation Foundation.Leapfrog

variable {R I H : Type} [Field R] [LinearOrder R] [IsStrictOrderedRing R]

/-! ## Lists as points -/

def column {α : Type} (f : α → Vec3 R) (l : List α) (i : ℕ) : Vec3 R := (l[i]?.map f).getD 0

section
omit [LinearOrder R] [IsStrictOrderedRing R]
variable {α : Type} (f : α → Vec3 R) {l l' : List α}

theorem column_lt {i : ℕ} (lt : i < l.length) : column f l i = f l[i] := by
  simp only [column, List.getElem?_eq_getElem lt, Option.map_some, Option.getD_some]

theorem column_ge {i : ℕ} (ge : l.length ≤ i) : column f l i = 0 := by
  simp only [column, List.getElem?_eq_none ge, Option.map_none, Option.getD_none]

theorem column_ext {g : ℕ → Vec3 R} (inside : ∀ i (lt : i < l.length), f l[i] = g i)
    (outside : ∀ i, l.length ≤ i → g i = 0) : column f l = g := by
  funext i
  by_cases lt : i < l.length
  · rw [column_lt f lt, inside i lt]
  · rw [column_ge f (by omega), outside i (by omega)]

theorem map_eq_of_column (length : l.length = l'.length) (same : column f l = column f l') :
    l.map f = l'.map f := by
  refine List.ext_getElem (by simp only [List.length_map, length]) fun i lt lt' => ?_
  rw [List.length_map] at lt lt'
  rw [List.getElem_map, List.getElem_map, ← column_lt f lt, ← column_lt f lt', same]

end

def Body.still (b : Body R) : Body R := { b with pos := 0, vel := 0 }

def phase (bodies : List (Body R)) : Phase (ℕ → Vec3 R) :=
  ⟨column Body.pos bodies, column Body.vel bodies⟩

def mergedCL (nbb : List (BodyCL R)) : Merged (ℕ → Vec3 R) :=
  ⟨column BodyCL.pos nbb, column BodyCL.vel nbb, column BodyCL.acc nbb⟩

omit [LinearOrder R] [IsStrictOrderedRing R] in
theorem bodies_eq_iff {bodies bodies' : List (Body R)}
    (still : bodies.map Body.still = bodies'.map Body.still) :
    bodies = bodies' ↔ phase bodies = phase bodies' := by
  constructor
  · rintro rfl
    rfl
  · intro same
    have length : bodies.length = bodies'.length := by
      have lengths := congrArg List.length still
      rwa [List.length_map, List.length_map] at lengths
    refine List.ext_getElem length fun i lt lt' => ?_
    have pos := congrFun (congrArg Phase.pos same) i
    have vel := congrFun (congrArg Phase.vel same) i
    have rest : (bodies.map Body.still)[i]? = (bodies'.map Body.still)[i]? := by rw [still]
    simp only [phase, column_lt _ lt, column_lt _ lt'] at pos vel
    simp only [List.getElem?_map, List.getElem?_eq_getElem lt, List.getElem?_eq_getElem lt',
      Option.map_some, Option.some.injEq, Body.still, Body.mk.injEq, true_and, and_true] at rest
    obtain ⟨next, mass, type, id⟩ := rest
    cases h : bodies[i]
    cases h' : bodies'[i]
    simp_all

def place (masses : List R) (x : ℕ → Vec3 R) : List (Vec3 R × R) :=
  masses.zipIdx.map fun (m, i) => (x i, m)

omit [LinearOrder R] [IsStrictOrderedRing R] in
theorem place_column {α : Type} (pos : α → Vec3 R) (mass : α → R) (l : List α) :
    place (l.map mass) (column pos l) = l.map fun b => (pos b, mass b) := by
  refine List.ext_getElem ?_ fun i lt lt' => ?_
  · simp only [place, List.length_map, List.length_zipIdx]
  · rw [List.length_map] at lt'
    simp only [place, List.getElem_map, List.getElem_zipIdx, zero_add, column_lt pos lt']

/-! ## The accelerations -/

def satelliteArgs (ctx : NBodyCtx R) (y : Vec3 R) : KernelArgs R :=
  if ctx.LMC then
    { nbSetKernelArguments with
      LMCpos := y, LMCmass := ctx.LMCmass, LMCscale := ctx.LMCscale, LMCbranching := -1024 }
  else nbSetKernelArguments

def accelerations (K : Kernels R) (ctx : NBodyCtx R) (y : Vec3 R) (pts : List (Vec3 R × R)) :
    List (Vec3 R) :=
  pts.zipIdx.map fun (p, i) => accelerationCL K ctx (satelliteArgs ctx y) pts i p.1

/-- Both processors use one function of the places for the accelerations. -/
def SameAcceleration (W : World R I H) (K : Kernels R) (ctx : NBodyCtx R) : Prop :=
  ∀ s rc t, nbGravMap W ctx s = some (rc, t) → nbStatusIsFatal rc.bits = false →
    t.acctab = accelerations K ctx s.LMCpos (points s.bodytab)

/-- The field of bodies with given masses and of the satellite at `y`, and the acceleration
`c` of the Milky Way. -/
def field (K : Kernels R) (ctx : NBodyCtx R) (masses : List R) (y c : Vec3 R)
    (x : ℕ → Vec3 R) : ℕ → Vec3 R :=
  column (· + c) (accelerations K ctx y (place masses x))

omit [IsStrictOrderedRing R] in
theorem length_accelerations (K : Kernels R) (ctx : NBodyCtx R) (y : Vec3 R)
    (pts : List (Vec3 R × R)) : (accelerations K ctx y pts).length = pts.length := by
  rw [accelerations, List.length_map, List.length_zipIdx]

omit [IsStrictOrderedRing R] in
theorem field_phase (K : Kernels R) (ctx : NBodyCtx R) (y c : Vec3 R) (bodies : List (Body R)) :
    field K ctx (bodies.map Body.mass) y c (phase bodies).pos =
      column (· + c) (accelerations K ctx y (points bodies)) := by
  rw [field, phase, place_column]
  rfl

def pointTree (pts : List (Vec3 R × R)) : TreeState R where
  tree := ⟨.null, 0, 0, 0, false⟩
  freeCell := .null
  bodytab i := match pts[i]? with
    | some p => { pos := p.1, mass := p.2, vel := 0 }
    | none => { pos := 0, mass := 0, vel := 0 }
  nbody := pts.length
  heap _ := ⟨0, .wild, 0, 0, .wild, .subp fun _ => .wild⟩
  heapTop := 0
  treeIncest := false

def hostKernels (W : World R I H) (ctx : NBodyCtx R) (toInt : R → ℤ) : Kernels R where
  gravity pts i := nbGravity_Exact W.B ctx (pointTree pts) i
  externalAcceleration pos := (nbExtAcceleration W.L W.K ctx.pot pos 0).getD 0
  L := W.L
  toInt

omit [LinearOrder R] [IsStrictOrderedRing R] in
theorem plummerLMCAcceleration_eq {L : Libm R} (square : ∀ x, L.pow x 2.0 = x * x)
    (pos pos1 : Vec3 R) (mass scale : R) :
    plummerLMCAcceleration L pos pos1 mass scale = plummerAccel L pos pos1 mass scale := by
  simp only [plummerLMCAcceleration, plummerAccel, mw_distv, square, sqr]
  ext <;> simp only [Vec3.smul_x, Vec3.smul_y, Vec3.smul_z, mul_comm]

theorem addExternal_hostKernels {W : World R I H} {ctx : NBodyCtx R} (toInt : R → ℤ)
    {st : NBodyState R} {pos a a' : Vec3 R} {i : ℕ} {failed : Bool}
    (notLua : ctx.potentialType ≠ .customLua) (rests : ctx.pot.disk2.type ≠ .orbitingBar)
    (square : ∀ x, W.L.pow x 2.0 = x * x)
    (gravity : a = nbGravity_Exact W.B ctx (treeState st) i)
    (run : addExternal W ctx st pos a = some (a', failed)) :
    a' = accelerationCL (hostKernels W ctx toInt) ctx (satelliteArgs ctx st.LMCpos)
      (points st.bodytab) i pos := by
  have marks : ((-1024 : R) != -125.0) = true := bne_iff_ne.mpr (by norm_num)
  have sum : (hostKernels W ctx toInt).gravity (points st.bodytab) i = a := gravity.symm
  unfold accelerationCL USE_EXTERNAL_POTENTIAL
  rw [sum]
  cases type : ctx.potentialType with
  | customLua => exact absurd type notLua
  | none =>
      simp only [addExternal, type, Option.some.injEq, Prod.mk.injEq] at run
      exact run.1.symm
  | default =>
      simp only [addExternal, type, Option.bind_eq_bind, Option.bind_eq_some_iff, Option.pure_def,
        Option.some.injEq, Prod.mk.injEq] at run
      obtain ⟨ext, accel, rfl, -⟩ := run
      rw [nbExtAcceleration_time rests pos _ 0] at accel
      simp only [decide_true, if_true, hostKernels, accel, Option.getD_some,
        plummerLMCAcceleration_eq square]
      by_cases satellite : ctx.LMC = true
      · simp only [satelliteArgs, lmc, satellite, if_true, marks, add_assoc]
      · have massless : (0.0 : R) = 0 := by norm_num
        simp only [satelliteArgs, lmc, satellite, if_false, nbSetKernelArguments,
          bne_self_eq_false, Bool.false_eq_true, plummerAccel, massless, zero_div, zero_smul,
          add_zero]

/-- The sum over all bodies is a function of the places. -/
theorem sameAcceleration_exact {W : World R I H} {ctx : NBodyCtx R} (toInt : R → ℤ)
    (exact_ : ctx.criterion = .exact) (notLua : ctx.potentialType ≠ .customLua)
    (rests : ctx.pot.disk2.type ≠ .orbitingBar) (square : ∀ x, W.L.pow x 2.0 = x * x) :
    SameAcceleration W (hostKernels W ctx toInt) ctx := by
  intro s rc t run calm
  have forces := (nbGravMap_exact exact_ run).1
  rw [nbMapForceBody_Exact, mapForce, Option.map_eq_some_iff] at forces
  obtain ⟨forces, made, rfl⟩ := forces
  refine map_of_mapM made fun p _ b made => ?_
  simp only [Option.bind_eq_bind, Option.bind_some, Option.bind_eq_some_iff, Option.pure_def,
    Option.some.injEq, Prod.exists] at made
  obtain ⟨a', failed, external, rfl⟩ := made
  exact addExternal_hostKernels toInt notLua rests square rfl external

/-! ## The step of the host -/

section
variable {st : NBodyState R} (length : st.acctab.length = st.bodytab.length) (dt : R) (c : Vec3 R)
include length

theorem phase_advancePosVel : phase (advancePosVel st dt c).bodytab =
    drift dt (column (· + c) st.acctab) (phase st.bodytab) := by
  have vel : column Body.vel (advancePosVel st dt c).bodytab =
      column Body.vel st.bodytab + (dt / 2) • column (· + c) st.acctab := by
    refine column_ext _ (fun i lt => ?_) fun i ge => ?_
    · simp only [advancePosVel, List.length_zipWith, lt_min_iff] at lt
      simp only [advancePosVel, List.getElem_zipWith, bodyAdvancePos, bodyAdvanceVel, half_mul,
        Pi.add_apply, Pi.smul_apply, column_lt _ lt.1, column_lt _ lt.2]
    · simp only [advancePosVel, List.length_zipWith, length, min_self] at ge
      simp only [Pi.add_apply, Pi.smul_apply, column_ge _ ge, column_ge _ (length.trans_le ge),
        smul_zero, add_zero]
  have pos : column Body.pos (advancePosVel st dt c).bodytab =
      column Body.pos st.bodytab + dt • column Body.vel (advancePosVel st dt c).bodytab := by
    refine column_ext _ (fun i lt => ?_) fun i ge => ?_
    · have inside := lt
      simp only [advancePosVel, List.length_zipWith, lt_min_iff] at inside
      rw [Pi.add_apply, Pi.smul_apply, column_lt _ lt, column_lt _ inside.1]
      simp only [advancePosVel, List.getElem_zipWith, bodyAdvancePos, bodyAdvanceVel]
    · have outside := ge
      simp only [advancePosVel, List.length_zipWith, length, min_self] at outside
      rw [Pi.add_apply, Pi.smul_apply, column_ge _ ge, column_ge _ outside, smul_zero, add_zero]
  rw [phase, pos, vel]
  rfl

theorem phase_advanceVelocities : phase (advanceVelocities st dt c).bodytab =
    ⟨(phase st.bodytab).pos,
      (phase st.bodytab).vel + (dt / 2) • column (· + c) st.acctab⟩ := by
  refine Phase.ext (column_ext _ (fun i lt => ?_) fun i ge => ?_)
    (column_ext _ (fun i lt => ?_) fun i ge => ?_)
  · simp only [advanceVelocities, List.length_zipWith, lt_min_iff] at lt
    simp only [advanceVelocities, List.getElem_zipWith, bodyAdvanceVel, phase,
      column_lt _ lt.1]
  · simp only [advanceVelocities, List.length_zipWith, length, min_self] at ge
    exact column_ge _ ge
  · simp only [advanceVelocities, List.length_zipWith, lt_min_iff] at lt
    simp only [advanceVelocities, List.getElem_zipWith, bodyAdvanceVel, half_mul, phase,
      Pi.add_apply, Pi.smul_apply, column_lt _ lt.1, column_lt _ lt.2]
  · simp only [advanceVelocities, List.length_zipWith, length, min_self] at ge
    simp only [phase, Pi.add_apply, Pi.smul_apply, column_ge _ ge,
      column_ge _ (length.trans_le ge), smul_zero, add_zero]

omit [LinearOrder R] [IsStrictOrderedRing R] in
theorem still_advancePosVel :
    (advancePosVel st dt c).bodytab.map Body.still = st.bodytab.map Body.still := by
  refine List.ext_getElem ?_ fun i lt lt' => ?_
  · simp only [advancePosVel, List.length_map, List.length_zipWith, length, min_self]
  · simp only [advancePosVel, List.getElem_map, List.getElem_zipWith, bodyAdvancePos,
      bodyAdvanceVel, Body.still]

omit [LinearOrder R] [IsStrictOrderedRing R] in
theorem still_advanceVelocities :
    (advanceVelocities st dt c).bodytab.map Body.still = st.bodytab.map Body.still := by
  refine List.ext_getElem ?_ fun i lt lt' => ?_
  · simp only [advanceVelocities, List.length_map, List.length_zipWith, length, min_self]
  · simp only [advanceVelocities, List.getElem_map, List.getElem_zipWith, bodyAdvanceVel,
      Body.still]

end

def moveSatellite (W : World R I H) (ctx : NBodyCtx R) (bar : R) (acc_i acc_i1 pos vel : Vec3 R) :
    Option (Vec3 R × Vec3 R) := do
  let acc ← accelLMC W.L W.K ctx pos vel bar
  let pos' := pos + ctx.timestep • vel
  let vel' := vel + (0.5 * ctx.timestep) • (acc + acc_i)
  let acc' ← accelLMC W.L W.K ctx pos' vel' bar
  return (pos', vel' + (0.5 * ctx.timestep) • (acc' + acc_i1))

structure Settled (K : Kernels R) (ctx : NBodyCtx R) (st : NBodyState R) : Prop where
  acctab : st.acctab = accelerations K ctx st.LMCpos (points st.bodytab)

structure HostStep (W : World R I H) (K : Kernels R) (ctx : NBodyCtx R) (acc_i acc_i1 : Vec3 R)
    (st s : NBodyState R) : Prop where
  phase : phase s.bodytab = Leapfrog.step ctx.timestep (column (· + acc_i) st.acctab)
    (field K ctx (st.bodytab.map Body.mass) s.LMCpos acc_i1) (phase st.bodytab)
  still : s.bodytab.map Body.still = st.bodytab.map Body.still
  settled : Settled K ctx s
  satellite : ctx.LMC = true → moveSatellite W ctx (barTime ctx st) acc_i acc_i1 st.LMCpos
    st.LMCvel = some (s.LMCpos, s.LMCvel)

omit [LinearOrder R] [IsStrictOrderedRing R] in
theorem mass_of_still {bodies bodies' : List (Body R)}
    (still : bodies.map Body.still = bodies'.map Body.still) :
    bodies.map Body.mass = bodies'.map Body.mass := by
  have masses := congrArg (List.map Body.mass) still
  rwa [List.map_map, List.map_map] at masses

omit [LinearOrder R] [IsStrictOrderedRing R] in
theorem points_of_pos {bodies bodies' : List (Body R)}
    (still : bodies.map Body.still = bodies'.map Body.still)
    (pos : (phase bodies).pos = (phase bodies').pos) : points bodies = points bodies' := by
  rw [points, points, ← place_column, ← place_column, mass_of_still still]
  exact congrArg (place _) pos

omit [IsStrictOrderedRing R] in
theorem Settled.length {K : Kernels R} {ctx : NBodyCtx R} {st : NBodyState R}
    (settled : Settled K ctx st) : st.acctab.length = st.bodytab.length := by
  rw [settled.acctab, length_accelerations, points, List.length_map]

theorem hostStep_of_run {W : World R I H} {K : Kernels R} {ctx : NBodyCtx R} {st s : NBodyState R}
    {acc_i acc_i1 : Vec3 R} {rc : NBodyStatus} (same : SameAcceleration W K ctx)
    (length : st.acctab.length = st.bodytab.length)
    (run : nbStepSystemPlain W ctx st acc_i acc_i1 = some (rc, s))
    (calm : nbStatusIsFatal rc.bits = false) : HostStep W K ctx acc_i acc_i1 st s := by
  obtain ⟨s₁, s₂, s₃, first, force, second, rfl⟩ := nbStepSystemPlain_cases run
  have acctab₂ := same s₁ rc s₂ force calm
  have frame := (nbGravMap_frame force).1
  have length₂ := (nbGravMap_frame force).2 calm
  have bodies₁ : s₁.bodytab = (advancePosVel st ctx.timestep acc_i).bodytab := by
    obtain ⟨-, rfl⟩ | ⟨-, _, -, rfl⟩ := moveLMC_cases first <;> rfl
  have bodies₂ : s₂.bodytab = s₁.bodytab := by rw [frame, withForces]
  have pos₂ : s₂.LMCpos = s₁.LMCpos := by rw [frame, withForces]
  have bodies₃ : s₃.bodytab = (advanceVelocities s₂ ctx.timestep acc_i1).bodytab := by
    obtain ⟨-, rfl⟩ | ⟨-, _, -, rfl⟩ := moveLMC_cases second <;> rfl
  have pos₃ : s₃.LMCpos = s₁.LMCpos := by
    obtain ⟨-, rfl⟩ | ⟨-, _, -, rfl⟩ := moveLMC_cases second <;> exact pos₂
  have acctab₃ : s₃.acctab = s₂.acctab := by
    obtain ⟨-, rfl⟩ | ⟨-, _, -, rfl⟩ := moveLMC_cases second <;> rfl
  have length₂' : s₂.acctab.length = s₂.bodytab.length := by rw [length₂, bodies₂]
  have drifted : phase s₁.bodytab =
      drift ctx.timestep (column (· + acc_i) st.acctab) (phase st.bodytab) := by
    rw [bodies₁, phase_advancePosVel length]
  have kicked := phase_advanceVelocities length₂' ctx.timestep acc_i1
  have still₁ : s₁.bodytab.map Body.still = st.bodytab.map Body.still := by
    rw [bodies₁, still_advancePosVel length]
  have still₃ : s₃.bodytab.map Body.still = s₁.bodytab.map Body.still := by
    rw [bodies₃, still_advanceVelocities length₂', bodies₂]
  have places : points s₃.bodytab = points s₁.bodytab := by
    refine points_of_pos still₃ ?_
    rw [bodies₃, kicked, bodies₂]
  refine ⟨?_, still₃.trans still₁, ⟨?_⟩, fun satellite => ?_⟩
  · show phase s₃.bodytab = _
    rw [bodies₃, kicked, bodies₂, acctab₂, ← mass_of_still still₁, ← pos₃, Leapfrog.step, kick,
      ← drifted, field_phase]
  · show s₃.acctab = accelerations K ctx s₃.LMCpos (points s₃.bodytab)
    rw [acctab₃, acctab₂, places, pos₃]
  · obtain ⟨no, -⟩ | ⟨-, acc, accel, rfl⟩ := moveLMC_cases first
    · exact absurd (satellite.symm.trans no) Bool.true_eq_false_eq_False
    · obtain ⟨no, -⟩ | ⟨-, acc', accel', rfl⟩ := moveLMC_cases second
      · exact absurd (satellite.symm.trans no) Bool.true_eq_false_eq_False
      · rw [frame] at accel' ⊢
        simp only [moveSatellite, Option.bind_eq_bind]
        rw [show accelLMC W.L W.K ctx st.LMCpos st.LMCvel (barTime ctx st) = some acc from accel,
          Option.bind_some]
        erw [accel']
        rfl

/-! ## The kernels -/

def ArgsOf (ctx : NBodyCtx R) (y : Vec3 R) (args : KernelArgs R) : Prop :=
  if ctx.LMC then
    args.LMCpos = y ∧ args.LMCmass = ctx.LMCmass ∧ args.LMCscale = ctx.LMCscale ∧
      args.LMCbranching ≠ -125.0
  else args.LMCbranching = -125.0

theorem accelerationCL_argsOf {K : Kernels R} {ctx : NBodyCtx R} {y : Vec3 R}
    {args : KernelArgs R} (satellite : ArgsOf ctx y args) (pts : List (Vec3 R × R)) (i : ℕ)
    (pos : Vec3 R) :
    accelerationCL K ctx args pts i pos = accelerationCL K ctx (satelliteArgs ctx y) pts i pos := by
  have marks : (-1024 : R) ≠ -125.0 := by norm_num
  unfold ArgsOf at satellite
  unfold satelliteArgs accelerationCL
  by_cases lmc : ctx.LMC = true
  · rw [if_pos lmc] at satellite ⊢
    obtain ⟨pos, mass, scale, branch⟩ := satellite
    simp only [pos, mass, scale, bne_iff_ne.mpr branch, bne_iff_ne.mpr marks, if_true]
  · rw [if_neg lmc] at satellite ⊢
    simp only [satellite, nbSetKernelArguments, bne_self_eq_false, Bool.false_eq_true, if_false]

section
omit [IsStrictOrderedRing R]
variable (K : Kernels R) (ctx : NBodyCtx R) (args : KernelArgs R) (nbb : List (BodyCL R))

theorem getElem?_forceCalculation (i : ℕ) : (forceCalculation K ctx args nbb)[i]? =
    nbb[i]?.map fun b => forceBody K ctx args (pointsCL nbb) b i := by
  rw [forceCalculation, List.getElem?_map, List.getElem?_zipIdx, Option.map_map]
  simp only [Function.comp_def, zero_add]

theorem getElem?_accelerations (y : Vec3 R) (pts : List (Vec3 R × R)) (i : ℕ) :
    (accelerations K ctx y pts)[i]? =
      pts[i]?.map fun p => accelerationCL K ctx (satelliteArgs ctx y) pts i p.1 := by
  rw [accelerations, List.getElem?_map, List.getElem?_zipIdx, Option.map_map]
  simp only [Function.comp_def, zero_add]

theorem mass_forceCalculation :
    (forceCalculation K ctx args nbb).map BodyCL.mass = nbb.map BodyCL.mass := by
  refine List.ext_getElem? fun i => ?_
  rw [List.getElem?_map, getElem?_forceCalculation, List.getElem?_map, Option.map_map]
  rfl

theorem pos_forceCalculation :
    column BodyCL.pos (forceCalculation K ctx args nbb) = column BodyCL.pos nbb := by
  funext i
  rw [column, getElem?_forceCalculation, Option.map_map]
  rfl

theorem mass_integration : (integration ctx args nbb).map BodyCL.mass = nbb.map BodyCL.mass := by
  rw [integration, List.map_map]
  rfl

end

theorem acc_forceCalculation (K : Kernels R) {ctx : NBodyCtx R} {args : KernelArgs R} {y : Vec3 R}
    (satellite : ArgsOf ctx y args) (nbb : List (BodyCL R)) (c : Vec3 R) :
    column (fun b => b.acc + c) (forceCalculation K ctx args nbb) =
      field K ctx (nbb.map BodyCL.mass) y c (column BodyCL.pos nbb) := by
  funext i
  rw [field, place_column, column, column, getElem?_forceCalculation, getElem?_accelerations,
    List.getElem?_map, Option.map_map, Option.map_map, Option.map_map]
  simp only [Function.comp_def, forceBody, accelerationCL_argsOf satellite, pointsCL]

theorem acc_forceCalculation_zero (K : Kernels R) {ctx : NBodyCtx R} {args : KernelArgs R}
    {y : Vec3 R} (satellite : ArgsOf ctx y args) (nbb : List (BodyCL R)) :
    column BodyCL.acc (forceCalculation K ctx args nbb) =
      field K ctx (nbb.map BodyCL.mass) y 0 (column BodyCL.pos nbb) := by
  have acc := acc_forceCalculation K satellite nbb 0
  simpa only [add_zero] using acc

theorem mergedCL_forceCalculation (K : Kernels R) {ctx : NBodyCtx R} {args : KernelArgs R}
    (lmc : ctx.LMC = false) (branch : args.LMCbranching = -125.0) (update : args.updateVel = true)
    (y : Vec3 R) (nbb : List (BodyCL R)) : mergedCL (forceCalculation K ctx args nbb) =
      correct ctx.timestep (field K ctx (nbb.map BodyCL.mass) y 0) (mergedCL nbb) := by
  have satellite : ArgsOf ctx y args := by
    rw [ArgsOf, lmc]
    exact branch
  have acc := acc_forceCalculation_zero K satellite nbb
  refine Merged.ext (pos_forceCalculation K ctx args nbb) (funext fun i => ?_) acc
  have acc := congrFun acc i
  rw [column, getElem?_forceCalculation, Option.map_map] at acc
  show column BodyCL.vel (forceCalculation K ctx args nbb) i = column BodyCL.vel nbb i +
    (ctx.timestep / 2) • (field K ctx (nbb.map BodyCL.mass) y 0 (column BodyCL.pos nbb) i -
      column BodyCL.acc nbb i)
  rw [← acc, column, column, column, getElem?_forceCalculation, Option.map_map]
  cases nbb[i]? with
  | none => simp
  | some b => simp [forceBody, branch, update, half_mul]

theorem mergedCL_integration {ctx : NBodyCtx R} {args : KernelArgs R}
    (branch : args.LMCbranching = -125.0) (nbb : List (BodyCL R)) :
    mergedCL (integration ctx args nbb) = integrate ctx.timestep (mergedCL nbb) := by
  refine Merged.ext (funext fun i => ?_) (funext fun i => ?_) (funext fun i => ?_)
  all_goals
    simp only [mergedCL, integrate, integration, Pi.add_apply, Pi.smul_apply, column,
      List.getElem?_map]
    cases nbb[i]? with
    | none => simp
    | some b => simp [integrationBody, branch, half_mul]

end MilkyWay.NBody
