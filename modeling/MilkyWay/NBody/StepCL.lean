import MilkyWay.NBody.Plain

/-! A step on the graphics processor: the kernels that compute the forces and integrate,
the host code that sets their arguments and launches them, and the copies between the
bodies of the host and the buffers. -/

namespace MilkyWay.NBody

open Foundation

variable {R I H : Type} [Zero R] [Add R] [Neg R] [Sub R] [Mul R] [Div R] [OfScientific R] [BEq R]
  [LT R] [DecidableLT R] [LE R] [DecidableLE R] [NatCast R] [IntCast R]

structure BodyCL (R : Type) where
  pos : Vec3 R
  vel : Vec3 R
  acc : Vec3 R
  mass : R
deriving DecidableEq

/-- The arguments of a kernel that the host sets more than once; they stay as they are
set until they are set again. -/
structure KernelArgs (R : Type) where
  updateVel : Bool
  LMCpos : Vec3 R
  LMCmass : R
  LMCscale : R
  LMCacci1 : Vec3 R
  LMCbranching : R

/-- What the kernels compute with: the gravity on a body of the points, from their tree
or as a sum, the potential, the library's functions and the conversion to an integer. -/
structure Kernels (R : Type) where
  gravity : List (Vec3 R × R) → ℕ → Vec3 R
  externalAcceleration : Vec3 R → Vec3 R
  L : Libm R
  toInt : R → ℤ

def plummerLMCAcceleration (L : Libm R) (pos pos1 : Vec3 R) (mass scale : R) : Vec3 R :=
  let v := pos1 - pos
  let dist := L.sqrt (sqr (pos.x - pos1.x) + sqr (pos.y - pos1.y) + sqr (pos.z - pos1.z))
  let tmp := L.sqrt (sqr scale + sqr dist)
  let scalar := mass / L.pow tmp 3.0
  ⟨v.x * scalar, v.y * scalar, v.z * scalar⟩

def USE_EXTERNAL_POTENTIAL (ctx : NBodyCtx R) : Bool :=
  decide (ctx.potentialType = .default)

def accelerationCL (K : Kernels R) (ctx : NBodyCtx R) (args : KernelArgs R)
    (pts : List (Vec3 R × R)) (i : ℕ) (pos : Vec3 R) : Vec3 R :=
  let a := K.gravity pts i
  if USE_EXTERNAL_POTENTIAL ctx then
    let acc := K.externalAcceleration pos
    let accLMC := plummerLMCAcceleration K.L pos args.LMCpos args.LMCmass args.LMCscale
    if args.LMCbranching != -125.0 then a + acc + accLMC else a + acc
  else a

/-- The force kernel on one body: the velocity is corrected by the change of the
acceleration. -/
def forceBody (K : Kernels R) (ctx : NBodyCtx R) (args : KernelArgs R) (pts : List (Vec3 R × R))
    (b : BodyCL R) (i : ℕ) : BodyCL R :=
  let a := accelerationCL K ctx args pts i b.pos
  { b with
    acc := a
    vel := if args.LMCbranching == -125.0 && args.updateVel then
        b.vel + (0.5 * ctx.timestep) • (a - b.acc)
      else b.vel }

def pointsCL (nbb : List (BodyCL R)) : List (Vec3 R × R) := nbb.map fun b => (b.pos, b.mass)

def forceCalculation (K : Kernels R) (ctx : NBodyCtx R) (args : KernelArgs R)
    (nbb : List (BodyCL R)) : List (BodyCL R) :=
  nbb.zipIdx.map fun (b, i) => forceBody K ctx args (pointsCL nbb) b i

/-- The integration kernel on one body. Without a satellite it makes both half kicks;
with one it makes the first and drifts, or makes the second. -/
def integrationBody (ctx : NBodyCtx R) (args : KernelArgs R) (b : BodyCL R) : BodyCL R :=
  let a := if args.LMCbranching != -125.0 then b.acc + args.LMCacci1 else b.acc
  let dv := (0.5 * ctx.timestep) • a
  let v := b.vel + dv
  let p := b.pos + ctx.timestep • v
  { b with
    pos := if args.LMCbranching == -125.0 || args.LMCbranching != -1024.0 then p else b.pos
    vel := if args.LMCbranching == -125.0 then v + dv else v }

def integration (ctx : NBodyCtx R) (args : KernelArgs R) (nbb : List (BodyCL R)) :
    List (BodyCL R) :=
  nbb.map (integrationBody ctx args)

/-! ## The host -/

structure StateCL (R : Type) where
  st : NBodyState R
  nbb : List (BodyCL R)
  forceArgs : KernelArgs R
  integrationArgs : KernelArgs R

/-- The arguments before the first step. -/
def nbSetKernelArguments : KernelArgs R where
  updateVel := false
  LMCpos := ⟨0.0, 0.0, 0.0⟩
  LMCmass := 0.0
  LMCscale := 0.0
  LMCacci1 := ⟨0.0, 0.0, 0.0⟩
  LMCbranching := -125.0

/-- Copy the bodies to the buffers, whose accelerations are zero. -/
def nbMarshalIn (bodytab : List (Body R)) : List (BodyCL R) :=
  bodytab.map fun b => ⟨b.pos, b.vel, 0, b.mass⟩

def nbInitCL (st : NBodyState R) : StateCL R where
  st := { st with dirty := false }
  nbb := nbMarshalIn st.bodytab
  forceArgs := nbSetKernelArguments
  integrationArgs := nbSetKernelArguments

/-- Copy the bodies from the buffers, unless the host's are up to date. -/
def nbMarshalBodies (d : StateCL R) : StateCL R :=
  if d.st.dirty then
    let copy := fun (b : Body R) (c : BodyCL R) =>
      { b with pos := c.pos, vel := c.vel, mass := c.mass }
    { d with st := { d.st with bodytab := List.zipWith copy d.st.bodytab d.nbb, dirty := false } }
  else d

def nbExecuteForceKernels (K : Kernels R) (ctx : NBodyCtx R) (d : StateCL R)
    (updateState : Bool) : StateCL R :=
  let nbb := forceCalculation K ctx d.forceArgs d.nbb
  { d with nbb := if updateState then integration ctx d.integrationArgs nbb else nbb }

def setLMCArgs (ctx : NBodyCtx R) (st : NBodyState R) (acc_i : Vec3 R) (massBranch : ℤ)
    (args : KernelArgs R) : KernelArgs R := { args with
  LMCpos := st.LMCpos
  LMCmass := ctx.LMCmass
  LMCscale := ctx.LMCscale
  LMCacci1 := acc_i
  LMCbranching := (massBranch : R) }

def nbExecuteForceKernelsLMC (K : Kernels R) (ctx : NBodyCtx R) (d : StateCL R) (acc_i : Vec3 R)
    (massBranch : ℤ) (updateState : Bool) : StateCL R :=
  nbExecuteForceKernels K ctx { d with
    forceArgs := setLMCArgs ctx d.st acc_i massBranch d.forceArgs
    integrationArgs := setLMCArgs ctx d.st acc_i massBranch d.integrationArgs } updateState

def nbRunIntegrationKernel (ctx : NBodyCtx R) (d : StateCL R) (acc_i : Vec3 R)
    (massBranch : ℤ) : StateCL R :=
  let args := setLMCArgs ctx d.st acc_i massBranch d.integrationArgs
  { d with nbb := integration ctx args d.nbb, integrationArgs := args }

def nbStepSystemCL (K : Kernels R) (ctx : NBodyCtx R) (d : StateCL R) : StateCL R :=
  nbExecuteForceKernels K ctx { d with st := { d.st with dirty := true } } true

/-- A step with the satellite, which the host moves. -/
def nbStepSystemCL_LMC (W : World R I H) (K : Kernels R) (ctx : NBodyCtx R) (d : StateCL R)
    (acc_i acc_i1 : Vec3 R) : Option (StateCL R) := do
  let dt := ctx.timestep
  let bar := barTime ctx d.st
  let d := nbRunIntegrationKernel ctx d acc_i (K.toInt ctx.LMCmass)
  let acc_LMC ← accelLMC W.L W.K ctx d.st.LMCpos d.st.LMCvel bar
  let d := { d with st := { advancePosVel_LMC d.st dt acc_LMC acc_i with dirty := true } }
  let d := nbExecuteForceKernelsLMC K ctx d acc_i1 (-1024) true
  let acc_LMC ← accelLMC W.L W.K ctx d.st.LMCpos d.st.LMCvel bar
  return { d with st := advanceVelocities_LMC d.st dt acc_LMC acc_i1 }

/-- Compute the accelerations only; all later steps are real ones. -/
def nbRunPreStep (K : Kernels R) (ctx : NBodyCtx R) (d : StateCL R) : StateCL R :=
  let d := { d with forceArgs := { d.forceArgs with updateVel := false } }
  let d := nbExecuteForceKernels K ctx d false
  { d with forceArgs := { d.forceArgs with updateVel := true } }

end MilkyWay.NBody
