import MilkyWay.Foundation.Octree
import MilkyWay.Foundation.Cube

/-! The data of the n-body code: bodies, cells and their tree, the potential, the
context of a run and the status codes. Memory is a table of bodies and a heap of
cells addressed by numbers; a pointer to a node says which of the two it is in. -/

namespace MilkyWay.NBody

open Foundation

abbrev NodePtr := Ref ℕ ℕ

structure Body (R : Type) where
  pos : Vec3 R
  next : NodePtr := .wild
  mass : R
  type : ℤ := 1
  id : ℕ := 0
  vel : Vec3 R
deriving DecidableEq

structure NBodyQuadMatrix (R : Type) where
  xx : R
  xy : R
  xz : R
  yy : R
  yz : R
  zz : R

inductive Stuff (R : Type) where
  | subp (sub : Fin 8 → NodePtr)
  | quad (m : NBodyQuadMatrix R)

structure NBodyCell (R : Type) where
  pos : Vec3 R
  next : NodePtr
  mass : R
  rcrit2 : R
  more : NodePtr
  stuff : Stuff R

inductive Criterion where
  | treeCode
  | sw93
  | bh86
  | exact
  | invalid
deriving DecidableEq

inductive ExternalPotentialType where
  | default
  | none
  | customLua
deriving DecidableEq

inductive SphericalType where
  | none
  | hernquist
  | plummer
  | invalid
deriving DecidableEq

structure Spherical (R : Type) where
  type : SphericalType
  mass : R
  scale : R

inductive DiskType where
  | none
  | miyamotoNagai
  | freeman
  | doubleExponential
  | sech2Exponential
  | orbitingBar
  | invalid
deriving DecidableEq

structure Disk (R : Type) where
  type : DiskType
  mass : R
  scaleLength : R
  scaleHeight : R
  patternSpeed : R
  startAngle : R

inductive HaloType where
  | none
  | logarithmic
  | nfw
  | triaxial
  | caustic
  | allenSantillan
  | wilkinsonEvans
  | nfwMass
  | plummer
  | hernquist
  | ninkovic
  | invalid
deriving DecidableEq

structure Halo (R : Type) where
  type : HaloType
  vhalo : R
  scaleLength : R
  flattenZ : R
  flattenY : R
  flattenX : R
  triaxAngle : R
  c1 : R
  c2 : R
  c3 : R
  mass : R
  gamma : R
  lambda : R
  rho0 : R

structure Potential (R : Type) where
  sphere : Spherical R
  disk : Disk R
  disk2 : Disk R
  halo : Halo R

structure NBodyCtx (R : Type) where
  eps2 : R
  theta : R
  timestep : R
  timeEvolve : R
  treeRSize : R
  criterion : Criterion
  potentialType : ExternalPotentialType
  useBestLike : Bool := false
  useVelDisp : Bool := false
  useBetaDisp : Bool := false
  useBetaComp : Bool := false
  useVlos : Bool := false
  useDist : Bool := false
  useQuad : Bool := false
  allowIncest : Bool := false
  BestLikeStart : R
  LMC : Bool := false
  LMCmass : R
  LMCscale : R
  LMCDynaFric : Bool := false
  coulomb_log : R
  nStep : ℕ
  pot : Potential R

structure NBodyTree (R : Type) where
  root : NodePtr
  rsize : R
  cellUsed : ℕ
  maxDepth : ℕ
  structureError : Bool

/-- The part of the state that holds the tree: the bodies and their links, the
cells ever allocated (all below `heapTop`) and the list of free ones. -/
structure TreeState (R : Type) where
  tree : NBodyTree R
  freeCell : NodePtr
  bodytab : ℕ → Body R
  nbody : ℕ
  heap : ℕ → NBodyCell R
  heapTop : ℕ
  treeIncest : Bool

/-- What the build supplies: whether assertions are compiled out, the precision,
the square root and the quadrupole that the bits of eight pointers read as. -/
structure Build (R : Type) where
  ndebug : Bool
  epsilon : R
  sqrt : R → R
  asReal : (Fin 8 → NodePtr) → NBodyQuadMatrix R

def Build.assert {R : Type} (B : Build R) (p : Prop) [Decidable p] : Option Unit :=
  if B.ndebug ∨ p then some () else none

inductive NBodyStatus where
  | success
  | treeStructureError
  | treeIncestFatal
  | treeIncestNonfatal
  | luaPotentialError
  | checkpointError
deriving DecidableEq

end MilkyWay.NBody
