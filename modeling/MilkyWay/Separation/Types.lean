import MilkyWay.Foundation.Cube
import MilkyWay.Foundation.Kahan

/-! The data of the separation program: the parameters, the areas that are integrated,
the constants of the streams and the state of an evaluation. -/

namespace MilkyWay.Separation

open Foundation

/-- Functions of the mathematical library. -/
structure Libm (R : Type) where
  sqrt : R → R
  exp : R → R
  exp10 : R → R
  log10 : R → R
  sin : R → R
  cos : R → R
  asin : R → R
  atan2 : R → R → R
  powr : R → R → R
  isnan : R → Bool

inductive BackgroundProfile
  | slowHernquist
  | fastHernquist
  | brokenPowerLaw
deriving DecidableEq

structure BackgroundParameters (R : Type) where
  innerPower : R
  q : R
  outerPower : R
  epsilon : R
  a : R
  b : R
  c : R
deriving DecidableEq

structure StreamParameters (R : Type) where
  epsilon : R
  mu : R
  r : R
  theta : R
  phi : R
  sigma : R
  epsilonExp : R
deriving DecidableEq

structure Streams (R : Type) where
  parameters : List (StreamParameters R)
  sumExpWeights : R
deriving DecidableEq

structure AstronomyParameters (R : Type) where
  params_per_workunit : ℕ
  currentWU : ℕ
  totalWUs : ℕ
  m_sun_r0 : R
  q_inv : R
  q_inv_sqr : R
  r0 : R
  convolve : ℕ
  number_streams : ℕ
  background_profile : BackgroundProfile
  aux_bg_profile : Bool
  innerPower : R
  outerPower : R
  alpha_delta3 : R
  bg_a : R
  bg_b : R
  bg_c : R
  wedge : ℤ
  sun_r0 : R
  q : R
  modfit : Bool
  number_integrals : ℕ
  background_weight : R
  thick_disk_weight : R
deriving DecidableEq

structure IntegralArea (R : Type) where
  r_min : R
  r_step_size : R
  nu_min : R
  nu_step_size : R
  mu_min : R
  mu_step_size : R
  r_steps : ℕ
  nu_steps : ℕ
  mu_steps : ℕ
deriving DecidableEq

structure StreamConstants (R : Type) where
  a : Vec3 R
  c : Vec3 R
  sigma_sq2_inv : R
  large_sigma : Bool
deriving DecidableEq

structure StreamGauss (R : Type) where
  dx : ℕ → R
  qgaus_W : ℕ → R

structure LB (R : Type) where
  l : R
  b : R

structure LBTrig (R : Type) where
  lCosBCos : R
  lSinBCos : R
  bSin : R
deriving DecidableEq

structure NuId (R : Type) where
  nu : R
  id : R

structure RConsts (R : Type) where
  irv_reff_xr_rp3 : R
  gPrime : R
  coeff : R
  stdev_r : R
  eps : R

structure RPoints (R : Type) where
  r_point : R
  qw_r3_N : R

structure Cut (R : Type) where
  bgIntegral : R
  streamIntegrals : List R
deriving DecidableEq

/-- The state of an evaluation; there is a cut for each integral and a sum for each
stream. -/
structure EvaluationState (R : Type) where
  currentWU : ℕ
  WUPrinted : Bool
  cuts : List (Cut R)
  nu_step : ℕ
  mu_step : ℕ
  bgSum : Kahan R
  streamSums : List (Kahan R)
  bgSumCheckpoint : Kahan R
  streamSumsCheckpoint : List (Kahan R)
  lastCheckpointNuStep : ℕ
  currentCut : ℕ
deriving DecidableEq

structure SeparationResults (R : Type) where
  likelihood : R
  backgroundIntegral : R
  backgroundLikelihood : R
  streamIntegrals : List R
  streamLikelihoods : List R
deriving DecidableEq

def MAX_CONVOLVE : ℕ := 256

/-- What a function for the probabilities at a point is given and what it gives: the
background and each stream. -/
abbrev ProbabilityFunc (R : Type) :=
  AstronomyParameters R → List (StreamConstants R) → (ℕ → R) → (ℕ → R) → (ℕ → R) → LBTrig R →
    R → R → R × List R

section
variable {R : Type} [Mul R] [Add R]

def sqr (x : R) : R := x * x

def cube (x : R) : R := x * x * x

def mw_dotv (a b : Vec3 R) : R := a.z * b.z + (a.y * b.y + a.x * b.x)

def mw_sqrv (a : Vec3 R) : R := a.z * a.z + (a.y * a.y + a.x * a.x)

end

section
variable {R : Type} [Zero R] [Neg R] [LT R] [DecidableLT R]

def mw_fabs (x : R) : R := if x < 0 then -x else x

end

def filled {α : Type*} (columns : ℕ) (f : ℕ → ℕ → α) : ℕ → α := fun idx =>
  f (idx / columns) (idx % columns)

theorem filled_apply {α : Type*} {columns j : ℕ} (f : ℕ → ℕ → α) (i : ℕ) (lt : j < columns) :
    filled columns f (i * columns + j) = f i j := by
  have positive : 0 < columns := Nat.lt_of_le_of_lt j.zero_le lt
  rw [filled, Nat.mul_comm, Nat.mul_add_div positive, Nat.div_eq_of_lt lt, Nat.add_zero,
    Nat.mul_add_mod, Nat.mod_eq_of_lt lt]

end MilkyWay.Separation
