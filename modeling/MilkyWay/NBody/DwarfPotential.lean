import MilkyWay.Foundation.Gradient
import MilkyWay.NBody.PotentialAgreement

/-! The components of a dwarf galaxy: the potential, counted positive, and the density at
a distance. They satisfy Poisson's equation. -/

namespace MilkyWay.NBody

open Foundation

inductive DwarfType where
  | plummer
  | nfw
  | general_hernquist
  | einasto
  | invalid
deriving DecidableEq

structure Dwarf (R : Type) where
  type : DwarfType
  mass : R
  scaleLength : R
  n : R
  p0 : R
  r200 : R

structure DwarfLibm (R : Type) extends LogLibm R where
  cbrt : R → R
  acos : R → R
  M_PI : R

section
variable {R : Type} [Add R] [Mul R] [Div R] [OfScientific R]

def inv (x : R) : R := 1.0 / x

def minusfivehalves (L : Libm R) (x : R) : R := inv (L.sqrt (x * x * x * x * x))

def plummer_den (L : DwarfLibm R) (model : Dwarf R) (r : R) : R :=
  let mass := model.mass
  let rscale := model.scaleLength
  3.0 / (4.0 * L.M_PI) * (mass / cube rscale) * minusfivehalves L.toLibm (1.0 + sqr (r / rscale))

def plummer_pot (L : DwarfLibm R) (model : Dwarf R) (r : R) : R :=
  let mass := model.mass
  let rscale := model.scaleLength
  mass / L.sqrt (sqr r + sqr rscale)

def nfw_den (model : Dwarf R) (r : R) : R :=
  let rscale := model.scaleLength
  let p0 := model.p0
  let R' := r / rscale
  p0 * inv R' * inv (sqr (1.0 + R'))

def nfw_pot (L : DwarfLibm R) (model : Dwarf R) (r : R) : R :=
  let rscale := model.scaleLength
  let p0 := model.p0
  let R' := r / rscale
  4.0 * L.M_PI * sqr rscale * p0 * inv R' * L.log (1.0 + R')

def gen_hern_den (L : DwarfLibm R) (model : Dwarf R) (r : R) : R :=
  let mass := model.mass
  let rscale := model.scaleLength
  inv (2.0 * L.M_PI) * mass * rscale / (r * cube (r + rscale))

def gen_hern_pot (model : Dwarf R) (r : R) : R :=
  let mass := model.mass
  let rscale := model.scaleLength
  mass / (r + rscale)

/-- The potential; other kinds fail. -/
def get_potential (L : DwarfLibm R) (model : Dwarf R) (r : R) : Option R :=
  match model.type with
  | .plummer => some (plummer_pot L model r)
  | .nfw => some (nfw_pot L model r)
  | .general_hernquist => some (gen_hern_pot model r)
  | .einasto | .invalid => none

def get_density (L : DwarfLibm R) (model : Dwarf R) (r : R) : Option R :=
  match model.type with
  | .plummer => some (plummer_den L model r)
  | .nfw => some (nfw_den model r)
  | .general_hernquist => some (gen_hern_den L model r)
  | .einasto | .invalid => none

end

/-- The kinds of components that have a potential. -/
def DwarfType.Supported (type : DwarfType) : Prop :=
  type = .plummer ∨ type = .nfw ∨ type = .general_hernquist

/-! ## Poisson's equation -/

/-- The roots and the logarithm are those of the reals. -/
structure RealDwarfLibm (L : DwarfLibm ℝ) : Prop where
  sqrt (x : ℝ) : L.sqrt x = Real.sqrt x
  cbrt (x : ℝ) : cube (L.cbrt x) = x
  log (x : ℝ) : L.log x = Real.log x
  M_PI : 0 < L.M_PI

open Foundation.Numerals in
noncomputable def realDwarfLibm : DwarfLibm ℝ :=
  { realLibm with
    cbrt := fun x => SignType.sign x * |x| ^ (1 / 3 : ℝ)
    acos := Real.arccos
    M_PI := 3.14159265358979323846 }

theorem realDwarfLibm_real : RealDwarfLibm realDwarfLibm where
  sqrt _ := rfl
  cbrt x := by
    have root : (|x| ^ (1 / 3 : ℝ)) ^ 3 = |x| := by
      rw [← Real.rpow_natCast, ← Real.rpow_mul (abs_nonneg x)]
      norm_num
    have sign : (SignType.sign x : ℝ) ^ 3 = SignType.sign x := by
      cases SignType.sign x <;> norm_num
    calc cube (SignType.sign x * |x| ^ (1 / 3 : ℝ))
        = (SignType.sign x : ℝ) ^ 3 * (|x| ^ (1 / 3 : ℝ)) ^ 3 := by
          rw [cube]
          ring
      _ = x := by rw [root, sign, sign_mul_abs]
  log _ := rfl
  M_PI := by
    simp only [realDwarfLibm]
    norm_num

variable {L : DwarfLibm ℝ} {model : Dwarf ℝ} {r : ℝ}

theorem minusfivehalves_eq (real : RealDwarfLibm L) {x : ℝ} (nonneg : 0 ≤ x) :
    minusfivehalves L.toLibm x = 1 / √x ^ 5 := by
  have square : x * x * x * x * x = (√x ^ 5) ^ 2 := by
    rw [← pow_mul, mul_comm 5 2, pow_mul, Real.sq_sqrt nonneg]
    ring
  rw [minusfivehalves, inv, real.sqrt, square, Real.sqrt_sq (by positivity)]
  norm_num

theorem plummer_den_eq (real : RealDwarfLibm L) (scaled : 0 < model.scaleLength) (r : ℝ) :
    plummer_den L model r = 3 / (4 * L.M_PI) * (model.mass * model.scaleLength ^ 2) /
      √(r ^ 2 + model.scaleLength ^ 2) ^ 5 := by
  have nonneg : (0 : ℝ) ≤ 1.0 + sqr (r / model.scaleLength) :=
    add_nonneg (by norm_num) (mul_self_nonneg _)
  have softened : 1.0 + sqr (r / model.scaleLength) =
      (r ^ 2 + model.scaleLength ^ 2) / model.scaleLength ^ 2 := by
    norm_num [sqr]
    field_simp
    ring
  have positive : 0 < √(r ^ 2 + model.scaleLength ^ 2) := Real.sqrt_pos.mpr (by positivity)
  have pi := real.M_PI
  rw [plummer_den, minusfivehalves_eq real nonneg, softened, Real.sqrt_div (by positivity),
    Real.sqrt_sq scaled.le, cube]
  norm_num
  field_simp

theorem plummer_poisson (real : RealDwarfLibm L) (scaled : 0 < model.scaleLength)
    (positive : 0 < r) :
    RadialPoisson L.M_PI (plummer_pot L model) (plummer_den L model) r := by
  have potential : plummer_pot L model =
      fun s => model.mass * (√(s ^ 2 + model.scaleLength ^ 2))⁻¹ := by
    funext s
    rw [plummer_pot, real.sqrt, sqr, sqr, ← sq, ← sq, div_eq_mul_inv]
  have root (s : ℝ) : 0 < √(s ^ 2 + model.scaleLength ^ 2) := Real.sqrt_pos.mpr (by positivity)
  have square (s : ℝ) := Real.sq_sqrt (show 0 ≤ s ^ 2 + model.scaleLength ^ 2 by positivity)
  rw [potential]
  apply RadialPoisson.of_hasDerivAt (fun s => -model.mass *
    (s / √(s ^ 2 + model.scaleLength ^ 2) ^ 3)) positive
  · intro s far
    refine (((hasDerivAt_softened _ far).inv (root s).ne').const_mul _).congr_deriv ?_
    have := root s
    field_simp
  · have flux : HasDerivAt (fun s => -model.mass *
        (s ^ 3 / √(s ^ 2 + model.scaleLength ^ 2) ^ 3)) _ r :=
      ((hasDerivAt_pow 3 r).fun_div ((hasDerivAt_softened model.scaleLength positive).fun_pow 3)
        (pow_ne_zero 3 (root r).ne')).const_mul _
    refine (flux.congr_deriv ?_).congr_of_eventuallyEq (.of_eq ?_)
    · have pi := real.M_PI
      have far := root r
      have radius := square r
      rw [plummer_den_eq real scaled]
      generalize √(r ^ 2 + model.scaleLength ^ 2) = q at *
      field_simp
      norm_num
      linear_combination 3 * model.mass * r ^ 2 * q ^ 2 * radius
    · funext s
      ring

theorem nfw_den_eq (scaled : 0 < model.scaleLength) (r : ℝ) :
    nfw_den model r =
      model.p0 * model.scaleLength ^ 3 / (r * (model.scaleLength + r) ^ 2) := by
  have shape : 1.0 + r / model.scaleLength = (model.scaleLength + r) / model.scaleLength := by
    norm_num
    field_simp
  rw [nfw_den, shape]
  simp only [inv, sqr]
  norm_num
  field_simp

theorem hasDerivAt_logScaled {a : ℝ} (scaled : 0 < a) (positive : 0 < r) :
    HasDerivAt (fun s => Real.log (1 + s / a)) (1 / (a + r)) r := by
  have line : HasDerivAt (fun s : ℝ => 1 + s / a) (1 / a) r :=
    ((hasDerivAt_id r).div_const a).const_add 1
  refine (line.log (by positivity)).congr_deriv ?_
  field_simp

theorem nfw_poisson (real : RealDwarfLibm L) (scaled : 0 < model.scaleLength)
    (positive : 0 < r) : RadialPoisson L.M_PI (nfw_pot L model) (nfw_den model) r := by
  let a := model.scaleLength
  let k := 4 * L.M_PI * a ^ 3 * model.p0
  have scaled' : 0 < a := scaled
  have potential : nfw_pot L model = fun s => k * (Real.log (1 + s / a) / s) := by
    funext s
    have one : (1.0 : ℝ) = 1 := by norm_num
    rw [nfw_pot, real.log, inv, sqr, one, one_div_div]
    norm_num [k, a]
    ring
  rw [potential]
  apply RadialPoisson.of_hasDerivAt (fun s => k *
    ((1 / (a + s) * s - Real.log (1 + s / a)) / s ^ 2)) positive
  · intro s far
    exact (((hasDerivAt_logScaled scaled' far).fun_div (hasDerivAt_id s) far.ne').const_mul
      k).congr_deriv (by simp)
  · have line : HasDerivAt (fun s : ℝ => a + s) 1 r := (hasDerivAt_id r).const_add a
    have sum : a + r ≠ 0 := (add_pos scaled positive).ne'
    have flux : HasDerivAt (fun s => k * (s / (a + s) - Real.log (1 + s / a))) _ r :=
      (((hasDerivAt_id r).fun_div line sum).sub (hasDerivAt_logScaled scaled' positive)).const_mul k
    refine (flux.congr_deriv ?_).congr_of_eventuallyEq ?_
    · rw [nfw_den_eq scaled]
      simp only [k, a, id] at *
      field_simp
      ring
    · filter_upwards [lt_mem_nhds positive] with s far
      field_simp

theorem gen_hern_den_eq (real : RealDwarfLibm L) (r : ℝ) :
    gen_hern_den L model r = model.mass * model.scaleLength / (2 * L.M_PI) /
      (r * (r + model.scaleLength) ^ 3) := by
  have pi := real.M_PI
  rw [gen_hern_den, inv, cube]
  norm_num
  field_simp

theorem gen_hern_poisson (real : RealDwarfLibm L) (scaled : 0 < model.scaleLength)
    (positive : 0 < r) :
    RadialPoisson L.M_PI (gen_hern_pot model) (gen_hern_den L model) r := by
  have line (s : ℝ) : HasDerivAt (fun s : ℝ => s + model.scaleLength) 1 s :=
    (hasDerivAt_id s).add_const _
  apply RadialPoisson.of_hasDerivAt (fun s => -model.mass / (s + model.scaleLength) ^ 2)
    positive
  · intro s far
    have sum : s + model.scaleLength ≠ 0 := (add_pos far scaled).ne'
    exact ((hasDerivAt_const s model.mass).fun_div (line s) sum).congr_deriv (by simp)
  · have sum : r + model.scaleLength ≠ 0 := (add_pos positive scaled).ne'
    have flux : HasDerivAt (fun s => s ^ 2 * (-model.mass / (s + model.scaleLength) ^ 2)) _ r :=
      (hasDerivAt_pow 2 r).fun_mul ((hasDerivAt_const r (-model.mass)).fun_div
        ((line r).fun_pow 2) (pow_ne_zero 2 sum))
    refine flux.congr_deriv ?_
    have pi := real.M_PI
    rw [gen_hern_den_eq real]
    norm_num
    field_simp
    ring

/-- The potential and the density of every supported component belong together. -/
theorem get_potential_poisson (real : RealDwarfLibm L) (model : Dwarf ℝ)
    (supported : model.type.Supported) (scaled : 0 < model.scaleLength) :
    ∃ ψ ρ : ℝ → ℝ, (∀ r, get_potential L model r = some (ψ r)) ∧
      (∀ r, get_density L model r = some (ρ r)) ∧
      ∀ r, 0 < r → RadialPoisson L.M_PI ψ ρ r := by
  unfold get_potential get_density
  obtain kind | kind | kind := supported <;> rw [kind]
  · exact ⟨_, _, fun _ => rfl, fun _ => rfl, fun _ => plummer_poisson real scaled⟩
  · exact ⟨_, _, fun _ => rfl, fun _ => rfl, fun _ => nfw_poisson real scaled⟩
  · exact ⟨_, _, fun _ => rfl, fun _ => rfl, fun _ => gen_hern_poisson real scaled⟩

theorem get_potential_poisson_nfw :
    ∃ ψ ρ : ℝ → ℝ, (∀ r, get_potential realDwarfLibm ⟨.nfw, 1, 1, 0, 1, 0⟩ r = some (ψ r)) ∧
      (∀ r, get_density realDwarfLibm ⟨.nfw, 1, 1, 0, 1, 0⟩ r = some (ρ r)) ∧
      ∀ r, 0 < r → RadialPoisson realDwarfLibm.M_PI ψ ρ r :=
  get_potential_poisson realDwarfLibm_real ⟨.nfw, 1, 1, 0, 1, 0⟩ (.inr (.inl rfl)) one_pos

end MilkyWay.NBody
