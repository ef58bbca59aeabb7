import Mathlib.Analysis.SpecialFunctions.Sqrt
import Mathlib.Analysis.Calculus.Deriv.Inv
import MilkyWay.Foundation.Rotation

/-! Gradients of functions of a point, by their derivatives along curves, and the
divergence of a field. The rules for gradients are those for derivatives; the divergence of
a central field is that of its flux, and rotations keep the divergence. Poisson's equation for
functions of the distance says how the flux of a potential through a sphere grows by the mass
there; the constant in it is any. -/

namespace MilkyWay.Foundation

open Filter Topology

structure Curve (γ : ℝ → Vec3 ℝ) (v : Vec3 ℝ) (t : ℝ) : Prop where
  x : HasDerivAt (fun s => (γ s).x) v.x t
  y : HasDerivAt (fun s => (γ s).y) v.y t
  z : HasDerivAt (fun s => (γ s).z) v.z t

def HasGradient (f : Vec3 ℝ → ℝ) (g p : Vec3 ℝ) : Prop :=
  ∀ γ v t, Curve γ v t → γ t = p →
    HasDerivAt (fun s => f (γ s)) (g.x * v.x + g.y * v.y + g.z * v.z) t

def HasDivergence (F : Vec3 ℝ → Vec3 ℝ) (d : ℝ) (p : Vec3 ℝ) : Prop :=
  ∃ dx dy dz, HasDerivAt (fun t => (F ⟨t, p.y, p.z⟩).x) dx p.x ∧
    HasDerivAt (fun t => (F ⟨p.x, t, p.z⟩).y) dy p.y ∧
    HasDerivAt (fun t => (F ⟨p.x, p.y, t⟩).z) dz p.z ∧ dx + dy + dz = d

def HasGradients (F : Vec3 ℝ → Vec3 ℝ) (d : ℝ) (p : Vec3 ℝ) : Prop :=
  ∃ gx gy gz, HasGradient (fun q => (F q).x) gx p ∧ HasGradient (fun q => (F q).y) gy p ∧
    HasGradient (fun q => (F q).z) gz p ∧ gx.x + gy.y + gz.z = d

def Near (P : Vec3 ℝ → Prop) (p : Vec3 ℝ) : Prop :=
  ∀ γ v t, Curve γ v t → γ t = p → ∀ᶠ s in 𝓝 t, P (γ s)

/-! ## Curves -/

theorem curve_x (p : Vec3 ℝ) : Curve (fun t => ⟨t, p.y, p.z⟩) ⟨1, 0, 0⟩ p.x :=
  ⟨hasDerivAt_id _, hasDerivAt_const _ _, hasDerivAt_const _ _⟩

theorem curve_y (p : Vec3 ℝ) : Curve (fun t => ⟨p.x, t, p.z⟩) ⟨0, 1, 0⟩ p.y :=
  ⟨hasDerivAt_const _ _, hasDerivAt_id _, hasDerivAt_const _ _⟩

theorem curve_z (p : Vec3 ℝ) : Curve (fun t => ⟨p.x, p.y, t⟩) ⟨0, 0, 1⟩ p.z :=
  ⟨hasDerivAt_const _ _, hasDerivAt_const _ _, hasDerivAt_id _⟩

theorem Curve.rotateZ {γ : ℝ → Vec3 ℝ} {v : Vec3 ℝ} {t : ℝ} (curve : Curve γ v t) (θ : ℝ) :
    Curve (fun s => rotateZ θ (γ s)) (rotateZ θ v) t :=
  ⟨(curve.x.const_mul _).sub (curve.y.const_mul _),
    (curve.x.const_mul _).add (curve.y.const_mul _), curve.z⟩

/-! ## Gradients -/

section
variable {f h : Vec3 ℝ → ℝ} {g k p : Vec3 ℝ}

theorem HasGradient.congr_grad (gradient : HasGradient f g p) (same : g = k) :
    HasGradient f k p := same ▸ gradient

theorem hasGradient_x (p : Vec3 ℝ) : HasGradient (fun q => q.x) ⟨1, 0, 0⟩ p :=
  fun _ _ _ curve _ => curve.x.congr_deriv (by ring)

theorem hasGradient_y (p : Vec3 ℝ) : HasGradient (fun q => q.y) ⟨0, 1, 0⟩ p :=
  fun _ _ _ curve _ => curve.y.congr_deriv (by ring)

theorem hasGradient_z (p : Vec3 ℝ) : HasGradient (fun q => q.z) ⟨0, 0, 1⟩ p :=
  fun _ _ _ curve _ => curve.z.congr_deriv (by ring)

theorem hasGradient_const (c : ℝ) (p : Vec3 ℝ) : HasGradient (fun _ => c) 0 p :=
  fun _ _ t _ _ => (hasDerivAt_const t c).congr_deriv (by simp)

theorem HasGradient.add (first : HasGradient f g p) (second : HasGradient h k p) :
    HasGradient (fun q => f q + h q) (g + k) p := fun γ v t curve at_p =>
  ((first γ v t curve at_p).add (second γ v t curve at_p)).congr_deriv (by
    simp only [Vec3.add_x, Vec3.add_y, Vec3.add_z]
    ring)

theorem HasGradient.sub (first : HasGradient f g p) (second : HasGradient h k p) :
    HasGradient (fun q => f q - h q) (g - k) p := fun γ v t curve at_p =>
  ((first γ v t curve at_p).sub (second γ v t curve at_p)).congr_deriv (by
    simp only [Vec3.sub_x, Vec3.sub_y, Vec3.sub_z]
    ring)

theorem HasGradient.mul (first : HasGradient f g p) (second : HasGradient h k p) :
    HasGradient (fun q => f q * h q) (h p • g + f p • k) p := by
  intro γ v t curve at_p
  refine ((first γ v t curve at_p).mul (second γ v t curve at_p)).congr_deriv ?_
  simp only [Vec3.add_x, Vec3.add_y, Vec3.add_z, Vec3.smul_x, Vec3.smul_y, Vec3.smul_z, at_p]
  ring

theorem HasGradient.const_mul (gradient : HasGradient f g p) (c : ℝ) :
    HasGradient (fun q => c * f q) (c • g) p :=
  ((hasGradient_const c p).mul gradient).congr_grad (by simp)

theorem HasGradient.comp {φ : ℝ → ℝ} {φ' : ℝ} (outer : HasDerivAt φ φ' (f p))
    (inner : HasGradient f g p) : HasGradient (fun q => φ (f q)) (φ' • g) p := by
  intro γ v t curve at_p
  rw [← at_p] at outer
  refine (outer.comp t (inner γ v t curve at_p)).congr_deriv ?_
  simp only [Vec3.smul_x, Vec3.smul_y, Vec3.smul_z]
  ring

theorem HasGradient.sq (gradient : HasGradient f g p) :
    HasGradient (fun q => f q ^ 2) ((2 * f p) • g) p :=
  gradient.comp ((hasDerivAt_pow 2 (f p)).congr_deriv (by simp))

theorem HasGradient.inv (gradient : HasGradient f g p) (nonzero : f p ≠ 0) :
    HasGradient (fun q => (f q)⁻¹) (-(f p ^ 2)⁻¹ • g) p :=
  gradient.comp (hasDerivAt_inv nonzero)

theorem HasGradient.invCube (gradient : HasGradient f g p) (nonzero : f p ≠ 0) :
    HasGradient (fun q => (f q ^ 3)⁻¹) ((-3 / f p ^ 4) • g) p := by
  have outer : HasDerivAt (fun s : ℝ => (s ^ 3)⁻¹) (-3 / f p ^ 4) (f p) := by
    refine ((hasDerivAt_pow 3 (f p)).inv (pow_ne_zero 3 nonzero)).congr_deriv ?_
    field_simp
    ring
  exact HasGradient.comp (φ := fun s => (s ^ 3)⁻¹) outer gradient

theorem HasGradient.sqrt (gradient : HasGradient f g p) (positive : 0 < f p) :
    HasGradient (fun q => √(f q)) ((2 * √(f p))⁻¹ • g) p :=
  gradient.comp ((Real.hasDerivAt_sqrt positive.ne').congr_deriv (one_div _))

namespace HasGradients
variable {F G : Vec3 ℝ → Vec3 ℝ} {d e : ℝ}

theorem sub (first : HasGradients F d p) (second : HasGradients G e p) :
    HasGradients (fun q => F q - G q) (d - e) p := by
  obtain ⟨gx, gy, gz, x, y, z, rfl⟩ := first
  obtain ⟨kx, ky, kz, x', y', z', rfl⟩ := second
  refine ⟨_, _, _, x.sub x', y.sub y', z.sub z', ?_⟩
  simp only [Vec3.sub_x, Vec3.sub_y, Vec3.sub_z]
  ring

theorem congr_sum (gradients : HasGradients F d p) (same : d = e) : HasGradients F e p :=
  same ▸ gradients

theorem smul (gradients : HasGradients F d p) (c : ℝ) :
    HasGradients (fun q => c • F q) (c * d) p := by
  obtain ⟨gx, gy, gz, x, y, z, rfl⟩ := gradients
  refine ⟨_, _, _, x.const_mul c, y.const_mul c, z.const_mul c, ?_⟩
  simp only [Vec3.smul_x, Vec3.smul_y, Vec3.smul_z]
  ring

end HasGradients

theorem HasGradient.near (gradient : HasGradient f g p) {U : Set ℝ} (around : U ∈ 𝓝 (f p)) :
    Near (fun q => f q ∈ U) p := by
  intro γ v t curve at_p
  have continuous := (gradient γ v t curve at_p).continuousAt
  subst at_p
  exact continuous.eventually around

theorem Near.mono {P Q : Vec3 ℝ → Prop} (near : Near P p) (imp : ∀ q, P q → Q q) : Near Q p :=
  fun γ v t curve at_p => (near γ v t curve at_p).mono fun s => imp (γ s)

theorem Near.and {P Q : Vec3 ℝ → Prop} (first : Near P p) (second : Near Q p) :
    Near (fun q => P q ∧ Q q) p :=
  fun γ v t curve at_p => (first γ v t curve at_p).and (second γ v t curve at_p)

end

noncomputable def Vec3.norm (p : Vec3 ℝ) : ℝ := √p.normSq

theorem Vec3.norm_sq (p : Vec3 ℝ) : p.norm ^ 2 = p.x ^ 2 + p.y ^ 2 + p.z ^ 2 := by
  have nonneg : 0 ≤ p.normSq := add_nonneg (add_nonneg (mul_self_nonneg _) (mul_self_nonneg _))
    (mul_self_nonneg _)
  rw [Vec3.norm, Real.sq_sqrt nonneg, Vec3.normSq]
  ring

theorem hasGradient_norm {p : Vec3 ℝ} (far : 0 < p.norm) :
    HasGradient Vec3.norm (p.norm⁻¹ • p) p := by
  have square : HasGradient Vec3.normSq ((2 : ℝ) • p) p := by
    refine ((((hasGradient_x p).mul (hasGradient_x p)).add
      ((hasGradient_y p).mul (hasGradient_y p))).add
      ((hasGradient_z p).mul (hasGradient_z p))).congr_grad ?_
    ext <;> simp <;> ring
  refine (square.sqrt (Real.sqrt_pos.mp far)).congr_grad ?_
  rw [smul_smul, mul_inv, Vec3.norm]
  congr 1
  ring

/-! ## Divergences -/

namespace HasDivergence
variable {F G : Vec3 ℝ → Vec3 ℝ} {d e : ℝ} {p gx gy gz : Vec3 ℝ}

theorem of_gradients (x : HasGradient (fun q => (F q).x) gx p)
    (y : HasGradient (fun q => (F q).y) gy p) (z : HasGradient (fun q => (F q).z) gz p)
    (sum : gx.x + gy.y + gz.z = d) : HasDivergence F d p := by
  refine ⟨_, _, _, x _ _ _ (curve_x p) rfl, y _ _ _ (curve_y p) rfl, z _ _ _ (curve_z p) rfl, ?_⟩
  rw [← sum]
  ring

theorem zero (p : Vec3 ℝ) : HasDivergence (fun _ => 0) 0 p :=
  ⟨0, 0, 0, hasDerivAt_const _ _, hasDerivAt_const _ _, hasDerivAt_const _ _, by ring⟩

theorem add (first : HasDivergence F d p) (second : HasDivergence G e p) :
    HasDivergence (fun q => F q + G q) (d + e) p := by
  obtain ⟨dx, dy, dz, x, y, z, rfl⟩ := first
  obtain ⟨ex, ey, ez, x', y', z', rfl⟩ := second
  exact ⟨_, _, _, x.add x', y.add y', z.add z', by ring⟩

theorem congr (divergence : HasDivergence F d p) (same : Near (fun q => G q = F q) p) :
    HasDivergence G d p := by
  obtain ⟨dx, dy, dz, x, y, z, sum⟩ := divergence
  refine ⟨dx, dy, dz, x.congr_of_eventuallyEq ?_, y.congr_of_eventuallyEq ?_,
    z.congr_of_eventuallyEq ?_, sum⟩
  · exact (same _ _ _ (curve_x p) rfl).mono fun t eq => congrArg Vec3.x eq
  · exact (same _ _ _ (curve_y p) rfl).mono fun t eq => congrArg Vec3.y eq
  · exact (same _ _ _ (curve_z p) rfl).mono fun t eq => congrArg Vec3.z eq

theorem central {c : ℝ → ℝ} (far : 0 < p.norm)
    (flux : HasDerivAt (fun s => s ^ 3 * c s) (d * p.norm ^ 2) p.norm) :
    HasDivergence (fun q => c q.norm • q) d p := by
  have cubed : p.norm ^ 3 ≠ 0 := pow_ne_zero 3 far.ne'
  -- the factor is the flux for the cube of the distance
  have factor : HasDerivAt c ((d - 3 * c p.norm) / p.norm) p.norm := by
    have quotient := flux.fun_div (hasDerivAt_pow 3 p.norm) cubed
    refine (quotient.congr_deriv ?_).congr_of_eventuallyEq ?_
    · field_simp
      norm_num
      ring
    · filter_upwards [lt_mem_nhds far] with s positive
      field_simp
  have scaled := (hasGradient_norm far).comp factor
  refine of_gradients (scaled.mul (hasGradient_x p)) (scaled.mul (hasGradient_y p))
    (scaled.mul (hasGradient_z p)) ?_
  have square := p.norm_sq
  simp only [Vec3.add_x, Vec3.add_y, Vec3.add_z, Vec3.smul_x, Vec3.smul_y, Vec3.smul_z]
  field_simp
  linear_combination -(d - 3 * c p.norm) * square

theorem rotated {θ : ℝ} (gradients : HasGradients F d (rotateZ (-θ) p)) :
    HasDivergence (fun q => rotateZ θ (F (rotateZ (-θ) q))) d p := by
  obtain ⟨gx, gy, gz, x, y, z, rfl⟩ := gradients
  have along_x := (curve_x p).rotateZ (-θ)
  have along_y := (curve_y p).rotateZ (-θ)
  have along_z := (curve_z p).rotateZ (-θ)
  refine ⟨_, _, _, ((x _ _ _ along_x rfl).const_mul (Real.cos θ)).sub
      ((y _ _ _ along_x rfl).const_mul (Real.sin θ)),
    ((x _ _ _ along_y rfl).const_mul (Real.sin θ)).add
      ((y _ _ _ along_y rfl).const_mul (Real.cos θ)), z _ _ _ along_z rfl, ?_⟩
  have unit := Real.cos_sq_add_sin_sq θ
  simp only [rotateZ_neg]
  linear_combination (gx.x + gy.y) * unit

end HasDivergence

/-! ## Functions of the distance -/

/-- A potential, counted positive, and a density at a distance. -/
structure RadialPoisson (π : ℝ) (ψ ρ : ℝ → ℝ) (r : ℝ) : Prop where
  potential : DifferentiableAt ℝ ψ r
  flux : DifferentiableAt ℝ (fun s => s ^ 2 * deriv ψ s) r
  laplacian : 1 / r ^ 2 * deriv (fun s => s ^ 2 * deriv ψ s) r = -4 * π * ρ r

theorem RadialPoisson.of_hasDerivAt {π : ℝ} {ψ ρ : ℝ → ℝ} {r : ℝ} (ψ' : ℝ → ℝ) (positive : 0 < r)
    (slope : ∀ s, 0 < s → HasDerivAt ψ (ψ' s) s)
    (flux : HasDerivAt (fun s => s ^ 2 * ψ' s) (-4 * π * ρ r * r ^ 2) r) :
    RadialPoisson π ψ ρ r := by
  have near : (fun s => s ^ 2 * deriv ψ s) =ᶠ[nhds r] fun s => s ^ 2 * ψ' s := by
    filter_upwards [lt_mem_nhds positive] with s far
    rw [(slope s far).deriv]
  have same := flux.congr_of_eventuallyEq near
  refine ⟨(slope r positive).differentiableAt, same.differentiableAt, ?_⟩
  rw [same.deriv]
  field_simp

theorem hasDerivAt_softened (a : ℝ) {r : ℝ} (positive : 0 < r) :
    HasDerivAt (fun s => √(s ^ 2 + a ^ 2)) (r / √(r ^ 2 + a ^ 2)) r := by
  have square : HasDerivAt (fun s : ℝ => s ^ 2 + a ^ 2) (2 * r) r := by
    simpa using (hasDerivAt_pow 2 r).add_const (a ^ 2)
  refine (square.sqrt (by positivity)).congr_deriv ?_
  rw [mul_div_mul_left _ _ two_ne_zero]

end MilkyWay.Foundation
