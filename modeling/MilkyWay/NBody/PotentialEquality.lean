import MilkyWay.NBody.ExponentialDisks
import MilkyWay.NBody.PotentialAgreement

/-! The comparison of potentials against what they do. It leaves fields out: the scales
of a disk, which it compares with themselves, the speed and angle of a bar, and two
constants of a halo. Where the kinds in place do not read these, or they agree,
potentials that compare equal accelerate alike. -/

namespace MilkyWay.NBody

open Foundation

section
variable {R : Type} [BEq R]

/-- Numbers compare as usual, and what is not a number compares equal. -/
def feqWithNan (a b : R) : Bool := if (a != a) && (b != b) then true else a == b

def equalDisk (d1 d2 : Disk R) : Bool :=
  decide (d1.type = d2.type) && feqWithNan d1.mass d2.mass &&
    feqWithNan d1.scaleLength d1.scaleLength && feqWithNan d1.scaleHeight d1.scaleHeight

def equalHalo (h1 h2 : Halo R) : Bool :=
  decide (h1.type = h2.type) && feqWithNan h1.vhalo h2.vhalo && feqWithNan h1.mass h2.mass &&
    feqWithNan h1.scaleLength h2.scaleLength && feqWithNan h1.flattenZ h2.flattenZ &&
    feqWithNan h1.flattenY h2.flattenY && feqWithNan h1.flattenX h2.flattenX &&
    feqWithNan h1.triaxAngle h2.triaxAngle && feqWithNan h1.c1 h2.c1 && feqWithNan h1.c2 h2.c2 &&
    feqWithNan h1.c3 h2.c3 && feqWithNan h1.rho0 h2.rho0

def equalSpherical (s1 s2 : Spherical R) : Bool :=
  decide (s1.type = s2.type) && feqWithNan s1.mass s2.mass && feqWithNan s1.scale s2.scale

def equalPotential (p1 p2 : Potential R) : Bool :=
  equalSpherical p1.sphere p2.sphere && equalDisk p1.disk p2.disk &&
    equalDisk p1.disk2 p2.disk2 && equalHalo p1.halo p2.halo

theorem feqWithNan_iff [LawfulBEq R] {a b : R} : feqWithNan a b = true ↔ a = b := by
  simp only [feqWithNan, bne_self_eq_false, Bool.and_self, Bool.false_eq_true, if_false,
    beq_iff_eq]

theorem equalDisk_iff [LawfulBEq R] {d1 d2 : Disk R} :
    equalDisk d1 d2 = true ↔ d1.type = d2.type ∧ d1.mass = d2.mass := by
  simp only [equalDisk, Bool.and_eq_true, decide_eq_true_eq, feqWithNan_iff, and_true]

theorem equalSpherical_iff [LawfulBEq R] {s1 s2 : Spherical R} :
    equalSpherical s1 s2 = true ↔ s1 = s2 := by
  cases s1
  cases s2
  simp only [equalSpherical, Bool.and_eq_true, decide_eq_true_eq, feqWithNan_iff,
    Spherical.mk.injEq, and_assoc]

theorem equalHalo_iff [LawfulBEq R] {h1 h2 : Halo R} :
    equalHalo h1 h2 = true ↔ h1 = { h2 with gamma := h1.gamma, lambda := h1.lambda } := by
  cases h1
  cases h2
  simp only [equalHalo, Bool.and_eq_true, decide_eq_true_eq, feqWithNan_iff, Halo.mk.injEq]
  grind

/-! ## What the comparison does not see -/

/-- The fields that the acceleration of a disk reads and the comparison leaves out. -/
def Disk.unseen (d : Disk R) : List R :=
  match d.type with
  | .miyamotoNagai | .doubleExponential | .sech2Exponential => [d.scaleLength, d.scaleHeight]
  | .freeman => [d.scaleLength]
  | .orbitingBar => [d.scaleLength, d.patternSpeed, d.startAngle]
  | .none | .invalid => []

def Halo.unseen (h : Halo R) : List R :=
  match h.type with
  | .allenSantillan => [h.gamma, h.lambda]
  | .ninkovic => [h.lambda]
  | _ => []

/-- The fields left out agree; a bar in the first place is not evaluated at all. -/
structure SameUnseen (p q : Potential R) : Prop where
  disk : p.disk.type ≠ .orbitingBar → p.disk.unseen = q.disk.unseen
  disk2 : p.disk2.unseen = q.disk2.unseen
  halo : p.halo.unseen = q.halo.unseen

end

section
variable {R : Type} [Zero R] [Add R] [Neg R] [Sub R] [Mul R] [Div R] [OfScientific R] [BEq R]
  [LawfulBEq R] [LT R] [DecidableLT R] [LE R] [DecidableLE R] [NatCast R] [IntCast R]
variable {L : BesselLibm R} {caustic : Vec3 R → R → Vec3 R} {K : Components R} {p q : Potential R}

omit [LE R] [DecidableLE R] in
theorem diskAccel_equal {d d' : Disk R} (same : equalDisk d d' = true)
    (unseen : d.type ≠ .orbitingBar → d.unseen = d'.unseen) (pos : Vec3 R) (r : R) :
    diskAccel (nbComponents L.toLogLibm (hostAccels L caustic) K) d pos r =
      diskAccel (nbComponents L.toLogLibm (hostAccels L caustic) K) d' pos r := by
  obtain ⟨type, mass⟩ := equalDisk_iff.mp same
  unfold diskAccel
  rw [← type]
  cases kind : d.type with
  | none | invalid | orbitingBar => rfl
  | miyamotoNagai =>
    have fields := unseen (by simp [kind])
    simp only [Disk.unseen, kind, ← type, List.cons.injEq, and_true] at fields
    simp only [nbComponents, miyamotoNagaiDiskAccel, mass, fields]
  | freeman =>
    have fields := unseen (by simp [kind])
    simp only [Disk.unseen, kind, ← type, List.cons.injEq, and_true] at fields
    simp only [nbComponents, freemanDiskAccel, mass, fields]
  | doubleExponential =>
    have fields := unseen (by simp [kind])
    simp only [Disk.unseen, kind, ← type, List.cons.injEq, and_true] at fields
    simp only [nbComponents, hostAccels, doubleExponentialDiskAccel, mass, fields]
  | sech2Exponential =>
    have fields := unseen (by simp [kind])
    simp only [Disk.unseen, kind, ← type, List.cons.injEq, and_true] at fields
    simp only [nbComponents, hostAccels, sech2ExponentialDiskAccel, mass, fields]

omit [LE R] [DecidableLE R] in
theorem disk2Accel_equal {d d' : Disk R} (same : equalDisk d d' = true)
    (unseen : d.unseen = d'.unseen) (pos : Vec3 R) (r time : R) :
    disk2Accel L.toLibm (nbComponents L.toLogLibm (hostAccels L caustic) K) d pos r time =
      disk2Accel L.toLibm (nbComponents L.toLogLibm (hostAccels L caustic) K) d' pos r time := by
  obtain ⟨type, mass⟩ := equalDisk_iff.mp same
  by_cases bar : d.type = .orbitingBar
  · have bar' : d'.type = .orbitingBar := type ▸ bar
    simp only [Disk.unseen, bar, bar', List.cons.injEq, and_true] at unseen
    simp only [disk2Accel, bar, bar', orbitingBarAccel, barAngle, mass, unseen]
  · have bar' : d'.type ≠ .orbitingBar := type ▸ bar
    rw [disk2Accel_rests bar, disk2Accel_rests bar']
    exact diskAccel_equal same (fun _ => unseen) pos r

omit [LE R] [DecidableLE R] in
theorem haloAccel_equal {h h' : Halo R} (same : equalHalo h h' = true)
    (unseen : h.unseen = h'.unseen) (pos : Vec3 R) (r : R) :
    haloAccel (nbComponents L.toLogLibm (hostAccels L caustic) K) h pos r =
      haloAccel (nbComponents L.toLogLibm (hostAccels L caustic) K) h' pos r := by
  rw [equalHalo_iff.mp same] at unseen ⊢
  generalize h.gamma = γ at *
  generalize h.lambda = l at *
  unfold haloAccel
  cases kind : h'.type with
  | allenSantillan =>
    simp only [Halo.unseen, kind, List.cons.injEq, and_true] at unseen
    simp only [nbComponents, ASHaloAccel, unseen]
  | ninkovic =>
    simp only [Halo.unseen, kind, List.cons.injEq, and_true] at unseen
    simp only [nbComponents, ninkovicHaloAccel, unseen]
  | none | invalid | logarithmic | nfw | triaxial | caustic | wilkinsonEvans | nfwMass | plummer
    | hernquist => rfl

/-- Potentials that compare equal and agree in what the comparison does not see have the
same acceleration everywhere and at all times. -/
theorem nbExtAcceleration_equalPotential (same : equalPotential p q = true)
    (unseen : SameUnseen p q) (pos : Vec3 R) (time : R) :
    nbExtAcceleration L.toLibm (nbComponents L.toLogLibm (hostAccels L caustic) K) p pos time =
      nbExtAcceleration L.toLibm (nbComponents L.toLogLibm (hostAccels L caustic) K) q pos time := by
  simp only [equalPotential, Bool.and_eq_true, and_assoc] at same
  obtain ⟨sphere, disk, disk2, halo⟩ := same
  simp only [nbExtAcceleration, equalSpherical_iff.mp sphere, diskAccel_equal disk unseen.disk,
    disk2Accel_equal disk2 unseen.disk2, haloAccel_equal halo unseen.halo]

end

/-- The real functions; those of Bessel are not evaluated below. -/
noncomputable def realBesselLibm : BesselLibm ℝ :=
  { realLibm with
    sinh := Real.sinh, cosh := Real.cosh, besselJ0 := 0, besselJ1 := 0, besselJ2 := 0,
    besselI0 := 0, besselI1 := 0, besselK0 := 0, besselK1 := 0, besselJ0_zero := 0,
    besselJ1_zero := 0, aExp := 0, bExp := 0 }

/-- A Miyamoto–Nagai disk of a scale length. -/
noncomputable def diskPotential (scaleLength : ℝ) : Potential ℝ :=
  ⟨⟨.none, 0, 0⟩, ⟨.miyamotoNagai, 1, scaleLength, 1, 0, 0⟩, ⟨.none, 0, 0, 0, 0, 0⟩,
    ⟨.none, 0, 0, 0, 0, 0, 0, 0, 0, 0, 0, 0, 0, 0⟩⟩

noncomputable def diskAcceleration (scaleLength : ℝ) (pos : Vec3 ℝ) : Option (Vec3 ℝ) :=
  nbExtAcceleration realBesselLibm.toLibm
    (nbComponents realBesselLibm.toLogLibm (hostAccels realBesselLibm fun _ _ => 0) noComponents)
    (diskPotential scaleLength) pos 0

theorem nbExtAcceleration_equalPotential_disk :
    diskAcceleration 1 ⟨1, 0, 0⟩ = nbExtAcceleration realBesselLibm.toLibm
      (nbComponents realBesselLibm.toLogLibm (hostAccels realBesselLibm fun _ _ => 0) noComponents)
      { diskPotential 1 with disk := { (diskPotential 1).disk with startAngle := 3 } } ⟨1, 0, 0⟩ 0 :=
  nbExtAcceleration_equalPotential (by simp [equalPotential, equalDisk, equalSpherical, equalHalo,
    feqWithNan, diskPotential]) ⟨fun _ => rfl, rfl, rfl⟩ ⟨1, 0, 0⟩ 0

theorem diskAcceleration_x (scaleLength : ℝ) :
    (diskAcceleration scaleLength ⟨1, 0, 0⟩).map Vec3.x =
      some (-1 / √((1 + (scaleLength + 1) ^ 2) ^ 3)) := by
  have value : diskAcceleration scaleLength ⟨1, 0, 0⟩ = some (miyamotoNagaiDiskAccel
      realLibm.toLibm (diskPotential scaleLength).disk ⟨1, 0, 0⟩ + 0 + 0 + 0) := rfl
  have height : √(0 * 0 + 1 * 1) = 1 := by norm_num
  rw [value, add_zero, add_zero, add_zero, Option.map_some, miyamotoNagaiDiskAccel]
  simp only [realLibm_powers.two, realLibm_powers.half, diskPotential, sqr]
  rw [realLibm_powers.threeHalves (add_nonneg (add_nonneg (mul_self_nonneg _)
    (mul_self_nonneg _)) (mul_self_nonneg _))]
  simp only [realLibm_powers.sqrt, height, cube]
  congr 3
  · ring
  · ring

/-- The scale length of a disk is compared with itself. -/
theorem equalPotential_scaleLength :
    equalPotential (diskPotential 1) (diskPotential 2) = true ∧
      diskAcceleration 1 ⟨1, 0, 0⟩ ≠ diskAcceleration 2 ⟨1, 0, 0⟩ := by
  refine ⟨by simp [equalPotential, equalDisk, equalSpherical, equalHalo, feqWithNan,
    diskPotential], fun same => ?_⟩
  have first := congrArg (Option.map Vec3.x) same
  rw [diskAcceleration_x, diskAcceleration_x, Option.some.injEq] at first
  norm_num at first
  have roots : √(125 : ℝ) = √1000 := by
    have inverses := congrArg (fun x : ℝ => -1 / x) first
    simpa only [div_div_eq_mul_div, neg_mul, one_mul, neg_div_neg_eq, div_one, neg_neg,
      div_neg, neg_inj] using inverses
  rw [Real.sqrt_inj (by norm_num) (by norm_num)] at roots
  norm_num at roots

end MilkyWay.NBody
