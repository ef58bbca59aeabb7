import MilkyWay.Foundation.Polar
import MilkyWay.Separation.Kernel
import MilkyWay.Separation.SetUp
import MilkyWay.Separation.Sse2

/-! One mapping from the sky to points around the galactic centre is written with a distance
in the plane, with the trigonometric values of a direction, for two points at a time and in the
kernel. These agree, and the coordinates on the sky of a point give the point. -/

namespace MilkyWay.Separation

open Foundation

section
variable {F : Type} [Field F] [LinearOrder F]

open Foundation.Numerals in
/-- The identities of the functions of angles; a half turn is `M_PI`. -/
abbrev Trigonometry (L : Libm F) : Prop := PolarAngles L.sqrt L.sin L.cos L.atan2 (2 * M_PI)

/-- The Sun is off the centre, and its offset is that of its radius. -/
structure AstronomyParameters.Placed (ap : AstronomyParameters F) : Prop where
  sun : ap.sun_r0 ≠ 0
  offset : ap.m_sun_r0 = -ap.sun_r0

end

section
variable {F : Type} [Field F] [LinearOrder F] [IsStrictOrderedRing F] {L : Libm F}
  {ap : AstronomyParameters F}

theorem setAstronomyParameters_placed {ap' : AstronomyParameters F} {bgp : BackgroundParameters F}
    (set : setAstronomyParameters ap bgp = some ap') : ap'.Placed := by
  unfold setAstronomyParameters at set
  dsimp only at set
  split_ifs at set
  cases set
  refine ⟨?_, rfl⟩
  change (8.5 : F) ≠ 0
  norm_num

theorem M_PI_pos : (0 : F) < M_PI := by
  rw [M_PI]
  norm_num

theorem d2r_r2d (x : F) : d2r (r2d x) = x := by
  have pi := (M_PI_pos (F := F)).ne'
  rw [d2r, r2d]
  norm_num
  field_simp

theorem d2r_add_circle (x : F) : d2r (x + 360.0) = d2r x + 2 * M_PI := by
  rw [d2r, d2r]
  norm_num
  ring

/-! ## From the sky -/

omit [LinearOrder F] [IsStrictOrderedRing F] in
theorem lb_trig_eq (lb : LB F) : lb_trig L lb =
    ⟨L.cos (d2r lb.l) * L.cos (d2r lb.b), L.sin (d2r lb.l) * L.cos (d2r lb.b),
      L.sin (d2r lb.b)⟩ := rfl

theorem lbr2xyz_eq (trig : Trigonometry L) (placed : ap.Placed) (lb : LB F) (r : F) :
    lbr2xyz L ap lb r = lbr2xyz_2 ap r (lb_trig L lb) := by
  have sun := placed.sun
  let zp := r * L.cos (d2r lb.b)
  have unit := trig.unit (d2r lb.l)
  have side : 0 ≤ sqr ap.sun_r0 + sqr zp - 2.0 * ap.sun_r0 * zp * L.cos (d2r lb.l) := by
    have squares : sqr ap.sun_r0 + sqr zp - 2.0 * ap.sun_r0 * zp * L.cos (d2r lb.l) =
        (ap.sun_r0 - zp * L.cos (d2r lb.l)) ^ 2 + (zp * L.sin (d2r lb.l)) ^ 2 := by
      simp only [sqr]
      norm_num
      linear_combination -zp ^ 2 * unit
    rw [squares]
    positivity
  have square := trig.sqrt_mul_self _ side
  ext
  · simp only [lbr2xyz, lbr2xyz_2, lb_trig_eq, placed.offset]
    rw [show sqr (L.sqrt (sqr ap.sun_r0 + sqr (r * L.cos (d2r lb.b)) -
      2.0 * ap.sun_r0 * (r * L.cos (d2r lb.b)) * L.cos (d2r lb.l))) = _ from square]
    simp only [sqr, zp]
    norm_num
    field_simp
    ring
  · simp only [lbr2xyz, lbr2xyz_2, lb_trig_eq]
    ring
  · rfl

/-! ## To the sky -/

theorem lb_trig_xyz2lbr (trig : Trigonometry L) (xyz : Vec3 F) :
    (xyz2lbr L ap xyz).2 * (lb_trig L (xyz2lbr L ap xyz).1).lCosBCos = xyz.x + ap.sun_r0 ∧
      (xyz2lbr L ap xyz).2 * (lb_trig L (xyz2lbr L ap xyz).1).lSinBCos = xyz.y ∧
      (xyz2lbr L ap xyz).2 * (lb_trig L (xyz2lbr L ap xyz).1).bSin = xyz.z := by
  have wrapped : ∀ l : F, d2r (if l < 0.0 then l + 360.0 else l) =
      if l < 0.0 then d2r l + 2 * M_PI else d2r l := by
    intro l
    split
    · exact d2r_add_circle l
    · rfl
  simp only [xyz2lbr, lb_trig_eq, wrapped, trig.sin_wrapped, trig.cos_wrapped, d2r_r2d, sqr]
  exact trig.spherical ⟨xyz.x + ap.sun_r0, xyz.y, xyz.z⟩

theorem lbr2xyz_xyz2lbr (trig : Trigonometry L) (placed : ap.Placed) (xyz : Vec3 F) :
    lbr2xyz L ap (xyz2lbr L ap xyz).1 (xyz2lbr L ap xyz).2 = xyz := by
  obtain ⟨x, y, z⟩ : (xyz2lbr L ap xyz).2 * _ = _ ∧ _ ∧ _ := lb_trig_xyz2lbr trig xyz
  rw [lbr2xyz_eq trig placed]
  ext
  · rw [lbr2xyz_2, x, placed.offset, add_neg_cancel_right]
  · exact y
  · exact z

/-- The point of a direction and a distance is one for the trigonometric values, for two
distances at a time and in the kernel, and the coordinates of a point lead back to it. -/
theorem points_agree (trig : Trigonometry L) (placed : ap.Placed) :
    (∀ lb r, lbr2xyz_2 ap r (lb_trig L lb) = lbr2xyz L ap lb r) ∧
    (∀ lb r r',
      mw_fms_pd (r, r') (mw_set1_pd (lb_trig L lb).lCosBCos) (mw_set1_pd ap.sun_r0) =
          ((lbr2xyz L ap lb r).x, (lbr2xyz L ap lb r').x) ∧
        (r, r') * mw_set1_pd (lb_trig L lb).lSinBCos =
          ((lbr2xyz L ap lb r).y, (lbr2xyz L ap lb r').y) ∧
        (r, r') * mw_set1_pd (lb_trig L lb).bSin =
          ((lbr2xyz L ap lb r).z, (lbr2xyz L ap lb r').z)) ∧
    (∀ lb r, (⟨mad r (lb_trig L lb).lCosBCos (-(getCompilerFlags ap).SUN_R0),
        r * (lb_trig L lb).lSinBCos, r * (lb_trig L lb).bSin⟩ : Vec3 F) = lbr2xyz L ap lb r) ∧
    ∀ xyz, lbr2xyz L ap (xyz2lbr L ap xyz).1 (xyz2lbr L ap xyz).2 = xyz := by
  refine ⟨fun lb r => (lbr2xyz_eq trig placed lb r).symm, fun lb r r' => ?_, fun lb r => ?_,
    lbr2xyz_xyz2lbr trig placed⟩
  · rw [lbr2xyz_eq trig placed, lbr2xyz_eq trig placed]
    refine ⟨?_, rfl, rfl⟩
    simp only [mw_fms_pd, mw_set1_pd, Prod.mk_mul_mk, Prod.mk_sub_mk, lbr2xyz_2, placed.offset,
      ← sub_eq_add_neg]
  · rw [lbr2xyz_eq trig placed, lbr2xyz_2, placed.offset]
    rfl

end

open Foundation.Numerals in
/-- The functions of the reals, for angles of which `M_PI` is a half turn. -/
noncomputable def exactLibm : Libm ℝ where
  sqrt := Real.sqrt
  exp := Real.exp
  exp10 x := 10 ^ x
  log10 := Real.logb 10
  sin x := Real.sin (x * (Real.pi / M_PI))
  cos x := Real.cos (x * (Real.pi / M_PI))
  asin x := Real.arcsin x * (M_PI / Real.pi)
  atan2 y x := Complex.arg ⟨x, y⟩ * (M_PI / Real.pi)
  powr x y := x ^ y
  isnan _ := false

theorem exactLibm_trigonometry : Trigonometry exactLibm := realPolar M_PI_pos.ne'

open Foundation.Numerals in
/-- The parameters of a unit for a wedge without streams. -/
noncomputable def wedgeTen : AstronomyParameters ℝ where
  params_per_workunit := 2
  currentWU := 0
  totalWUs := 1
  m_sun_r0 := -8.5
  q_inv := 1
  q_inv_sqr := 1
  r0 := 12
  convolve := 120
  number_streams := 0
  background_profile := .fastHernquist
  aux_bg_profile := false
  innerPower := 1
  outerPower := 1
  alpha_delta3 := 3
  bg_a := 0
  bg_b := 0
  bg_c := 0
  wedge := 10
  sun_r0 := 8.5
  q := 1
  modfit := false
  number_integrals := 1
  background_weight := 1
  thick_disk_weight := 0

theorem wedgeTen_placed : wedgeTen.Placed := by
  refine ⟨?_, rfl⟩
  change (8.5 : ℝ) ≠ 0
  norm_num

theorem points_agree_wedgeTen :
    lbr2xyz_2 wedgeTen 3 (lb_trig exactLibm ⟨200, -40⟩) = lbr2xyz exactLibm wedgeTen ⟨200, -40⟩ 3 ∧
      lbr2xyz exactLibm wedgeTen (xyz2lbr exactLibm wedgeTen ⟨-20, -3, 1⟩).1
        (xyz2lbr exactLibm wedgeTen ⟨-20, -3, 1⟩).2 = ⟨-20, -3, 1⟩ :=
  have agree := points_agree exactLibm_trigonometry wedgeTen_placed
  ⟨agree.1 _ _, agree.2.2.2 _⟩

end MilkyWay.Separation
