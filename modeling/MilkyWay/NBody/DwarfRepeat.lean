import MilkyWay.NBody.DwarfRuns

/-! Generating a mixed dwarf twice from the same components. What is set up for a
component is set up again in the same way, except that a halo is left with the mass within
its bound, which is a larger mass to start from. -/

namespace MilkyWay.NBody

open Foundation

section
variable {R : Type} [Add R] [Sub R] [Mul R] [Div R] [OfScientific R] {L : DwarfLibm R}

/-- A component that is not a halo, or a halo with the mass within its bound. -/
def HaloSettled (L : DwarfLibm R) (comp : Dwarf R) : Prop :=
  comp.type = .nfw →
    (get_extra_nfw_mass L (set_p0 L comp) (5.0 * (set_p0 L comp).r200)).mass = comp.mass

theorem settled_of_ne {comp : Dwarf R} (other : comp.type ≠ .nfw) : HaloSettled L comp :=
  fun halo => absurd halo other

theorem boundComponent_settled {comp c : Dwarf R} {rscale_l rscale_d bound : R}
    (settled : HaloSettled L comp)
    (bounded : boundComponent L (set_p0 L comp) rscale_l rscale_d = some (c, bound)) :
    c = set_p0 L comp := by
  unfold boundComponent at bounded
  have kept : (set_p0 L comp).type = comp.type := rfl
  cases kind : comp.type <;> rw [kept, kind] at bounded
  case nfw =>
    cases Option.some.inj bounded
    have mass := settled kind
    rw [get_extra_nfw_mass] at mass ⊢
    dsimp only at mass ⊢
    rw [mass]
    rfl
  case plummer =>
    cases Option.some.inj bounded
    rfl
  case general_hernquist =>
    cases Option.some.inj bounded
    rfl
  case einasto => cases bounded
  case invalid => cases bounded

variable [Zero R] [Neg R] [BEq R] [LT R] [DecidableLT R] [LE R] [DecidableLE R] [NatCast R]

theorem components_left {stream : ℕ → R} {patience nbody : ℕ} {comp1 comp2 : Dwarf R}
    {rShift vShift : Vec3 R} {k : ℕ} {p : (List (Body R) × Dwarf R × Dwarf R) × ℕ}
    (run : nbGenerateMixedDwarfCore L stream patience nbody comp1 comp2 rShift vShift k =
      some p) :
    (∃ bound, boundComponent L (set_p0 L comp1) comp1.scaleLength comp2.scaleLength =
      some (p.1.2.1, bound)) ∧
    ∃ bound, boundComponent L (set_p0 L comp2) comp1.scaleLength comp2.scaleLength =
      some (p.1.2.2, bound) := by
  obtain ⟨⟨c1, bound1⟩, k₁, bounded1, run⟩ := bind_eq_some run
  obtain ⟨⟨c2, bound2⟩, k₂, bounded2, run⟩ := bind_eq_some run
  obtain ⟨light, k₃, -, run⟩ := bind_eq_some run
  obtain ⟨dark, k₄, -, run⟩ := bind_eq_some run
  obtain ⟨t, k₅, -, run⟩ := bind_eq_some run
  rw [← Option.some.inj run]
  exact ⟨⟨bound1, (lift_eq_some bounded1).1⟩, bound2, (lift_eq_some bounded2).1⟩

/-- With settled components the generation repeats: from what it leaves, at the same place
of the stream, it has the same outcome. -/
theorem generation_repeats {comp1 comp2 : Dwarf R} (settled1 : HaloSettled L comp1)
    (settled2 : HaloSettled L comp2) (stream : ℕ → R) (patience nbody : ℕ) (rShift vShift : Vec3 R)
    (k : ℕ) :
    ((nbGenerateMixedDwarfCore L stream patience nbody comp1 comp2 rShift vShift k).bind
      fun p => nbGenerateMixedDwarfCore L stream patience nbody p.1.2.1 p.1.2.2 rShift vShift k) =
        nbGenerateMixedDwarfCore L stream patience nbody comp1 comp2 rShift vShift k := by
  cases run : nbGenerateMixedDwarfCore L stream patience nbody comp1 comp2 rShift vShift k with
  | none => rfl
  | some p =>
      obtain ⟨⟨bound1, bounded1⟩, bound2, bounded2⟩ := components_left run
      rw [Option.bind_some, boundComponent_settled settled1 bounded1,
        boundComponent_settled settled2 bounded2]
      exact run

end

/-- Two bodies are drawn, and what their generation leaves repeats it. -/
theorem generation_repeats_hernquist : ∃ stream bodies comp1 comp2 k,
    nbGenerateMixedDwarfCore realDwarfLibm stream 0 2 unitHernquist unitHernquist 0 0 0 =
      some ((bodies, comp1, comp2), k) ∧
    nbGenerateMixedDwarfCore realDwarfLibm stream 0 2 comp1 comp2 0 0 0 =
      some ((bodies, comp1, comp2), k) := by
  obtain ⟨stream, bodies, k, -, run⟩ := exists_run_hernquist realDwarfLibm_real 2 0 0
  have settled : HaloSettled realDwarfLibm unitHernquist :=
    settled_of_ne (by simp [unitHernquist])
  have again := generation_repeats settled settled stream 0 2 0 0 0
  rw [run, Option.bind_some] at again
  exact ⟨stream, bodies, _, _, k, run, again⟩

/-! ## A halo -/

theorem log_excess_five {c : ℝ} (positive : 0 < c) :
    (Real.log (1 + c) - c / (1 + c)) * (1 + 4 / (1 + 5 * c)) ≤
      Real.log (1 + 5 * c) - 5 * c / (1 + 5 * c) := by
  have inner : Real.log (1 + c) ≤ c := by
    have bound := Real.log_le_sub_one_of_pos (show 0 < 1 + c by linarith)
    linarith
  have outer : 1 - (1 + c) / (1 + 5 * c) ≤ Real.log (1 + 5 * c) - Real.log (1 + c) := by
    have bound := Real.one_sub_inv_le_log_of_pos (show 0 < (1 + 5 * c) / (1 + c) by positivity)
    rw [inv_div, Real.log_div (by positivity) (by positivity)] at bound
    exact bound
  have share : Real.log (1 + c) * (4 / (1 + 5 * c)) ≤ c * (4 / (1 + 5 * c)) :=
    mul_le_mul_of_nonneg_right inner (by positivity)
  have rational : 1 - (1 + c) / (1 + 5 * c) = c * (4 / (1 + 5 * c)) - c / (1 + c) *
      (1 + 4 / (1 + 5 * c)) + 5 * c / (1 + 5 * c) := by
    field_simp
    ring
  linarith

theorem halo_mass_eq {L : DwarfLibm ℝ} (real : RealDwarfLibm L) {d : Dwarf ℝ}
    (scale : d.scaleLength = 1) :
    (get_extra_nfw_mass L (set_p0 L d) (5.0 * (set_p0 L d).r200)).mass =
      4 * L.M_PI * 200 * pcrit / (3 * vol_pcrit) * d.mass *
        ((Real.log (1 + 5 * (set_p0 L d).r200) -
          5 * (set_p0 L d).r200 / (1 + 5 * (set_p0 L d).r200)) /
        (Real.log (1 + (set_p0 L d).r200) -
          (set_p0 L d).r200 / (1 + (set_p0 L d).r200))) := by
  have volume : (vol_pcrit : ℝ) ≠ 0 := by
    rw [vol_pcrit]
    norm_num
  have mass : d.mass = vol_pcrit * (set_p0 L d).r200 ^ 3 := by
    have root := real.cbrt (d.mass / vol_pcrit)
    rw [cube] at root
    have radius : (set_p0 L d).r200 = L.cbrt (d.mass / vol_pcrit) := rfl
    rw [radius]
    field_simp at root
    linear_combination -root
  have dense : (set_p0 L d).p0 = 200.0 * cube ((set_p0 L d).r200 / d.scaleLength) *
      pcrit / (3.0 * (L.log (1.0 + (set_p0 L d).r200 / d.scaleLength) -
        (set_p0 L d).r200 / d.scaleLength /
          (1.0 + (set_p0 L d).r200 / d.scaleLength))) := rfl
  have one : (1.0 : ℝ) = 1 := by norm_num
  have four : (4.0 : ℝ) = 4 := by norm_num
  have five : (5.0 : ℝ) = 5 := by norm_num
  have scale' : (set_p0 L d).scaleLength = 1 := scale
  rw [get_extra_nfw_mass]
  dsimp only
  rw [dense, scale, scale', mass]
  simp only [real.log, cube, div_one, one, four, five]
  generalize (set_p0 L d).r200 = c
  norm_num
  field_simp

theorem volume_ratio : 99 / 100 < 4 * realDwarfLibm.M_PI * 200 * pcrit / (3 * vol_pcrit) ∧
    4 * realDwarfLibm.M_PI * 200 * pcrit / (3 * vol_pcrit) < 101 / 100 := by
  rw [realDwarfLibm, pcrit, vol_pcrit]
  norm_num

theorem boundHalo_mass : (0 : ℝ) < (boundHalo realDwarfLibm).mass ∧
    (boundHalo realDwarfLibm).mass ≤ 30 * vol_pcrit := by
  have volume : (0 : ℝ) < vol_pcrit := by
    rw [vol_pcrit]
    norm_num
  obtain ⟨low, high⟩ := volume_ratio
  have unit := unitHalo_r200 realDwarfLibm_real
  have mass : (boundHalo realDwarfLibm).mass =
      4 * realDwarfLibm.M_PI * 200 * pcrit / (3 * vol_pcrit) * vol_pcrit *
        ((Real.log (1 + 5 * 1) - 5 * 1 / (1 + 5 * 1)) / (Real.log (1 + 1) - 1 / (1 + 1))) :=
    unit ▸ halo_mass_eq realDwarfLibm_real (d := unitHalo) rfl
  have inner : 19 / 100 < Real.log (1 + 1) - 1 / (1 + 1) := by
    have two := Real.log_two_gt_d9
    norm_num at two ⊢
    linarith
  have outer : 0 < Real.log (1 + 5 * 1) - 5 * 1 / (1 + 5 * 1) := log_excess_pos (by norm_num)
  have outer' : Real.log (1 + 5 * 1) - 5 * 1 / (1 + 5 * 1) ≤ 25 / 6 := by
    have bound := Real.log_le_sub_one_of_pos (show (0 : ℝ) < 1 + 5 * 1 by norm_num)
    norm_num at bound ⊢
    linarith
  have ratio : (Real.log (1 + 5 * 1) - 5 * 1 / (1 + 5 * 1)) /
      (Real.log (1 + 1) - 1 / (1 + 1)) ≤ 25 / 6 / (19 / 100) :=
    div_le_div₀ (by norm_num) outer' (by norm_num) inner.le
  have positive : 0 < (Real.log (1 + 5 * 1) - 5 * 1 / (1 + 5 * 1)) /
      (Real.log (1 + 1) - 1 / (1 + 1)) := div_pos outer (by linarith)
  rw [mass]
  generalize 4 * realDwarfLibm.M_PI * 200 * pcrit / (3 * vol_pcrit) = K at *
  generalize (Real.log (1 + 5 * 1) - 5 * 1 / (1 + 5 * 1)) /
    (Real.log (1 + 1) - 1 / (1 + 1)) = q at *
  constructor
  · positivity
  · have product : K * q ≤ 101 / 100 * (25 / 6 / (19 / 100)) :=
      mul_le_mul high.le ratio positive.le (by norm_num)
    norm_num at product
    nlinarith

theorem boundHalo_mass_lt : (boundHalo realDwarfLibm).mass <
    (get_extra_nfw_mass realDwarfLibm (set_p0 realDwarfLibm (boundHalo realDwarfLibm))
      (5.0 * (set_p0 realDwarfLibm (boundHalo realDwarfLibm)).r200)).mass := by
  have volume : (0 : ℝ) < vol_pcrit := by
    rw [vol_pcrit]
    norm_num
  obtain ⟨positive, bounded⟩ := boundHalo_mass
  obtain ⟨low, -⟩ := volume_ratio
  rw [halo_mass_eq realDwarfLibm_real rfl]
  have cubed : (set_p0 realDwarfLibm (boundHalo realDwarfLibm)).r200 ^ 3 =
      (boundHalo realDwarfLibm).mass / vol_pcrit := by
    have root := realDwarfLibm_real.cbrt ((boundHalo realDwarfLibm).mass / vol_pcrit)
    rw [cube] at root
    exact (pow_three' _).trans root
  generalize (boundHalo realDwarfLibm).mass = m at *
  generalize (set_p0 realDwarfLibm (boundHalo realDwarfLibm)).r200 = c at *
  generalize 4 * realDwarfLibm.M_PI * 200 * pcrit / (3 * vol_pcrit) = K at *
  have far : 0 < c := (Odd.pow_pos_iff (by decide)).mp (cubed ▸ div_pos positive volume)
  have near : c < 4 := by
    have small : c ^ 3 ≤ 30 := by
      rw [cubed]
      exact (div_le_iff₀ volume).mpr bounded
    by_contra large
    have power := pow_le_pow_left₀ (by norm_num) (not_lt.mp large) 3
    linarith
  have excess := log_excess_pos far
  have grown : 1 + 4 / (1 + 5 * c) ≤ (Real.log (1 + 5 * c) - 5 * c / (1 + 5 * c)) /
      (Real.log (1 + c) - c / (1 + c)) := by
    rw [le_div_iff₀ excess, mul_comm]
    exact log_excess_five far
  have share : 4 / 21 ≤ 4 / (1 + 5 * c) :=
    div_le_div_of_nonneg_left (by norm_num) (by linarith) (by linarith)
  generalize (Real.log (1 + 5 * c) - 5 * c / (1 + 5 * c)) /
    (Real.log (1 + c) - c / (1 + c)) = q at *
  calc m < 99 / 100 * m * (25 / 21) := by linarith
    _ ≤ K * m * q := by
        have factor : 25 / 21 ≤ q := by linarith
        exact mul_le_mul (mul_le_mul_of_nonneg_right low.le positive.le) factor (by norm_num)
          (by nlinarith)

theorem light_mass_left {L : DwarfLibm ℝ} {stream : ℕ → ℝ} {patience : ℕ}
    {comp1 comp2 comp1' comp2' : Dwarf ℝ} {rShift vShift : Vec3 ℝ} {bodies : List (Body ℝ)}
    {k k' : ℕ} (run : nbGenerateMixedDwarfCore L stream patience 2 comp1 comp2 rShift vShift k =
      some ((bodies, comp1', comp2'), k')) :
    totalMass (ofMatter false bodies) = comp1'.mass := by
  obtain ⟨t, shares, rfl⟩ := nbGenerateMixedDwarfCore_eq run
  refine (congrArg totalMass (ofMatter_makeBody _ (Nat.div_le_self 2 2)).1).trans
    ((totalMass_bodiesOf ..).trans (shares.light.trans ?_))
  exact share_eq two_pos rfl

/-- Two halos of which two bodies are generated: no second generation with the same numbers
returns the same bodies. -/
theorem halos_not_repeated : ∃ stream bodies comp1 comp2 k,
    nbGenerateMixedDwarfCore realDwarfLibm stream 0 2 unitHalo unitHalo 0 0 0 =
      some ((bodies, comp1, comp2), k) ∧
    ∀ bodies' comp1' comp2' k',
      nbGenerateMixedDwarfCore realDwarfLibm stream 0 2 comp1 comp2 0 0 0 =
        some ((bodies', comp1', comp2'), k') → bodies' ≠ bodies := by
  obtain ⟨stream, bodies, k, -, run⟩ := exists_run realDwarfLibm_real 2 0 0
  refine ⟨stream, bodies, _, _, k, run, ?_⟩
  rintro bodies' comp1' comp2' k' again rfl
  have mass := light_mass_left run
  rw [light_mass_left again] at mass
  obtain ⟨⟨bound, bounded⟩, -⟩ := components_left again
  cases Option.some.inj bounded
  exact boundHalo_mass_lt.ne' mass

end MilkyWay.NBody
