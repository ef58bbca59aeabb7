import MilkyWay.Foundation.Moment
import MilkyWay.NBody.DwarfGenerators

/-! What the generators of dwarf galaxies conserve. The masses of the particles assume
that exactly half of the bodies are of each kind, so that the totals are those of the
components when the number of bodies is even; then the corrections move the means exactly
to where they are asked for. -/

namespace MilkyWay.NBody

open Foundation

def totalMass (bodies : List (Body ℝ)) : ℝ := (bodies.map fun b => b.mass).sum

/-- The sum of a quantity of the bodies weighted by their masses. -/
def moment (x : Body ℝ → Vec3 ℝ) (bodies : List (Body ℝ)) : Vec3 ℝ :=
  (bodies.map fun b => b.mass • x b).sum

structure HasMean (bodies : List (Body ℝ)) (pos vel : Vec3 ℝ) : Prop where
  mass : totalMass bodies ≠ 0
  pos : moment (·.pos) bodies = totalMass bodies • pos
  vel : moment (·.vel) bodies = totalMass bodies • vel

/-- The bodies of light or of dark matter. -/
def ofMatter (dark : Bool) (bodies : List (Body ℝ)) : List (Body ℝ) :=
  bodies.filter fun b => b.type == BODY dark

structure Totals (nbody : ℕ) (mass_l mass_d : ℝ) (bodies : List (Body ℝ)) : Prop where
  number : bodies.length = nbody
  light : totalMass (ofMatter false bodies) = mass_l
  dark : totalMass (ofMatter true bodies) = mass_d

variable {L : DwarfLibm ℝ} {stream : ℕ → ℝ} {t : DwarfTables ℝ} {half nbody : ℕ}

/-! ## The tables -/

theorem drawTables_masses {ml md : ℝ} {r_light r_dark : Draw ℝ} {speed : ℝ → Draw ℝ}
    {components : ℝ → Draw (Vec3 ℝ)} {k : ℕ} {p : DwarfTables ℝ × ℕ}
    (run : drawTables half nbody ml md r_light r_dark speed components k = some p) :
    ∀ i < nbody, p.1.masses i = if i < half then ml else md := by
  refine foldlM_draw_some (fun n (t : DwarfTables ℝ) =>
    ∀ i < n, t.masses i = if i < half then ml else md) (fun _ lt => absurd lt (Nat.not_lt_zero _))
    ?_ run
  intro n t k p _ masses turn i lt
  obtain ⟨r, k₁, -, turn⟩ := bind_eq_some turn
  obtain ⟨v, k₂, -, turn⟩ := bind_eq_some turn
  obtain ⟨vel, k₃, -, turn⟩ := bind_eq_some turn
  obtain ⟨pos, k₄, -, turn⟩ := bind_eq_some turn
  have result := Option.some.inj turn
  rw [← result]
  by_cases last : i = n
  · subst last
    exact Function.update_self ..
  · exact (Function.update_of_ne last ..).trans (masses i (by omega))

theorem drawTables_drawn {ml md : ℝ} {r_light r_dark : Draw ℝ} {speed : ℝ → Draw ℝ}
    {components : ℝ → Draw (Vec3 ℝ)} {k : ℕ} {p : DwarfTables ℝ × ℕ}
    (run : drawTables half nbody ml md r_light r_dark speed components k = some p) :
    ∀ i < nbody, ∃ j r, drawNonzero (if i < half then r_light else r_dark) j = some r := by
  refine foldlM_draw_some (fun n (_ : DwarfTables ℝ) =>
    ∀ i < n, ∃ j r, drawNonzero (if i < half then r_light else r_dark) j = some r)
    (fun _ lt => absurd lt (Nat.not_lt_zero _)) ?_ run
  intro n t k p _ drawn turn i lt
  obtain ⟨r, k₁, result, -⟩ := bind_eq_some turn
  by_cases last : i = n
  · exact ⟨k, _, last ▸ result⟩
  · exact drawn i (by omega)

theorem weightedSum_eq (masses : ℕ → ℝ) (table : ℕ → Vec3 ℝ) (start stop : ℕ) :
    weightedSum masses table start stop =
      ((List.range' start (stop - start)).map fun i => masses i • table i).sum := by
  have step (cm : Vec3 ℝ) (l : List ℕ) : l.foldl (fun cm i =>
      ⟨cm.x + masses i * (table i).x, cm.y + masses i * (table i).y,
        cm.z + masses i * (table i).z⟩) cm = cm + (l.map fun i => masses i • table i).sum := by
    induction l generalizing cm with
    | nil => simp
    | cons i l ih =>
        rw [List.foldl_cons, ih, List.map_cons, List.sum_cons, ← add_assoc]
        rfl
  rw [weightedSum, step, zero_add]

theorem shiftTable_moment {masses : ℕ → ℝ} {table : ℕ → Vec3 ℝ} {mass : ℝ} {start stop : ℕ}
    (total : ((List.range' start (stop - start)).map masses).sum = mass)
    (shift : Vec3 ℝ) {cm : Vec3 ℝ}
    (centre : mass • cm = weightedSum masses table start stop) :
    ((List.range' start (stop - start)).map fun i =>
      masses i • shiftTable table cm shift start stop i).sum = mass • shift := by
  have inside : ((List.range' start (stop - start)).map fun i =>
      masses i • shiftTable table cm shift start stop i) =
        (List.range' start (stop - start)).map fun i => masses i • (table i - (cm - shift)) := by
    apply List.map_congr_left
    intro i mem
    rw [List.mem_range'_1] at mem
    have range : start ≤ i ∧ i < stop := by omega
    rw [shiftTable, if_pos range]
    congr 1
    ext <;> simp <;> ring
  rw [inside, sum_smul_sub, total, ← weightedSum_eq, ← centre, smul_sub]
  abel

def bodiesOf (t : DwarfTables ℝ) (half start stop : ℕ) : List (Body ℝ) :=
  (List.range' start (stop - start)).map (makeBody t half)

theorem totalMass_bodiesOf (t : DwarfTables ℝ) (half start stop : ℕ) :
    totalMass (bodiesOf t half start stop) =
      ((List.range' start (stop - start)).map t.masses).sum := by
  rw [totalMass, bodiesOf, List.map_map]
  rfl

theorem centre_eq {mass : ℝ} (nonzero : mass ≠ 0) (sum : Vec3 ℝ) :
    mass • (⟨sum.x / mass, sum.y / mass, sum.z / mass⟩ : Vec3 ℝ) = sum := by
  ext <;> exact mul_div_cancel₀ _ nonzero

theorem hasMean_bodiesOf (t t' : DwarfTables ℝ) (rShift vShift : Vec3 ℝ) {mass : ℝ}
    {start stop : ℕ} (nonzero : mass ≠ 0)
    (total : ((List.range' start (stop - start)).map t.masses).sum = mass)
    (masses : t'.masses = t.masses)
    (same : ∀ i, start ≤ i → i < stop →
      t'.pos i = (cm_correction_by_comp t rShift vShift mass start stop).pos i ∧
        t'.vel i = (cm_correction_by_comp t rShift vShift mass start stop).vel i) (half : ℕ) :
    HasMean (bodiesOf t' half start stop) rShift vShift := by
  have mass_eq : totalMass (bodiesOf t' half start stop) = mass := by
    rw [totalMass_bodiesOf, masses, total]
  refine ⟨mass_eq ▸ nonzero, ?_, ?_⟩
  · rw [mass_eq, ← shiftTable_moment total rShift (centre_eq nonzero _), moment, bodiesOf,
      List.map_map]
    congr 1
    apply List.map_congr_left
    intro i mem
    rw [List.mem_range'_1] at mem
    have corrected := (same i mem.1 (by omega)).1
    change t'.masses i • t'.pos i = _
    rw [masses, corrected]
    rfl
  · rw [mass_eq, ← shiftTable_moment total vShift (centre_eq nonzero _), moment, bodiesOf,
      List.map_map]
    congr 1
    apply List.map_congr_left
    intro i mem
    rw [List.mem_range'_1] at mem
    have corrected := (same i mem.1 (by omega)).2
    change t'.masses i • t'.vel i = _
    rw [masses, corrected]
    rfl

theorem sum_constant {masses : ℕ → ℝ} {start stop : ℕ} {m : ℝ}
    (constant : ∀ i, start ≤ i → i < stop → masses i = m) :
    ((List.range' start (stop - start)).map masses).sum = ((stop - start : ℕ) : ℝ) * m := by
  have same : (List.range' start (stop - start)).map masses =
      (List.range' start (stop - start)).map fun _ => m := by
    apply List.map_congr_left
    intro i mem
    rw [List.mem_range'_1] at mem
    exact constant i mem.1 (by omega)
  rw [same, List.map_const', List.length_range', List.sum_replicate, nsmul_eq_mul]

theorem range_split (le : half ≤ nbody) :
    List.range nbody = List.range' 0 (half - 0) ++ List.range' half (nbody - half) := by
  have joined := @List.range'_append_1 0 (half - 0) (nbody - half)
  have count : half - 0 + (nbody - half) = nbody := by omega
  have first : 0 + (half - 0) = half := by omega
  rw [count, first] at joined
  rw [List.range_eq_range', joined]

theorem ofMatter_makeBody (t : DwarfTables ℝ) (le : half ≤ nbody) :
    ofMatter false ((List.range nbody).map (makeBody t half)) = bodiesOf t half 0 half ∧
      ofMatter true ((List.range nbody).map (makeBody t half)) = bodiesOf t half half nbody := by
  have light : ∀ b ∈ bodiesOf t half 0 half, b.type = 1 := by
    intro b mem
    obtain ⟨i, range, rfl⟩ := List.mem_map.mp mem
    rw [List.mem_range'_1] at range
    exact if_pos (by omega)
  have dark : ∀ b ∈ bodiesOf t half half nbody, b.type = -1 := by
    intro b mem
    obtain ⟨i, range, rfl⟩ := List.mem_map.mp mem
    rw [List.mem_range'_1] at range
    exact if_neg (by omega)
  have all : (List.range nbody).map (makeBody t half) =
      bodiesOf t half 0 half ++ bodiesOf t half half nbody := by
    rw [range_split le, List.map_append]
    rfl
  rw [all]
  simp only [ofMatter, List.filter_append]
  constructor
  · rw [List.filter_eq_self.mpr, List.filter_eq_nil_iff.mpr, List.append_nil]
    · intro b mem
      simp [dark b mem, BODY]
    · intro b mem
      simp [light b mem, BODY]
  · rw [List.filter_eq_nil_iff.mpr, List.filter_eq_self.mpr, List.nil_append]
    · intro b mem
      simp [dark b mem, BODY]
    · intro b mem
      simp [light b mem, BODY]

/-! ## The generators -/

theorem share_iff {mass : ℝ} (nonzero : mass ≠ 0) (positive : 0 < nbody) (n : ℕ) :
    (n : ℝ) * (mass / (0.5 * (nbody : ℝ))) = mass ↔ 2 * n = nbody := by
  have all : (nbody : ℝ) ≠ 0 := Nat.cast_ne_zero.mpr positive.ne'
  have share : (n : ℝ) * (mass / (0.5 * (nbody : ℝ))) = mass ↔
      ((2 * n : ℕ) : ℝ) = (nbody : ℝ) := by
    push_cast
    constructor
    · intro total
      field_simp at total
      norm_num at total
      linarith
    · intro count
      field_simp
      norm_num
      linarith
  rw [share, Nat.cast_inj]

theorem share_eq {mass : ℝ} (positive : 0 < nbody) {n : ℕ} (half : 2 * n = nbody) :
    (n : ℝ) * (mass / (0.5 * (nbody : ℝ))) = mass := by
  by_cases zero : mass = 0
  · rw [zero, zero_div, mul_zero]
  · exact (share_iff zero positive n).mpr half

/-- Each component of a mixed dwarf by itself. -/
structure MixedConserved (nbody : ℕ) (mass_l mass_d : ℝ) (rShift vShift : Vec3 ℝ)
    (bodies : List (Body ℝ)) : Prop extends Totals nbody mass_l mass_d bodies where
  lightMean : HasMean (ofMatter false bodies) rShift vShift
  darkMean : HasMean (ofMatter true bodies) rShift vShift

/-- All bodies together. -/
structure IsotropicConserved (nbody : ℕ) (mass_l mass_d : ℝ) (rShift vShift : Vec3 ℝ)
    (bodies : List (Body ℝ)) : Prop extends Totals nbody mass_l mass_d bodies where
  mean : HasMean bodies rShift vShift

structure Shares (nbody : ℕ) (mass_l mass_d : ℝ) (t : DwarfTables ℝ) : Prop where
  masses : ∀ i < nbody, t.masses i =
    if i < nbody / 2 then mass_l / (0.5 * (nbody : ℝ)) else mass_d / (0.5 * (nbody : ℝ))

namespace Shares
variable {mass_l mass_d : ℝ} (shares : Shares nbody mass_l mass_d t)
include shares

theorem light : ((List.range' 0 (nbody / 2 - 0)).map t.masses).sum =
    ((nbody / 2 - 0 : ℕ) : ℝ) * (mass_l / (0.5 * (nbody : ℝ))) :=
  sum_constant fun i _ lt => by
    rw [shares.masses i (by omega), if_pos lt]

theorem dark : ((List.range' (nbody / 2) (nbody - nbody / 2)).map t.masses).sum =
    ((nbody - nbody / 2 : ℕ) : ℝ) * (mass_d / (0.5 * (nbody : ℝ))) :=
  sum_constant fun i le lt => by
    rw [shares.masses i lt, if_neg (by omega)]

theorem totals_iff (t' : DwarfTables ℝ) (positive : 0 < nbody)
    (nonzero : mass_l ≠ 0 ∨ mass_d ≠ 0) (same : t'.masses = t.masses) :
    Totals nbody mass_l mass_d ((List.range nbody).map (makeBody t' (nbody / 2))) ↔
      Even nbody := by
  obtain ⟨light, dark⟩ := ofMatter_makeBody t' (Nat.div_le_self nbody 2)
  rw [Nat.even_iff]
  constructor
  · rintro ⟨-, total, total'⟩
    rw [light, totalMass_bodiesOf, same, shares.light] at total
    rw [dark, totalMass_bodiesOf, same, shares.dark] at total'
    obtain some_l | some_d := nonzero
    · have half := (share_iff some_l positive _).mp total
      omega
    · have half := (share_iff some_d positive _).mp total'
      omega
  · intro even
    refine ⟨by rw [List.length_map, List.length_range], ?_, ?_⟩
    · rw [light, totalMass_bodiesOf, same, shares.light]
      exact share_eq positive (by omega)
    · rw [dark, totalMass_bodiesOf, same, shares.dark]
      exact share_eq positive (by omega)

end Shares

theorem corrected_pos (t : DwarfTables ℝ) (rShift vShift : Vec3 ℝ) (mass : ℝ) {start stop i : ℕ}
    (outside : ¬(start ≤ i ∧ i < stop)) :
    (cm_correction_by_comp t rShift vShift mass start stop).pos i = t.pos i ∧
      (cm_correction_by_comp t rShift vShift mass start stop).vel i = t.vel i :=
  ⟨if_neg outside, if_neg outside⟩

theorem nbGenerateMixedDwarfCore_eq {patience : ℕ} {comp1 comp2 comp1' comp2' : Dwarf ℝ}
    {rShift vShift : Vec3 ℝ} {bodies : List (Body ℝ)} {k k' : ℕ}
    (run : nbGenerateMixedDwarfCore L stream patience nbody comp1 comp2 rShift vShift k =
      some ((bodies, comp1', comp2'), k')) :
    ∃ t, Shares nbody comp1'.mass comp2'.mass t ∧
      bodies = (List.range nbody).map (makeBody
        (cm_correction_by_comp (cm_correction_by_comp t rShift vShift comp1'.mass 0 (nbody / 2))
          rShift vShift comp2'.mass (nbody / 2) nbody) (nbody / 2)) := by
  obtain ⟨⟨c1, bound1⟩, k₁, -, run⟩ := bind_eq_some run
  obtain ⟨⟨c2, bound2⟩, k₂, -, run⟩ := bind_eq_some run
  obtain ⟨light, k₃, -, run⟩ := bind_eq_some run
  obtain ⟨dark, k₄, -, run⟩ := bind_eq_some run
  obtain ⟨t, k₅, drawn, run⟩ := bind_eq_some run
  have result := Option.some.inj run
  simp only [Prod.mk.injEq] at result
  obtain ⟨⟨rfl, rfl, rfl⟩, -⟩ := result
  exact ⟨t, ⟨drawTables_masses drawn⟩, rfl⟩

theorem nbGenerateIsotropicCore_eq {mass1 mass2 radiusScale1 radiusScale2 : ℝ}
    {rShift vShift : Vec3 ℝ} {bodies : List (Body ℝ)} {k k' : ℕ}
    (run : nbGenerateIsotropicCore L stream nbody mass1 mass2 rShift vShift radiusScale1
      radiusScale2 k = some (bodies, k')) :
    ∃ t, Shares nbody mass1 mass2 t ∧ bodies = (List.range nbody).map (makeBody
      (cm_correction t rShift vShift (mass1 + mass2) nbody) (nbody / 2)) := by
  obtain ⟨t, k₅, drawn, run⟩ := bind_eq_some run
  have result := Option.some.inj run
  simp only [Prod.mk.injEq] at result
  obtain ⟨rfl, -⟩ := result
  exact ⟨t, ⟨drawTables_masses drawn⟩, rfl⟩

theorem mixedConserved_iff {mass_l mass_d : ℝ} (shares : Shares nbody mass_l mass_d t)
    (positive : 0 < nbody) (rShift vShift : Vec3 ℝ) :
    MixedConserved nbody mass_l mass_d rShift vShift ((List.range nbody).map (makeBody
      (cm_correction_by_comp (cm_correction_by_comp t rShift vShift mass_l 0 (nbody / 2))
        rShift vShift mass_d (nbody / 2) nbody) (nbody / 2))) ↔
      Even nbody ∧ mass_l ≠ 0 ∧ mass_d ≠ 0 := by
  let t₁ := cm_correction_by_comp t rShift vShift mass_l 0 (nbody / 2)
  let t₂ := cm_correction_by_comp t₁ rShift vShift mass_d (nbody / 2) nbody
  obtain ⟨light, dark⟩ := ofMatter_makeBody t₂ (Nat.div_le_self nbody 2)
  constructor
  · rintro ⟨totals, ⟨some_l, -, -⟩, ⟨some_d, -, -⟩⟩
    rw [totals.light] at some_l
    rw [totals.dark] at some_d
    exact ⟨(shares.totals_iff t₂ positive (.inl some_l) rfl).mp totals, some_l, some_d⟩
  · rintro ⟨even, some_l, some_d⟩
    have totals := (shares.totals_iff t₂ positive (.inl some_l) rfl).mpr even
    rw [Nat.even_iff] at even
    have total_l := shares.light.trans (share_eq positive (by omega))
    have total_d := shares.dark.trans (share_eq positive (by omega))
    refine ⟨totals, ?_, ?_⟩
    · rw [light]
      exact hasMean_bodiesOf t t₂ rShift vShift some_l total_l rfl
        (fun i _ lt => corrected_pos t₁ _ _ _ (by omega)) _
    · rw [dark]
      exact hasMean_bodiesOf t₁ t₂ rShift vShift some_d total_d rfl (fun i _ _ => ⟨rfl, rfl⟩) _

theorem isotropicConserved_iff {mass_l mass_d : ℝ} (shares : Shares nbody mass_l mass_d t)
    (positive : 0 < nbody) (rShift vShift : Vec3 ℝ) :
    IsotropicConserved nbody mass_l mass_d rShift vShift ((List.range nbody).map (makeBody
      (cm_correction t rShift vShift (mass_l + mass_d) nbody) (nbody / 2))) ↔
      Even nbody ∧ mass_l + mass_d ≠ 0 := by
  have all (t : DwarfTables ℝ) : (List.range nbody).map (makeBody t (nbody / 2)) =
      bodiesOf t (nbody / 2) 0 nbody := by
    rw [List.range_eq_range']
    rfl
  have total (even : Even nbody) :
      ((List.range' 0 (nbody - 0)).map t.masses).sum = mass_l + mass_d := by
    rw [Nat.sub_zero, ← List.range_eq_range', range_split (Nat.div_le_self nbody 2),
      List.map_append, List.sum_append, shares.light, shares.dark]
    rw [Nat.even_iff] at even
    rw [share_eq positive (by omega), share_eq positive (by omega)]
  have some_mass (nonzero : mass_l + mass_d ≠ 0) : mass_l ≠ 0 ∨ mass_d ≠ 0 := by
    by_contra none
    push Not at none
    exact nonzero (by rw [none.1, none.2, add_zero])
  let t' := cm_correction t rShift vShift (mass_l + mass_d) nbody
  constructor
  · rintro ⟨totals, ⟨nonzero, -, -⟩⟩
    have split : totalMass (bodiesOf t' (nbody / 2) 0 nbody) = mass_l + mass_d := by
      obtain ⟨light, dark⟩ := ofMatter_makeBody t' (Nat.div_le_self nbody 2)
      have total_l := totals.light
      have total_d := totals.dark
      rw [light, totalMass_bodiesOf] at total_l
      rw [dark, totalMass_bodiesOf] at total_d
      rw [totalMass_bodiesOf, Nat.sub_zero, ← List.range_eq_range',
        range_split (Nat.div_le_self nbody 2), List.map_append, List.sum_append, total_l, total_d]
    rw [all, split] at nonzero
    exact ⟨(shares.totals_iff t' positive (some_mass nonzero) rfl).mp totals, nonzero⟩
  · rintro ⟨even, nonzero⟩
    refine ⟨(shares.totals_iff t' positive (some_mass nonzero) rfl).mpr even, ?_⟩
    rw [all]
    exact hasMean_bodiesOf t t' rShift vShift nonzero (total even) rfl (fun i _ _ => ⟨rfl, rfl⟩) _

/-! ## The masses of what can be drawn from -/

theorem drawNonzero_some {sample : Draw ℝ} {k : ℕ} {p : ℝ × ℕ}
    (result : drawNonzero sample k = some p) :
    p.1 ≠ 0 ∧ ∃ j k', sample j = some (p.1, k') := by
  obtain ⟨j, k', accepted⟩ | ⟨j, failed⟩ := tries_eq_some result
  · obtain ⟨r, k₁, drawn, rest⟩ := bind_eq_some accepted
    have outcome := congrArg Prod.fst (Option.some.inj rest)
    dsimp only at outcome
    split at outcome
    next => nomatch outcome
    next other =>
      cases Option.some.inj outcome
      norm_num at other
      exact ⟨other, j, k₁, drawn⟩
  · nomatch failed

theorem r_mag_accepted {comp : Dwarf ℝ} {greatest bound : ℝ} (unit : ∀ k, 0 ≤ stream k)
    {k : ℕ} {p : ℝ × ℕ} (result : r_mag L stream comp greatest bound k = some p)
    (nonzero : p.1 ≠ 0) :
    ∃ u ρ, 0 ≤ u ∧ p.1 = u * bound ∧ get_density L comp p.1 = some ρ ∧
      0 < p.1 * p.1 * ρ / greatest := by
  obtain ⟨j, k', accepted⟩ | ⟨j, centre⟩ := tries_eq_some result
  · rw [bind_of_eq (mwXrandom_unit ..), bind_of_eq (mwXrandom_unit ..)] at accepted
    obtain ⟨ρ, k₁, lifted, rest⟩ := bind_eq_some accepted
    have density := (lift_eq_some lifted).1
    have outcome := congrArg Prod.fst (Option.some.inj rest)
    dsimp only at outcome
    split at outcome
    next below =>
      have place := Option.some.inj outcome
      rw [place] at density below
      exact ⟨stream j, ρ, unit j, place.symm, density, (unit (j + 1)).trans_lt below⟩
    next => nomatch outcome
  · have zero : ((0.0 : ℝ), j) = p := Option.some.inj centre
    rw [← zero] at nonzero
    norm_num at nonzero

theorem get_density_massless {comp : Dwarf ℝ} {r ρ : ℝ} (other : comp.type ≠ .nfw)
    (massless : comp.mass = 0) (density : get_density L comp r = some ρ) : ρ = 0 := by
  unfold get_density at density
  cases kind : comp.type <;> rw [kind] at density
  case plummer =>
    rw [← Option.some.inj density]
    simp [plummer_den, massless]
  case nfw => exact absurd kind other
  case general_hernquist =>
    rw [← Option.some.inj density]
    simp [gen_hern_den, massless]
  case einasto => cases density
  case invalid => cases density

theorem halo_mass_ne_zero (real : RealDwarfLibm L) {c : Dwarf ℝ} {bound u : ℝ} (nonneg : 0 ≤ u)
    (accepted : 0 < u * bound * (u * bound) * nfw_den c (u * bound) /
      (sqr c.scaleLength * nfw_den c c.scaleLength)) :
    (get_extra_nfw_mass L c bound).mass ≠ 0 := by
  have pi := real.M_PI
  have scale : c.scaleLength ≠ 0 := by
    intro zero
    simp [zero, sqr] at accepted
  have dense : c.p0 ≠ 0 := by
    intro zero
    simp [zero, nfw_den] at accepted
  have peak : sqr c.scaleLength * nfw_den c c.scaleLength = c.p0 * (c.scaleLength / 2) ^ 2 := by
    rw [nfw_den, div_self scale]
    norm_num [inv, sqr]
    ring
  have shape : u * bound * (u * bound) * nfw_den c (u * bound) /
      (sqr c.scaleLength * nfw_den c c.scaleLength) = (u * (bound / c.scaleLength))⁻¹ *
        (2 * u * bound / (c.scaleLength * (1 + u * bound / c.scaleLength))) ^ 2 := by
    rw [peak, nfw_den]
    norm_num [inv, sqr]
    field_simp
  rw [shape] at accepted
  have side : 0 < u * (bound / c.scaleLength) :=
    inv_pos.mp (pos_of_mul_pos_left accepted (sq_nonneg _))
  have excess := log_excess_pos (pos_of_mul_pos_right side nonneg)
  have mass : (get_extra_nfw_mass L c bound).mass = 4 * L.M_PI * c.p0 * c.scaleLength ^ 3 *
      (Real.log (1 + bound / c.scaleLength) -
        bound / c.scaleLength / (1 + bound / c.scaleLength)) := by
    have ratio : (c.scaleLength + bound) / c.scaleLength = 1 + bound / c.scaleLength := by
      field_simp
    have part : bound / (c.scaleLength + bound) =
        bound / c.scaleLength / (1 + bound / c.scaleLength) := by
      rw [← ratio, div_div_div_cancel_right₀ scale]
    have four : (4.0 : ℝ) = 4 := by norm_num
    simp only [get_extra_nfw_mass, real.log, ratio, part, cube, four]
    ring
  rw [mass]
  have cubed := pow_ne_zero 3 scale
  positivity

theorem mass_ne_zero (real : RealDwarfLibm L) {comp c : Dwarf ℝ}
    {rscale_l rscale_d bound greatest u ρ : ℝ}
    (bounded : boundComponent L (set_p0 L comp) rscale_l rscale_d = some (c, bound))
    (found : rho_max L c = some greatest) (nonneg : 0 ≤ u)
    (density : get_density L c (u * bound) = some ρ)
    (accepted : 0 < u * bound * (u * bound) * ρ / greatest) : c.mass ≠ 0 := by
  have other (same : c.type ≠ .nfw) : c.mass ≠ 0 := by
    intro massless
    rw [get_density_massless same massless density] at accepted
    simp at accepted
  unfold boundComponent at bounded
  have kept : (set_p0 L comp).type = comp.type := rfl
  cases kind : comp.type <;> rw [kept, kind] at bounded
  case nfw =>
    cases Option.some.inj bounded
    have value : some (nfw_den (set_p0 L comp) (u * (5.0 * (set_p0 L comp).r200))) = some ρ := by
      rw [← density, get_density]
      simp only [get_extra_nfw_mass, kept, kind]
      rfl
    have greatest_eq : some (sqr comp.scaleLength * nfw_den (set_p0 L comp) comp.scaleLength) =
        some greatest := by
      rw [← found, rho_max, peakRadius]
      simp only [get_extra_nfw_mass, get_density, kept, kind]
      rfl
    exact halo_mass_ne_zero real nonneg
      (by rw [Option.some.inj value]; exact Option.some.inj greatest_eq ▸ accepted)
  case plummer =>
    cases Option.some.inj bounded
    exact other (by rw [kept, kind]; nofun)
  case general_hernquist =>
    cases Option.some.inj bounded
    exact other (by rw [kept, kind]; nofun)
  case einasto => nomatch bounded
  case invalid => nomatch bounded

theorem mixed_masses_ne_zero (real : RealDwarfLibm L) (unit : ∀ k, 0 ≤ stream k)
    (two : 2 ≤ nbody) {patience : ℕ} {comp1 comp2 comp1' comp2' : Dwarf ℝ}
    {rShift vShift : Vec3 ℝ} {bodies : List (Body ℝ)} {k k' : ℕ}
    (run : nbGenerateMixedDwarfCore L stream patience nbody comp1 comp2 rShift vShift k =
      some ((bodies, comp1', comp2'), k')) : comp1'.mass ≠ 0 ∧ comp2'.mass ≠ 0 := by
  obtain ⟨⟨c1, bound1⟩, k₁, bounded1, run⟩ := bind_eq_some run
  obtain ⟨⟨c2, bound2⟩, k₂, bounded2, run⟩ := bind_eq_some run
  obtain ⟨light, k₃, found1, run⟩ := bind_eq_some run
  obtain ⟨dark, k₄, found2, run⟩ := bind_eq_some run
  obtain ⟨t, k₅, tables, run⟩ := bind_eq_some run
  have result := Option.some.inj run
  simp only [Prod.mk.injEq] at result
  obtain ⟨⟨-, rfl, rfl⟩, -⟩ := result
  have drawn := drawTables_drawn tables
  constructor
  · obtain ⟨j, r, first⟩ := drawn 0 (by omega)
    rw [if_pos (by omega)] at first
    obtain ⟨nonzero, j', k'', sampled⟩ := drawNonzero_some first
    obtain ⟨u, ρ, nonneg, place, density, accepted⟩ := r_mag_accepted unit sampled nonzero
    dsimp only at place density accepted
    rw [place] at density accepted
    exact mass_ne_zero real (lift_eq_some bounded1).1 (lift_eq_some found1).1 nonneg density
      accepted
  · obtain ⟨j, r, last⟩ := drawn (nbody - 1) (by omega)
    rw [if_neg (by omega)] at last
    obtain ⟨nonzero, j', k'', sampled⟩ := drawNonzero_some last
    obtain ⟨u, ρ, nonneg, place, density, accepted⟩ := r_mag_accepted unit sampled nonzero
    dsimp only at place density accepted
    rw [place] at density accepted
    exact mass_ne_zero real (lift_eq_some bounded2).1 (lift_eq_some found2).1 nonneg density
      accepted

/-- For two or more bodies the generators conserve the masses and the means exactly for an
even number of bodies; the isotropic one divides by the sum of its masses. -/
theorem generators_conserve_iff (real : RealDwarfLibm L) (unit : ∀ k, 0 ≤ stream k)
    (two : 2 ≤ nbody) :
    (∀ patience comp1 comp2 comp1' comp2' rShift vShift bodies k k',
      nbGenerateMixedDwarfCore L stream patience nbody comp1 comp2 rShift vShift k =
        some ((bodies, comp1', comp2'), k') →
      (MixedConserved nbody comp1'.mass comp2'.mass rShift vShift bodies ↔ Even nbody)) ∧
    ∀ mass1 mass2 rShift vShift radiusScale1 radiusScale2 bodies k k',
      nbGenerateIsotropicCore L stream nbody mass1 mass2 rShift vShift radiusScale1
        radiusScale2 k = some (bodies, k') →
      (IsotropicConserved nbody mass1 mass2 rShift vShift bodies ↔
        Even nbody ∧ mass1 + mass2 ≠ 0) := by
  have positive : 0 < nbody := by omega
  constructor
  · intro patience comp1 comp2 comp1' comp2' rShift vShift bodies k k' run
    obtain ⟨some_l, some_d⟩ := mixed_masses_ne_zero real unit two run
    obtain ⟨t, shares, rfl⟩ := nbGenerateMixedDwarfCore_eq run
    rw [mixedConserved_iff shares positive rShift vShift]
    exact and_iff_left ⟨some_l, some_d⟩
  · intro mass1 mass2 rShift vShift radiusScale1 radiusScale2 bodies k k' run
    obtain ⟨t, shares, rfl⟩ := nbGenerateIsotropicCore_eq run
    exact isotropicConserved_iff shares positive rShift vShift

end MilkyWay.NBody
