import MilkyWay.Separation.Coordinates
import Mathlib.Tactic.SplitIfs

/-! The parameters of a work unit are written into what all units share, and the constants
that follow from them are calculated in place. -/

namespace MilkyWay.Separation

open Foundation

/-- What the work units of a run share. -/
structure Shared (R : Type) where
  ap : AstronomyParameters R
  bgp : BackgroundParameters R
  streams : Streams R

section
variable {R : Type} [Zero R] [Add R] [Neg R] [Sub R] [Mul R] [Div R] [OfScientific R] [IntCast R]
  [BEq R] [LT R] [DecidableLT R] [LE R] [DecidableLE R]

def Shared.write (s : Shared R) (parameter : ℕ → R) : Shared R :=
  let nBGParams := 2
  let nStreamParams := 6
  { s with
    bgp := { s.bgp with epsilon := parameter 0, q := parameter 1 }
    streams := { s.streams with
      parameters := s.streams.parameters.mapIdx fun i stream =>
        let idx := nBGParams + i * nStreamParams
        { stream with
          epsilon := parameter (idx + 0)
          mu := parameter (idx + 1)
          r := parameter (idx + 2)
          theta := parameter (idx + 3)
          phi := parameter (idx + 4)
          sigma := parameter (idx + 5) } } }

/-- Writes the parameters of a unit; their number is an unsigned one. -/
def setParameters (s : Shared R) (parameters : List R) (numberParameters : ℕ) :
    Option (Shared R) :=
  let nBGParams := 2
  let nStreamParams := 6
  let left := (numberParameters + 2 ^ 32 - nBGParams) % 2 ^ 32
  let nStream := left / nStreamParams
  if nStream ≠ s.ap.number_streams then none
  else if left % nStreamParams ≠ 0 then none
  else some (s.write fun i => parameters.getD i 0)

def chooseProfile (ap : AstronomyParameters R) : AstronomyParameters R :=
  if ap.background_profile ≠ .brokenPowerLaw then
    { ap with
      alpha_delta3 := 3.0 - ap.innerPower + ap.outerPower
      background_profile :=
        if ap.innerPower == 1.0 && ap.outerPower == 1.0 then .fastHernquist else .slowHernquist }
  else { ap with alpha_delta3 := ap.outerPower - ap.innerPower }

def setAstronomyParameters (ap : AstronomyParameters R) (bgp : BackgroundParameters R) :
    Option (AstronomyParameters R) :=
  let ap := { ap with
    innerPower := bgp.innerPower
    q := bgp.q
    r0 := 12.0
    outerPower := bgp.outerPower
    q_inv := inv bgp.q
    q_inv_sqr := inv (sqr bgp.q)
    aux_bg_profile := bgp.a != 0.0 || bgp.b != 0.0 || bgp.c != 0.0
    bg_a := bgp.a
    bg_b := bgp.b
    bg_c := bgp.c }
  if ap.convolve = 0 ∨ MAX_CONVOLVE < ap.convolve ∨ ap.convolve % 2 ≠ 0 then none
  else if bgp.epsilon < 0.0 ∨ 1.0 < bgp.epsilon then none
  else
    let ap := { ap with
      background_weight := bgp.epsilon
      thick_disk_weight := 1.0 - bgp.epsilon }
    some { chooseProfile ap with sun_r0 := const_sun_r0, m_sun_r0 := -const_sun_r0 }

def setExpStreamWeights (L : Libm R) (streams : Streams R) : Streams R :=
  let parameters := streams.parameters.map fun stream =>
    { stream with epsilonExp := L.exp stream.epsilon }
  { parameters
    sumExpWeights := (parameters.foldl (fun sum stream => sum + stream.epsilonExp) 1.0) * 0.001 }

def SIGMA_LIMIT : R := 0.0001

def streamA (L : Libm R) (parameters : StreamParameters R) : Vec3 R :=
  ⟨L.sin parameters.theta * L.cos parameters.phi, L.sin parameters.theta * L.sin parameters.phi,
    L.cos parameters.theta⟩

def streamC (L : Libm R) (ap : AstronomyParameters R) (wedge : ℤ) (mu r : R) : Vec3 R :=
  lbr2xyz L ap (gc2lb L wedge mu 0.0) r

/-- A stream without a width is not valid. -/
def getStreamConstants (L : Libm R) (ap : AstronomyParameters R) (streams : Streams R) :
    Option (List (StreamConstants R)) :=
  streams.parameters.mapM fun stream =>
    if stream.sigma == 0.0 then none
    else some
      { large_sigma := SIGMA_LIMIT < stream.sigma || stream.sigma < -SIGMA_LIMIT
        sigma_sq2_inv := 1.0 / (2.0 * sqr stream.sigma)
        a := streamA L stream
        c := streamC L ap ap.wedge stream.mu stream.r }

/-- What is done for a unit before it is evaluated. -/
def setUp (L : Libm R) (numArgs : Option (List R)) (s : Shared R) :
    Option (Shared R × List (StreamConstants R)) := do
  let s ← match numArgs with
    | some args =>
        setParameters s (args.drop (s.ap.params_per_workunit * s.ap.currentWU))
          s.ap.params_per_workunit
    | none => some s
  let ap ← setAstronomyParameters s.ap s.bgp
  let streams := setExpStreamWeights L s.streams
  let sc ← getStreamConstants L ap streams
  return ({ s with ap, streams }, sc)

end

theorem enough_parameters {R : Type} [Zero R] {s s' : Shared R} {parameters : List R} {p : ℕ}
    (set : setParameters s parameters p = some s') :
    6 * s.ap.number_streams + 2 ≤ p ∧ s' = s.write fun i => parameters.getD i 0 := by
  unfold setParameters at set
  dsimp only at set
  split_ifs at set with streams divisible
  exact ⟨by omega, (Option.some.inj set).symm⟩

theorem setParameters_of_streams {R : Type} [Zero R] {s s' t : Shared R}
    {parameters : List R} (parameters' : List R) {p : ℕ}
    (streams : t.ap.number_streams = s.ap.number_streams)
    (set : setParameters s parameters p = some s') :
    setParameters t parameters' p = some (t.write fun i => parameters'.getD i 0) := by
  unfold setParameters at set ⊢
  rw [streams]
  dsimp only at set ⊢
  split_ifs at set with fits divisible
  rw [if_neg fits, if_neg divisible]

theorem setExpStreamWeights_write {R : Type} [Add R] [Mul R] [OfScientific R] (L : Libm R)
    {s t : Shared R} {parameter parameter' : ℕ → R} {n : ℕ}
    (places : s.streams.parameters.length = n) (places' : t.streams.parameters.length = n)
    (same : ∀ i < 6 * n + 2, parameter i = parameter' i) :
    setExpStreamWeights L (s.write parameter).streams =
      setExpStreamWeights L (t.write parameter').streams := by
  have parameters : (setExpStreamWeights L (s.write parameter).streams).parameters =
      (setExpStreamWeights L (t.write parameter').streams).parameters := by
    refine List.ext_getElem (by simp [setExpStreamWeights, Shared.write, places, places'])
      fun i lt lt' => ?_
    have inside : i < n := by simpa [setExpStreamWeights, Shared.write, places] using lt
    simp only [setExpStreamWeights, Shared.write, List.getElem_map, List.getElem_mapIdx]
    rw [same _ (by omega), same _ (by omega), same _ (by omega), same _ (by omega),
      same _ (by omega), same _ (by omega)]
  unfold setExpStreamWeights at parameters ⊢
  dsimp only at parameters ⊢
  rw [parameters]

section
variable {R : Type} [Zero R] [Add R] [Neg R] [Sub R] [Mul R] [Div R] [OfScientific R]
  [BEq R] [LT R] [DecidableLT R]

/-! ## What a unit takes over from the units before it -/

def AstronomyParameters.forUnit (ap : AstronomyParameters R) (currentWU totalWUs : ℕ) :
    AstronomyParameters R :=
  { ap with currentWU, totalWUs }

def AstronomyParameters.bare (ap : AstronomyParameters R) : AstronomyParameters R where
  params_per_workunit := ap.params_per_workunit
  currentWU := 0
  totalWUs := 0
  m_sun_r0 := 0
  q_inv := 0
  q_inv_sqr := 0
  r0 := 0
  convolve := ap.convolve
  number_streams := ap.number_streams
  background_profile :=
    if ap.background_profile = .brokenPowerLaw then .brokenPowerLaw else .fastHernquist
  aux_bg_profile := false
  innerPower := 0
  outerPower := 0
  alpha_delta3 := 0
  bg_a := 0
  bg_b := 0
  bg_c := 0
  wedge := ap.wedge
  sun_r0 := 0
  q := 0
  modfit := ap.modfit
  number_integrals := ap.number_integrals
  background_weight := 0
  thick_disk_weight := 0

structure Frame (s t : Shared R) : Prop where
  ap : s.ap.bare = t.ap.bare
  bgp : { s.bgp with epsilon := 0, q := 0 } = { t.bgp with epsilon := 0, q := 0 }
  places : s.streams.parameters.length = s.ap.number_streams
  places' : t.streams.parameters.length = t.ap.number_streams

theorem setAstronomyParameters_bare (ap : AstronomyParameters R) (bgp : BackgroundParameters R) :
    setAstronomyParameters ap bgp =
      (setAstronomyParameters ap.bare bgp).map (·.forUnit ap.currentWU ap.totalWUs) := by
  unfold setAstronomyParameters AstronomyParameters.bare chooseProfile
  dsimp only
  split_ifs <;> simp_all <;> rfl

theorem bare_setAstronomyParameters {ap ap' : AstronomyParameters R}
    {bgp : BackgroundParameters R} (set : setAstronomyParameters ap bgp = some ap') :
    ap'.bare = ap.bare := by
  unfold setAstronomyParameters at set
  dsimp only at set
  split_ifs at set
  cases set
  unfold chooseProfile AstronomyParameters.bare
  cases ap.background_profile with
  | brokenPowerLaw => rfl
  | slowHernquist | fastHernquist =>
      simp only [ne_eq, reduceCtorEq, not_false_eq_true, if_true, if_false]
      rw [if_neg (by split <;> simp)]

variable [IntCast R] [LE R] [DecidableLE R] (L : Libm R)

theorem setUp_numbers {s s' : Shared R} {sc : List (StreamConstants R)}
    {numArgs : Option (List R)} (set : setUp L numArgs s = some (s', sc)) :
    s'.ap.currentWU = s.ap.currentWU ∧ s'.ap.totalWUs = s.ap.totalWUs := by
  have numbers : ∀ {ap bgp}, setAstronomyParameters s.ap bgp = some ap →
      ap.currentWU = s.ap.currentWU ∧ ap.totalWUs = s.ap.totalWUs := by
    intro ap bgp calculated
    rw [setAstronomyParameters_bare] at calculated
    obtain ⟨ap₀, -, rfl⟩ := Option.map_eq_some_iff.mp calculated
    exact ⟨rfl, rfl⟩
  cases numArgs with
  | none =>
      simp only [setUp, Option.bind_eq_bind, Option.bind_some, Option.bind_eq_some_iff,
        Option.pure_def, Option.some.injEq, Prod.mk.injEq] at set
      obtain ⟨ap, calculated, sc₁, constants, rfl, rfl⟩ := set
      exact numbers calculated
  | some args =>
      simp only [setUp, Option.bind_eq_bind, Option.bind_eq_some_iff, Option.pure_def,
        Option.some.injEq, Prod.mk.injEq] at set
      obtain ⟨s₁, written, ap, calculated, sc₁, constants, rfl, rfl⟩ := set
      rw [(enough_parameters written).2] at calculated
      exact numbers calculated

theorem setUp_frame {s t s' : Shared R} {sc : List (StreamConstants R)} {args : List R}
    (args' : List R) (frame : Frame s t)
    (same : ∀ i < s.ap.params_per_workunit,
      (args.drop (s.ap.params_per_workunit * s.ap.currentWU)).getD i 0 =
        (args'.drop (t.ap.params_per_workunit * t.ap.currentWU)).getD i 0)
    (set : setUp L (some args) s = some (s', sc)) :
    ∃ t', setUp L (some args') t = some (t', sc) ∧ t'.streams = s'.streams ∧
      t'.ap = s'.ap.forUnit t.ap.currentWU t.ap.totalWUs ∧ Frame s s' := by
  have streams : t.ap.number_streams = s.ap.number_streams :=
    (congrArg (·.number_streams) frame.ap).symm
  have params : t.ap.params_per_workunit = s.ap.params_per_workunit :=
    (congrArg (·.params_per_workunit) frame.ap).symm
  simp only [setUp, Option.bind_eq_bind, Option.bind_eq_some_iff, Option.pure_def,
    Option.some.injEq, Prod.mk.injEq] at set
  obtain ⟨s₁, written, ap, calculated, sc₁, constants, rfl, rfl⟩ := set
  obtain ⟨enough, rfl⟩ := enough_parameters written
  let parameter := fun i => (args.drop (s.ap.params_per_workunit * s.ap.currentWU)).getD i 0
  let parameter' := fun i => (args'.drop (t.ap.params_per_workunit * t.ap.currentWU)).getD i 0
  have within : ∀ i < 6 * s.ap.number_streams + 2, parameter i = parameter' i := fun i lt =>
    same i (lt.trans_le enough)
  have bgp : (t.write parameter').bgp = (s.write parameter).bgp := by
    have rest := frame.bgp
    have epsilon : parameter' 0 = parameter 0 := (within 0 (by omega)).symm
    have q : parameter' 1 = parameter 1 := (within 1 (by omega)).symm
    simp only [BackgroundParameters.mk.injEq] at rest
    simp only [Shared.write, epsilon, q, rest]
  have weights : setExpStreamWeights L (t.write parameter').streams =
      setExpStreamWeights L (s.write parameter).streams :=
    (setExpStreamWeights_write L frame.places (frame.places'.trans streams) within).symm
  have written' := setParameters_of_streams
    (args'.drop (t.ap.params_per_workunit * t.ap.currentWU)) streams written
  have bare : (setAstronomyParameters s.ap.bare (s.write parameter).bgp).map
      (·.forUnit s.ap.currentWU s.ap.totalWUs) = some ap :=
    (setAstronomyParameters_bare _ _).symm.trans calculated
  obtain ⟨ap₀, calculated₀, rfl⟩ := Option.map_eq_some_iff.mp bare
  have calculated' : setAstronomyParameters (t.write parameter').ap (t.write parameter').bgp =
      some (ap₀.forUnit t.ap.currentWU t.ap.totalWUs) := by
    rw [bgp, show (t.write parameter').ap = t.ap from rfl, setAstronomyParameters_bare,
      ← frame.ap, calculated₀]
    rfl
  have constants' : getStreamConstants L (ap₀.forUnit t.ap.currentWU t.ap.totalWUs)
      (setExpStreamWeights L (t.write parameter').streams) = some sc₁ := by
    rw [weights]
    exact constants
  have kept : (ap₀.forUnit s.ap.currentWU s.ap.totalWUs).bare = s.ap.bare :=
    bare_setAstronomyParameters calculated
  refine ⟨{ (t.write parameter') with
      ap := ap₀.forUnit t.ap.currentWU t.ap.totalWUs
      streams := setExpStreamWeights L (t.write parameter').streams }, ?_, weights, rfl,
    kept.symm, rfl, frame.places, ?_⟩
  · refine Option.bind_eq_some_iff.mpr ⟨_, ?_, Option.bind_eq_some_iff.mpr ⟨_, calculated',
      Option.bind_eq_some_iff.mpr ⟨_, constants', rfl⟩⟩⟩
    rw [← params] at written'
    exact written'
  · have length : (setExpStreamWeights L (s.write parameter).streams).parameters.length =
        s.ap.number_streams := by
      simp only [setExpStreamWeights, Shared.write, List.length_map, List.length_mapIdx,
        frame.places]
    exact length.trans (congrArg (·.number_streams) kept).symm

end

end MilkyWay.Separation
