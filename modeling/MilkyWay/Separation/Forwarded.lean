import MilkyWay.Separation.BatchIndependence
import MilkyWay.Separation.WorkUnits

/-! The numbers of the command line on their way to the work units: the parameter file says
how many of them a unit takes, and the worker cuts them up. -/

namespace MilkyWay.Separation

open Foundation

/-! ## Parameter files -/

structure AreaRange (R : Type) where
  min : R
  max : R
  steps : ℕ

structure FileArea (R : Type) where
  r : AreaRange R
  mu : AreaRange R
  nu : AreaRange R

structure FileStream (R : Type) where
  parameters : StreamParameters R
  optimize_weight : ℤ
  optimize_parameter : List ℤ

def countOptimized (expected_input_params : ℕ) (optimize_parameter : List ℤ) : ℕ :=
  optimize_parameter.foldl (fun n optimize => if optimize ≠ 0 then n + 1 else n)
    expected_input_params

structure FileOptions where
  optimize_background_weight : ℤ
  optimize_parameter : List ℤ

structure OldFile (R : Type) where
  background_weight : R
  innerPower : R
  q : R
  outerPower : R
  background : FileOptions
  streams : List (FileStream R)
  convolve : ℕ
  sgr_coordinates : ℤ
  wedge : ℤ
  area : FileArea R
  cuts : List (FileArea R)

structure LuaFile (R : Type) where
  background : BackgroundParameters R
  streams : List (StreamParameters R)
  sun_r0 : R
  convolve : ℕ
  wedge : ℤ
  areas : List (IntegralArea R)

def OldFile.expected_input_params {R : Type} (file : OldFile R) : ℕ :=
  let background := if file.background.optimize_background_weight ≠ 0 then 1 else 0
  file.streams.foldl
    (fun expected stream =>
      countOptimized (if stream.optimize_weight ≠ 0 then expected + 1 else expected)
        stream.optimize_parameter)
    (countOptimized background file.background.optimize_parameter)

/-- A parameter file read as a script, which is given the arguments, and in the old format,
where a number counts the parameters that are optimized. -/
structure ParameterFile (R : Type) where
  script : List String → Option (LuaFile R)
  old : Option { file : OldFile R // file.expected_input_params < 2 ^ 31 }

inductive ReadError
  | divisionByZero
  | unreadable

def UINT64_MAX : ℕ := 2 ^ 64 - 1

section
variable {R : Type}

def checkCalcProbs (ia : IntegralArea R) : Except ReadError Unit :=
  let r := ia.r_steps
  let mu := ia.mu_steps
  let nu := ia.nu_steps
  if mu = 0 then throw .divisionByZero
  else if UINT64_MAX / mu < r then throw .unreadable
  else if nu = 0 then throw .divisionByZero
  else if UINT64_MAX / nu < r * mu then throw .unreadable
  else return ()

def checkIntegralAreasOK (ias : List (IntegralArea R)) : Bool :=
  ias.all fun ia =>
    !(ia.nu_steps = 0 || ia.r_steps = 0 || ia.mu_steps = 0) &&
      (ia.nu_steps % 2 = 0 && ia.r_steps % 2 = 0 && ia.mu_steps % 2 = 0)

/-- The arguments as numbers, if there are any and all of them can be read. -/
def mwReadRestArgs (strtod : String → R × Bool) (rest : List String) : Option (List R) :=
  if rest.isEmpty then none
  else rest.mapM fun arg =>
    let (x, errno) := strtod arg
    if errno then none else some x

variable [Zero R] [Add R] [Neg R] [Sub R] [Mul R] [Div R] [OfScientific R] [NatCast R] [IntCast R]
  [BEq R] [LT R] [DecidableLT R] [LE R] [DecidableLE R]

def calcIntegralStepSizes (i : FileArea R) : IntegralArea R where
  r_min := i.r.min
  r_step_size := (i.r.max - i.r.min) / (i.r.steps : R)
  nu_min := i.nu.min
  nu_step_size := (i.nu.max - i.nu.min) / (i.nu.steps : R)
  mu_min := i.mu.min
  mu_step_size := (i.mu.max - i.mu.min) / (i.mu.steps : R)
  r_steps := i.r.steps
  nu_steps := i.nu.steps
  mu_steps := i.mu.steps

def emptyParameters (modfit background : Bool) : AstronomyParameters R where
  params_per_workunit := 0
  currentWU := 0
  totalWUs := 0
  m_sun_r0 := 0
  q_inv := 0
  q_inv_sqr := 0
  r0 := 0
  convolve := 0
  number_streams := 0
  background_profile := if background then .brokenPowerLaw else .fastHernquist
  aux_bg_profile := false
  innerPower := 0
  outerPower := 0
  alpha_delta3 := 0
  bg_a := 0
  bg_b := 0
  bg_c := 0
  wedge := 0
  sun_r0 := 0
  q := 0
  modfit
  number_integrals := 0
  background_weight := 0
  thick_disk_weight := 0

def freadParameters (file : OldFile R) (ap : AstronomyParameters R) :
    Except ReadError (Shared R × List (IntegralArea R)) := do
  if file.sgr_coordinates ≠ 0 then throw .unreadable
  let integrals := (file.area :: file.cuts).map calcIntegralStepSizes
  integrals.forM checkCalcProbs
  if !checkIntegralAreasOK integrals then throw .unreadable
  let parameters := file.streams.map (·.parameters)
  return (
    { ap := { ap with
        number_streams := parameters.length
        params_per_workunit := file.expected_input_params
        convolve := file.convolve
        wedge := file.wedge
        number_integrals := integrals.length }
      bgp := ⟨file.innerPower, file.q, file.outerPower, file.background_weight, 0.0, 0.0, 0.0⟩
      streams := ⟨parameters, 0.0⟩ }, integrals)

/-- The script says nothing about the number of the parameters. -/
def setupSeparation (file : LuaFile R) (ap : AstronomyParameters R) :
    Shared R × List (IntegralArea R) :=
  ({ ap := { ap with
      number_streams := file.streams.length
      number_integrals := file.areas.length
      convolve := file.convolve
      sun_r0 := file.sun_r0
      wedge := file.wedge }
     bgp := file.background
     streams := ⟨file.streams, 0.0⟩ }, file.areas)

def prepareParameters (file : ParameterFile R) (forwardedArgs : List String)
    (ap : AstronomyParameters R) : Except ReadError (Shared R × List (IntegralArea R)) :=
  match file.script forwardedArgs with
  | some script => .ok (setupSeparation script ap)
  | none =>
    match file.old with
    | some old => freadParameters old.1 ap
    | none => .error .unreadable

/-! ## The units -/

/-- What the worker comes to: a unit is evaluated with the shared structures and the constants
of its streams. -/
inductive Units (R : Type)
  | divisionByZero
  | rejected (units : List (Shared R × List (StreamConstants R)))
  | evaluated (units : List (Shared R × List (StreamConstants R)))

def Units.cons (unit : Shared R × List (StreamConstants R)) : Units R → Units R
  | .divisionByZero => .divisionByZero
  | .rejected units => .rejected (unit :: units)
  | .evaluated units => .evaluated (unit :: units)

/-- The loop over the units that are left when no unit is resumed. -/
def Program.loop (P : Program R) : ℕ → Shared R → Units R
  | 0, _ => .evaluated []
  | left + 1, s =>
    match setUp P.L P.numArgs s with
    | none => .rejected []
    | some (s, sc) =>
      (P.loop left { s with ap := { s.ap with currentWU := s.ap.currentWU + 1 } }).cons (s, sc)

def Program.withArguments (P : Program R) (strtod : String → R × Bool) (rest : List String)
    (ias : List (IntegralArea R)) : Program R :=
  { P with
    ias := fun i => ias.getD i (calcIntegralStepSizes ⟨⟨0, 0, 0⟩, ⟨0, 0, 0⟩, ⟨0, 0, 0⟩⟩)
    numArgs := mwReadRestArgs strtod rest
    nForwardedArgs := rest.length }

/-- The worker on a parameter file and arguments. -/
def Program.workerUnits (P : Program R) (strtod : String → R × Bool) (modfit background : Bool)
    (file : ParameterFile R) (rest : List String) : Units R :=
  match prepareParameters file rest (emptyParameters modfit background) with
  | .error .divisionByZero => .divisionByZero
  | .error .unreadable => .rejected []
  | .ok (prepared, ias) =>
    let P := P.withArguments strtod rest ias
    if P.nForwardedArgs ≠ 0 ∧ prepared.ap.params_per_workunit = 0 then .divisionByZero
    else
      let s := P.prepare prepared
      P.loop s.ap.totalWUs s

/-! ## The numbers of a unit -/

def unitNumbers (s : Shared R) : List R :=
  [s.bgp.epsilon, s.bgp.q] ++ s.streams.parameters.flatMap fun stream =>
    [stream.epsilon, stream.mu, stream.r, stream.theta, stream.phi, stream.sigma]

/-- The input is rejected, or each unit has the numbers at its place and all have been
used. -/
def Partitioned (numbers : List R) : Units R → Prop
  | .divisionByZero => False
  | .rejected _ => True
  | .evaluated units =>
    numbers = [] ∨
      (∀ k (h : k < units.length), unitNumbers (units.get ⟨k, h⟩).1 =
          (numbers.drop ((units.get ⟨k, h⟩).1.ap.params_per_workunit * k)).take
            (units.get ⟨k, h⟩).1.ap.params_per_workunit) ∧
        units.flatMap (fun unit => unitNumbers unit.1) = numbers

end

section
variable {R : Type}

theorem flatMap_six {α β : Type*} (l : List α) (parameter : ℕ → β) (f : ℕ → α → List β)
    (six : ∀ i x, f i x = (List.range 6).map fun j => parameter (i * 6 + j)) :
    (l.mapIdx f).flatten = (List.range (6 * l.length)).map parameter := by
  induction l using List.reverseRecOn with
  | nil => rfl
  | append_singleton l x ih =>
      have more : 6 * (l ++ [x]).length = 6 * l.length + 6 := by
        rw [List.length_append]
        rfl
      rw [List.mapIdx_append, List.flatten_append, ih, more, List.range_add, List.map_append]
      simp only [List.mapIdx_cons, List.mapIdx_nil, List.flatten_cons, List.flatten_nil,
        List.append_nil, six, zero_add, List.map_map, Nat.mul_comm]
      rfl

theorem unitNumbers_write {s : Shared R} (parameter : ℕ → R) :
    unitNumbers (s.write parameter) =
      (List.range (2 + 6 * s.streams.parameters.length)).map parameter := by
  have streams := flatMap_six s.streams.parameters (fun i => parameter (2 + i))
    (fun i (_ : StreamParameters R) => (List.range 6).map fun j => parameter (2 + (i * 6 + j)))
    fun _ _ => rfl
  rw [List.range_add, List.map_append, List.map_map]
  refine congrArg ([parameter 0, parameter 1] ++ ·) (Eq.trans ?_ streams)
  rw [List.flatMap_def, Shared.write, List.mapIdx_eq_zipIdx_map, List.mapIdx_eq_zipIdx_map,
    List.map_map]
  rfl

theorem unitNumbers_setExpStreamWeights [Add R] [Mul R] [OfScientific R] (L : Libm R)
    (s : Shared R) (ap : AstronomyParameters R) :
    unitNumbers { s with ap, streams := setExpStreamWeights L s.streams } = unitNumbers s := by
  unfold unitNumbers setExpStreamWeights
  rw [List.flatMap_map]

theorem slice_eq_map [Zero R] (args : List R) {start n : ℕ} (enough : start + n ≤ args.length) :
    (List.range n).map (fun i => (args.drop start).getD i 0) = (args.drop start).take n := by
  refine List.ext_getElem (by simp; omega) fun i lt lt' => ?_
  have inside : i < n := by simpa using lt
  have lt'' : i < (args.drop start).length := by
    rw [List.length_drop]
    omega
  rw [List.getElem_map, List.getElem_range, List.getElem_take, List.getD_eq_getElem _ _ lt'']

variable [Zero R] [Add R] [Neg R] [Sub R] [Mul R] [Div R] [OfScientific R] [IntCast R]
  [BEq R] [LT R] [DecidableLT R] [LE R] [DecidableLE R] {P : Program R} {prepared : Shared R}

theorem params_of_setParameters {R : Type} [Zero R] {s s' : Shared R} {parameters : List R}
    {p : ℕ} (fits : p < 2 ^ 31) (set : setParameters s parameters p = some s') :
    p = 2 + 6 * s.ap.number_streams := by
  unfold setParameters at set
  dsimp only at set
  split_ifs at set with streams divisible
  omega

theorem loop_spec {I : Shared R → Prop} {Rejected : ℕ → Prop} {numbers : ℕ → List R} {p : ℕ}
    (reject : ∀ s, I s → (setUp P.L P.numArgs s = none ↔ Rejected s.ap.currentWU))
    (step : ∀ s s' sc, I s → setUp P.L P.numArgs s = some (s', sc) →
      I { s' with ap := { s'.ap with currentWU := s'.ap.currentWU + 1 } } ∧
        s'.ap.currentWU = s.ap.currentWU ∧ s'.ap.params_per_workunit = p ∧
        unitNumbers s' = numbers s.ap.currentWU)
    (left : ℕ) (s : Shared R) (holds : I s) :
    ((∃ j < left, Rejected (s.ap.currentWU + j)) ∧ ∃ units, P.loop left s = .rejected units) ∨
      (¬∃ j < left, Rejected (s.ap.currentWU + j)) ∧ ∃ units, P.loop left s = .evaluated units ∧
        units.map (fun unit => (unit.1.ap.params_per_workunit, unitNumbers unit.1)) =
          (List.range left).map fun j => (p, numbers (s.ap.currentWU + j)) := by
  induction left generalizing s with
  | zero => exact .inr ⟨nofun, [], rfl, rfl⟩
  | succ left ih =>
      rw [Program.loop]
      match set : setUp P.L P.numArgs s with
      | none => exact .inl ⟨⟨0, left.succ_pos, (reject s holds).mp set⟩, [], rfl⟩
      | some (s', sc) =>
          obtain ⟨holds', current, params, own⟩ := step s s' sc holds set
          have accepted : ¬Rejected s.ap.currentWU := fun rejected => by
            rw [(reject s holds).mpr rejected] at set
            cases set
          have shift : ∀ j, s'.ap.currentWU + 1 + j = s.ap.currentWU + (j + 1) := by omega
          have later : (∃ j < left, Rejected (s'.ap.currentWU + 1 + j)) ↔
              ∃ j < left + 1, Rejected (s.ap.currentWU + j) := by
            simp only [shift]
            exact ((Nat.exists_lt_succ_left (p := fun j => Rejected (s.ap.currentWU + j))).trans
              (or_iff_right accepted)).symm
          dsimp only
          obtain ⟨rejected, units, loop⟩ | ⟨none, units, loop, all⟩ := ih _ holds'
          · exact .inl ⟨later.mp rejected, (s', sc) :: units, by rw [loop]; rfl⟩
          · refine .inr ⟨fun rejected => none (later.mpr rejected), (s', sc) :: units,
              by rw [loop]; rfl, ?_⟩
            rw [List.map_cons, all, List.range_succ_eq_map, List.map_cons, List.map_map, params,
              own]
            simp only [shift]
            rfl

/-! ### Units with numbers -/

theorem setUp_numArgs {s s' : Shared R} {sc : List (StreamConstants R)} {args : List R}
    (places : s.streams.parameters.length = s.ap.number_streams)
    (fits : s.ap.params_per_workunit < 2 ^ 31) (set : setUp P.L (some args) s = some (s', sc)) :
    unitNumbers s' = (List.range s.ap.params_per_workunit).map fun i =>
      (args.drop (s.ap.params_per_workunit * s.ap.currentWU)).getD i 0 := by
  simp only [setUp, Option.bind_eq_bind, Option.bind_eq_some_iff, Option.pure_def,
    Option.some.injEq, Prod.mk.injEq] at set
  obtain ⟨s₁, written, ap, calculated, sc₁, constants, rfl, rfl⟩ := set
  have params := params_of_setParameters fits written
  rw [unitNumbers_setExpStreamWeights, (enough_parameters written).2, unitNumbers_write, places,
    ← params]

theorem frame_atUnit {R : Type} [Zero R] {P : Program R} {prepared s : Shared R}
    (frame : Frame (P.prepare prepared) s) (unit : ℕ) : Frame (P.atUnit prepared unit) s :=
  ⟨frame.ap, frame.bgp, frame.places, frame.places'⟩

theorem setUp_atUnit_none {s : Shared R} {args : List R} (frame : Frame (P.prepare prepared) s) :
    setUp P.L (some args) s = none ↔
      setUp P.L (some args) (P.atUnit prepared s.ap.currentWU) = none := by
  have params : (P.atUnit prepared s.ap.currentWU).ap.params_per_workunit =
      s.ap.params_per_workunit := congrArg (·.params_per_workunit) frame.ap
  have frame := frame_atUnit frame s.ap.currentWU
  have back : Frame s (P.atUnit prepared s.ap.currentWU) :=
    ⟨frame.ap.symm, frame.bgp.symm, frame.places', frame.places⟩
  rw [← not_iff_not, ← ne_eq, ← ne_eq, Option.ne_none_iff_exists', Option.ne_none_iff_exists']
  constructor
  · rintro ⟨⟨s', sc⟩, set⟩
    obtain ⟨t, set', -⟩ := setUp_frame P.L args back (fun i _ => by rw [params]; rfl) set
    exact ⟨_, set'⟩
  · rintro ⟨⟨s', sc⟩, set⟩
    obtain ⟨t, set', -⟩ := setUp_frame P.L args frame (fun i _ => by rw [params]; rfl) set
    exact ⟨_, set'⟩

/-! ### Units with the numbers of the file -/

structure Untold {R : Type} [Zero R] [Add R] [Mul R] [OfScientific R] (L : Libm R)
    (s t : Shared R) : Prop where
  ap : s.ap.bare = t.ap.bare
  bgp : s.bgp = t.bgp
  streams : setExpStreamWeights L s.streams = setExpStreamWeights L t.streams

theorem Untold.numbers {R : Type} [Zero R] [Add R] [Mul R] [OfScientific R] {L : Libm R}
    {s t : Shared R} (untold : Untold L s t) : unitNumbers s = unitNumbers t := by
  rw [← unitNumbers_setExpStreamWeights L s s.ap, ← unitNumbers_setExpStreamWeights L t t.ap]
  unfold unitNumbers
  rw [untold.bgp, untold.streams]

theorem setExpStreamWeights_twice {R : Type} [Add R] [Mul R] [OfScientific R] (L : Libm R)
    (streams : Streams R) :
    setExpStreamWeights L (setExpStreamWeights L streams) = setExpStreamWeights L streams := by
  unfold setExpStreamWeights
  simp only [List.map_map]
  rfl

theorem setUp_untold {L : Libm R} {s t s' : Shared R} {sc : List (StreamConstants R)}
    (untold : Untold L s t) (set : setUp L none s = some (s', sc)) :
    (∃ t', setUp L none t = some (t', sc)) ∧ Untold L s' s ∧
      s'.ap.currentWU = s.ap.currentWU := by
  have current := (setUp_numbers L set).1
  simp only [setUp, Option.bind_eq_bind, Option.bind_some, Option.bind_eq_some_iff,
    Option.pure_def, Option.some.injEq, Prod.mk.injEq] at set ⊢
  obtain ⟨ap, calculated, sc₁, constants, rfl, rfl⟩ := set
  have bare := (setAstronomyParameters_bare _ _).symm.trans calculated
  obtain ⟨ap₀, calculated₀, rfl⟩ := Option.map_eq_some_iff.mp bare
  have calculated' : setAstronomyParameters t.ap t.bgp =
      some (ap₀.forUnit t.ap.currentWU t.ap.totalWUs) := by
    rw [setAstronomyParameters_bare, ← untold.ap, ← untold.bgp, calculated₀]
    rfl
  refine ⟨⟨_, _, calculated', sc₁, ?_, rfl, rfl⟩,
    ⟨bare_setAstronomyParameters calculated, rfl, setExpStreamWeights_twice L s.streams⟩, current⟩
  rw [← untold.streams]
  exact constants

theorem setUp_untold_none {L : Libm R} {s t : Shared R} (untold : Untold L s t) :
    setUp L none s = none ↔ setUp L none t = none := by
  rw [← not_iff_not, ← ne_eq, ← ne_eq, Option.ne_none_iff_exists', Option.ne_none_iff_exists']
  constructor
  · rintro ⟨⟨s', sc⟩, set⟩
    obtain ⟨⟨t', set'⟩, -⟩ := setUp_untold untold set
    exact ⟨_, set'⟩
  · rintro ⟨⟨t', sc⟩, set⟩
    obtain ⟨⟨s', set'⟩, -⟩ :=
      setUp_untold ⟨untold.ap.symm, untold.bgp.symm, untold.streams.symm⟩ set
    exact ⟨_, set'⟩

/-! ### The loop -/

variable {left : ℕ} {s : Shared R}

theorem partitioned_nil : Partitioned [] (P.loop left s) := by
  have some : ∃ units, P.loop left s = .rejected units ∨ P.loop left s = .evaluated units := by
    induction left generalizing s with
    | zero => exact ⟨[], .inr rfl⟩
    | succ left ih =>
        rw [Program.loop]
        match setUp P.L P.numArgs s with
        | none => exact ⟨[], .inl rfl⟩
        | some (s', sc) =>
            obtain ⟨units, loop | loop⟩ :=
              @ih { s' with ap := { s'.ap with currentWU := s'.ap.currentWU + 1 } }
            · exact ⟨(s', sc) :: units, .inl (by dsimp only; rw [loop]; rfl)⟩
            · exact ⟨(s', sc) :: units, .inr (by dsimp only; rw [loop]; rfl)⟩
  obtain ⟨units, loop | loop⟩ := some
  · rw [loop]
    trivial
  · rw [loop]
    exact .inl rfl

theorem flatMap_slices {α : Type*} (numbers : List α) (p m : ℕ) :
    (List.range m).flatMap (fun k => (numbers.drop (p * k)).take p) = numbers.take (p * m) := by
  induction m with
  | zero => simp
  | succ m ih =>
      rw [List.range_succ, List.flatMap_append, ih, List.flatMap_singleton, Nat.mul_succ,
        List.take_add]

theorem partitioned_iff {R : Type} {numbers : List R}
    {units : List (Shared R × List (StreamConstants R))} {p : ℕ} {own : ℕ → List R}
    (given : numbers ≠ [])
    (all : units.map (fun unit => (unit.1.ap.params_per_workunit, unitNumbers unit.1)) =
      (List.range (numbers.length / p)).map fun k => (p, own k)) :
    Partitioned numbers (.evaluated units) ↔
      p ∣ numbers.length ∧ ∀ k < numbers.length / p, own k = (numbers.drop (p * k)).take p := by
  have length : units.length = numbers.length / p := by
    simpa only [List.length_map, List.length_range] using congrArg List.length all
  have at_ : ∀ k (h : k < units.length), (units.get ⟨k, h⟩).1.ap.params_per_workunit = p ∧
      unitNumbers (units.get ⟨k, h⟩).1 = own k := by
    intro k h
    have entry := congrArg (·[k]?) all
    simp only [List.getElem?_map, List.getElem?_eq_getElem h, Option.map_some,
      List.getElem?_range (length ▸ h), Option.some.injEq, Prod.mk.injEq] at entry
    exact entry
  have flat : units.flatMap (fun unit => unitNumbers unit.1) =
      (List.range (numbers.length / p)).flatMap own := by
    have second := congrArg (List.map Prod.snd) all
    rw [List.map_map, List.map_map] at second
    exact congrArg List.flatten second
  have slices : (∀ k (h : k < units.length), unitNumbers (units.get ⟨k, h⟩).1 =
        (numbers.drop ((units.get ⟨k, h⟩).1.ap.params_per_workunit * k)).take
          (units.get ⟨k, h⟩).1.ap.params_per_workunit) ↔
      ∀ k < numbers.length / p, own k = (numbers.drop (p * k)).take p := by
    rw [← length]
    refine forall₂_congr fun k h => ?_
    rw [(at_ k h).1, (at_ k h).2]
  rw [Partitioned, or_iff_right given, slices, and_comm]
  refine and_congr_left fun own_ => ?_
  have taken : (List.range (numbers.length / p)).flatMap own =
      numbers.take (p * (numbers.length / p)) := by
    rw [← flatMap_slices]
    exact List.flatMap_congr fun k mem => own_ k (List.mem_range.mp mem)
  rw [flat, taken, List.take_eq_self_iff, Nat.dvd_iff_mod_eq_zero]
  have rest := Nat.div_add_mod numbers.length p
  omega

theorem mapM_readable {R : Type} (strtod : String → R × Bool) (rest : List String) :
    rest.mapM (fun arg => if (strtod arg).2 then none else some (strtod arg).1) =
      if ∀ arg ∈ rest, (strtod arg).2 = false then some (rest.map fun arg => (strtod arg).1)
      else none := by
  induction rest with
  | nil => rfl
  | cons arg rest ih =>
      rw [List.mapM_cons, ih]
      cases readable : (strtod arg).2 with
      | true => simp [readable]
      | false =>
          simp only [Bool.false_eq_true, if_false, Option.bind_eq_bind, Option.bind_some,
            List.forall_mem_cons, readable, true_and]
          split_ifs with all
          · rfl
          · rfl

theorem partitioned_of_steps {numbers : List R} (given : numbers ≠ []) (p : ℕ)
    (I : Shared R → Prop) (Rejected : ℕ → Prop) (own : ℕ → List R)
    (reject : ∀ s, I s → (setUp P.L P.numArgs s = none ↔ Rejected s.ap.currentWU))
    (step : ∀ s s' sc, I s → setUp P.L P.numArgs s = some (s', sc) →
      I { s' with ap := { s'.ap with currentWU := s'.ap.currentWU + 1 } } ∧
        s'.ap.currentWU = s.ap.currentWU ∧ s'.ap.params_per_workunit = p ∧
        unitNumbers s' = own s.ap.currentWU)
    (holds : I s) (first : s.ap.currentWU = 0) :
    Partitioned numbers (P.loop (numbers.length / p) s) ↔
      (∃ k < numbers.length / p, Rejected k) ∨
        p ∣ numbers.length ∧
          ∀ k < numbers.length / p, own k = (numbers.drop (p * k)).take p := by
  have spec := loop_spec reject step (numbers.length / p) s holds
  simp only [first, Nat.zero_add] at spec
  obtain ⟨rejected, units, loop⟩ | ⟨none, units, loop, all⟩ := spec
  · rw [loop]
    exact ⟨fun _ => .inl rejected, fun _ => trivial⟩
  · rw [loop, partitioned_iff given all, or_iff_right none]

theorem partitioned_loop (prepared : Shared R) (numbers : List R) (given : numbers ≠ [])
    (forwarded : P.nForwardedArgs = numbers.length)
    (fits : prepared.ap.params_per_workunit < 2 ^ 31)
    (places : prepared.streams.parameters.length = prepared.ap.number_streams)
    (args : P.numArgs = some numbers ∨ P.numArgs = none) :
    Partitioned numbers (P.loop (P.prepare prepared).ap.totalWUs (P.prepare prepared)) ↔
      (∃ k < numbers.length / prepared.ap.params_per_workunit,
          setUp P.L P.numArgs (P.atUnit prepared k) = none) ∨
        prepared.ap.params_per_workunit ∣ numbers.length ∧
          (P.numArgs.isSome ∨ ∀ k < numbers.length / prepared.ap.params_per_workunit,
            unitNumbers prepared =
              (numbers.drop (prepared.ap.params_per_workunit * k)).take
                prepared.ap.params_per_workunit) := by
  have total : (P.prepare prepared).ap.totalWUs =
      numbers.length / prepared.ap.params_per_workunit := by
    rw [Program.prepare]
    exact (if_pos (by rw [forwarded]; exact List.length_pos_iff.mpr given |>.ne')).trans
      (by rw [forwarded])
  rw [total]
  rcases args with args | args
  · have spec := partitioned_of_steps given prepared.ap.params_per_workunit
      (Frame (P.prepare prepared))
      (fun k => setUp P.L P.numArgs (P.atUnit prepared k) = none)
      (fun k => (List.range prepared.ap.params_per_workunit).map fun i =>
        (numbers.drop (prepared.ap.params_per_workunit * k)).getD i 0)
      (fun s frame => by rw [args]; exact setUp_atUnit_none frame)
      (fun s s' sc frame set => by
        have params : s.ap.params_per_workunit = prepared.ap.params_per_workunit :=
          (congrArg (·.params_per_workunit) frame.ap).symm
        have self : Frame s s := ⟨rfl, rfl, frame.places', frame.places'⟩
        rw [args] at set
        obtain ⟨t, set', -, -, after⟩ := setUp_frame P.L numbers self (fun _ _ => rfl) set
        refine ⟨⟨frame.ap.trans after.ap, frame.bgp.trans after.bgp, frame.places, after.places'⟩,
          (setUp_numbers P.L set).1,
          (congrArg (·.params_per_workunit) after.ap).symm.trans params, ?_⟩
        rw [setUp_numArgs frame.places' (params.trans_lt fits) set, params])
      (⟨rfl, rfl, places, places⟩ : Frame _ (P.prepare prepared)) rfl
    rw [spec]
    refine or_congr Iff.rfl (and_congr_right fun _ => ⟨fun _ => .inl (by rw [args]; rfl), ?_⟩)
    intro _ k lt
    have inside := Nat.mul_le_of_le_div _ _ _ (Nat.succ_le_of_lt lt)
    rw [Nat.succ_mul, Nat.mul_comm] at inside
    exact slice_eq_map numbers inside
  · have spec := partitioned_of_steps given prepared.ap.params_per_workunit
      (Untold P.L · (P.prepare prepared))
      (fun k => setUp P.L P.numArgs (P.atUnit prepared k) = none) (fun _ => unitNumbers prepared)
      (fun s untold => by
        have unit : Untold P.L s (P.atUnit prepared s.ap.currentWU) :=
          ⟨untold.ap, untold.bgp, untold.streams⟩
        rw [args]
        exact setUp_untold_none unit)
      (fun s s' sc untold set => by
        rw [args] at set
        obtain ⟨-, again, current⟩ := setUp_untold untold set
        exact ⟨⟨again.ap.trans untold.ap, again.bgp.trans untold.bgp,
          again.streams.trans untold.streams⟩, current,
          congrArg (·.params_per_workunit) (again.ap.trans untold.ap),
          again.numbers.trans untold.numbers⟩)
      (⟨rfl, rfl, rfl⟩ : Untold P.L (P.prepare prepared) _) rfl
    rw [spec, args]
    simp

variable [NatCast R]

omit [Zero R] [Add R] [Neg R] [Mul R] [IntCast R] [BEq R] [LT R] [DecidableLT R] [LE R]
  [DecidableLE R] in
theorem prepareParameters_fits {file : ParameterFile R} {rest : List String}
    {ap : AstronomyParameters R} {ias : List (IntegralArea R)} (none : ap.params_per_workunit = 0)
    (reads : prepareParameters file rest ap = .ok (prepared, ias)) :
    prepared.ap.params_per_workunit < 2 ^ 31 ∧
      prepared.streams.parameters.length = prepared.ap.number_streams := by
  unfold prepareParameters at reads
  split at reads
  · cases reads
    exact ⟨none.trans_lt (by norm_num), rfl⟩
  · split at reads
    · next old _ =>
        unfold freadParameters at reads
        simp only [bind, Except.bind, pure, Except.pure] at reads
        split_ifs at reads <;> split at reads <;> cases reads
        exact ⟨old.2, rfl⟩
    · cases reads

/-- Where the numbers are a partition: the file can be read without a division by zero and
says how many numbers a unit takes, and a unit is rejected, or the units take all numbers
and each number is one (or the file has the same). -/
def Divided (P : Program R) (strtod : String → R × Bool) (modfit background : Bool)
    (file : ParameterFile R) (rest : List String) : Prop :=
  match prepareParameters file rest (emptyParameters modfit background) with
  | .error .divisionByZero => False
  | .error .unreadable => True
  | .ok (prepared, ias) =>
    let P := P.withArguments strtod rest ias
    let p := prepared.ap.params_per_workunit
    let numbers := rest.map fun arg => (strtod arg).1
    rest = [] ∨ p ≠ 0 ∧
      ((∃ k < rest.length / p, setUp P.L P.numArgs (P.atUnit prepared k) = none) ∨
        p ∣ rest.length ∧ ((∀ arg ∈ rest, (strtod arg).2 = false) ∨
          ∀ k < rest.length / p, unitNumbers prepared = (numbers.drop (p * k)).take p))

theorem workerUnits_partitioned_iff (P : Program R) (strtod : String → R × Bool)
    (modfit background : Bool) (file : ParameterFile R) (rest : List String) :
    Partitioned (rest.map fun arg => (strtod arg).1)
        (P.workerUnits strtod modfit background file rest) ↔
      Divided P strtod modfit background file rest := by
  unfold Program.workerUnits Divided
  match reads : prepareParameters file rest (emptyParameters modfit background) with
  | .error .divisionByZero => exact Iff.rfl
  | .error .unreadable => exact Iff.rfl
  | .ok (prepared, ias) =>
      obtain ⟨fits, places⟩ := prepareParameters_fits rfl reads
      dsimp only
      by_cases given : rest = []
      · subst given
        rw [if_neg fun forwarded => forwarded.1 rfl]
        exact ⟨fun _ => .inl rfl, fun _ => partitioned_nil⟩
      have forwarded : (P.withArguments strtod rest ias).nForwardedArgs ≠ 0 :=
        List.length_pos_iff.mpr given |>.ne'
      rw [or_iff_right given]
      by_cases zero : prepared.ap.params_per_workunit = 0
      · rw [if_pos ⟨forwarded, zero⟩]
        exact ⟨False.elim, fun divided => divided.1 zero⟩
      rw [if_neg fun divides => zero divides.2, and_iff_right zero]
      have args : (P.withArguments strtod rest ias).numArgs =
          if ∀ arg ∈ rest, (strtod arg).2 = false then some (rest.map fun arg => (strtod arg).1)
          else none := by
        change mwReadRestArgs strtod rest = _
        rw [mwReadRestArgs, if_neg (by simpa using given)]
        exact mapM_readable strtod rest
      have loop := partitioned_loop (P := P.withArguments strtod rest ias) prepared
        (rest.map fun arg => (strtod arg).1) (by simpa using given)
        (by rw [List.length_map]; rfl) fits places (by
          rw [args]
          split_ifs
          · exact .inl rfl
          · exact .inr rfl)
      rw [loop, List.length_map]
      refine or_congr Iff.rfl (and_congr_right fun _ => or_congr ?_ Iff.rfl)
      rw [args]
      split_ifs with all
      · exact ⟨fun _ => all, fun _ => rfl⟩
      · exact ⟨nofun, fun all' => absurd all' all⟩

/-! ## Runs of the worker -/

def NotAhead (file : File R) (unit : ℕ) : Prop :=
  ∀ saved, file = .holds saved → saved.currentWU ≤ unit

/-- What the next evaluation is given. -/
def Program.next (P : Program R) : Machine R → Option (Shared R × List (StreamConstants R))
  | .running s _ _ _ =>
    if s.ap.totalWUs ≤ s.ap.currentWU then none else setUp P.L P.numArgs s
  | _ => none

def Program.evaluations (P : Program R) (prepared : Shared R) :
    List (Fate R) → Machine R → List (Shared R × List (StreamConstants R))
  | [], _ => []
  | fate :: fates, m =>
    (P.next m).toList ++ P.evaluations prepared fates (worker P prepared fate m)

theorem notAhead_enters {R : Type} [Zero R] [Add R] [Sub R] {ap : AstronomyParameters R}
    {ignoreCheckpoint done : Bool} {w : World R} {es : EvaluationState R}
    (enters : Enters ap ignoreCheckpoint w es done) :
    es.currentWU ≤ ap.currentWU := by
  cases enters with
  | anew ignores => exact le_rfl
  | first looks absent => exact le_rfl
  | resumes looks found unit unprinted => exact unit

theorem notAhead_checkpoint {R : Type} {w w' : World R} {chance : Chance}
    {es : EvaluationState R} {unit : ℕ} (saved : w.checkpoint chance es = .ok w')
    (before : NotAhead w.file unit)
    (own : es.currentWU ≤ unit) : NotAhead w'.file unit := by
  obtain ⟨-, -, -, file | file⟩ := file_checkpoint saved
  · rw [file]
    exact before
  · rw [file]
    rintro saved ⟨⟩
    exact own

theorem notAhead_integrated {fate : Fate R} {ap : AstronomyParameters R}
    {sc : List (StreamConstants R)} {probabilityFunc : ProbabilityFunc R} {w w' : World R}
    {es t : EvaluationState R} {done : Bool} {unit : ℕ}
    (integrated : Integrated P fate ap sc w probabilityFunc es done t w')
    (before : NotAhead w.file unit) (own : es.currentWU ≤ unit) :
    NotAhead w'.file unit ∧ t.currentWU ≤ unit := by
  cases integrated with
  | already => exact ⟨before, own⟩
  | @now _ taken _ run saved =>
      have keeps := keeps_calculateIntegrals P probabilityFunc ap sc fate.integrals (es, [])
      rw [run] at keeps
      have own' : t.currentWU ≤ unit := keeps.currentWU.trans_le own
      exact ⟨notAhead_checkpoint saved before own', own'⟩

theorem notAhead_evaluation {fate : Fate R} {ap : AstronomyParameters R} {streams : Streams R}
    {sc : List (StreamConstants R)} {ignoreCheckpoint ignores : Bool} {w w' : World R} {rc : ℤ}
    {currentWU : ℕ} {e : Evaluated R} (before : NotAhead w.file ap.currentWU)
    (evaluation : Evaluation P fate ap streams sc ignoreCheckpoint w e)
    (out : e = .ok (rc, currentWU, ignores, w')) :
    currentWU = ap.currentWU ∧ NotAhead w'.file ap.currentWU := by
  cases evaluation with
  | refused nonzero => cases out; exact ⟨rfl, before⟩
  | unreadable looks damaged => cases out; exact ⟨rfl, nofun⟩
  | leaves looks found ahead => exact absurd (before _ found) (not_le.mpr ahead)
  | skips looks found unit printed => cases out; exact ⟨rfl, before⟩
  | fails enters => cases out; exact ⟨rfl, before⟩
  | stopped enters run => cases out
  | complete enters run saved => cases out
  | starless enters integrated =>
      cases out
      exact ⟨rfl, (notAhead_integrated integrated before (notAhead_enters enters)).1⟩
  | @prints f es t done w₁ func enters integrated =>
      obtain ⟨file, own⟩ := notAhead_integrated integrated before (notAhead_enters enters)
      generalize P.likelihood f ap streams sc fate.opensOutfile t = result at out
      match saved : (w₁.print ap.currentWU result).checkpoint fate.printed
          { t with WUPrinted := true } with
      | .error w'' =>
          rw [saved] at out
          cases out
      | .ok w'' =>
          rw [saved] at out
          cases out
          refine ⟨rfl, notAhead_checkpoint saved ?_ own⟩
          unfold World.print
          split_ifs <;> exact file

/-- A run that is not interrupted gives its evaluations what the loop says. -/
theorem evaluations_loop {fates : List (Fate R)} {s : Shared R} {ignoreCheckpoint : Bool} {rc : ℤ}
    {w : World R} (before : NotAhead w.file s.ap.currentWU)
    (goes : Uninterrupted P prepared fates (.running s ignoreCheckpoint rc w))
    (ended : (run P prepared fates (.running s ignoreCheckpoint rc w)).status.isSome) :
    P.loop (s.ap.totalWUs - s.ap.currentWU) s =
        .rejected (P.evaluations prepared fates (.running s ignoreCheckpoint rc w)) ∨
      P.loop (s.ap.totalWUs - s.ap.currentWU) s =
        .evaluated (P.evaluations prepared fates (.running s ignoreCheckpoint rc w)) := by
  have nothing : ∀ fates rc w, P.evaluations prepared fates (.finished rc w) = [] := by
    intro fates rc w
    induction fates with
    | nil => rfl
    | cons fate fates ih => exact ih
  induction fates generalizing s ignoreCheckpoint rc w with
  | nil => cases ended
  | cons fate fates ih =>
      obtain ⟨goes, later⟩ := goes
      rw [Program.evaluations, Program.next]
      rw [worker] at goes later ⊢
      rw [run, List.foldl_cons, worker] at ended
      by_cases last : s.ap.totalWUs ≤ s.ap.currentWU
      · obtain ⟨w', exit, -⟩ := exit_finished P rc w
        rw [if_pos last, if_pos last, exit, nothing, Nat.sub_eq_zero_of_le last]
        exact .inr rfl
      rw [if_neg last] at goes later ended ⊢
      rw [if_neg last]
      have more : s.ap.totalWUs - s.ap.currentWU = s.ap.totalWUs - (s.ap.currentWU + 1) + 1 := by
        omega
      rw [more, Program.loop]
      cases set : setUp P.L P.numArgs s with
      | none =>
          obtain ⟨w', exit, -⟩ := exit_finished P 1 w
          dsimp only
          rw [exit, nothing]
          exact .inl rfl
      | some ready =>
          obtain ⟨s', sc⟩ := ready
          obtain ⟨unit, total⟩ := setUp_numbers P.L set
          rw [set] at goes later ended
          dsimp only at goes later ended ⊢
          cases out : evaluate P fate s'.ap s'.streams sc ignoreCheckpoint w with
          | error w' =>
              rw [out] at goes
              exact absurd trivial goes
          | ok done =>
              obtain ⟨rc', currentWU, ignoreCheckpoint', w'⟩ := done
              rw [← unit] at before
              obtain ⟨rfl, after⟩ := notAhead_evaluation before
                (evaluation_evaluate P fate s'.ap s'.streams sc ignoreCheckpoint w) out
              rw [out] at later ended
              have next := ih
                (s := { s' with ap := { s'.ap with currentWU := s'.ap.currentWU + 1 } })
                (fun saved holds => (after saved holds).trans (Nat.le_succ _)) later ended
              have left : s.ap.totalWUs - (s.ap.currentWU + 1) =
                  s'.ap.totalWUs - (s'.ap.currentWU + 1) := by
                rw [total, unit]
              rw [left]
              obtain rest | rest := next
              · exact .inl (by rw [rest]; rfl)
              · exact .inr (by rw [rest]; rfl)

end

/-! ## A script with two numbers -/

/-- A script without streams. -/
def scriptFile : ParameterFile ℚ where
  script := fun _ => some ⟨⟨1, 1, 1, 0.5, 0, 0, 0⟩, [], 8, 120, 0, []⟩
  old := none

/-- The program divides by the number of parameters, which a script does not set. -/
theorem workerUnits_script :
    twoUnits.workerUnits (fun _ => (0.5, false)) false false scriptFile ["0.5", "0.5"] =
      .divisionByZero ∧
    ¬Partitioned ([0.5, 0.5] : List ℚ)
      (twoUnits.workerUnits (fun _ => (0.5, false)) false false scriptFile ["0.5", "0.5"]) :=
  ⟨rfl, id⟩

end MilkyWay.Separation
