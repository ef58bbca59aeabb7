import MilkyWay.Foundation.Reading
import MilkyWay.Foundation.Watched
import MilkyWay.Separation.Forwarded

/-! The text of a parameter file of the old format. What is scanned of it is kept apart from
what is done with it: the entries of arrays that are looked at and the divisors are
watched. -/

namespace MilkyWay.Separation.ParameterFile

open Foundation

inductive Stop
  | exited (message : String)
  | rejected (message : String)

/-- The C library: what an input that is no number leaves, numbers that are converted, whether
there is memory for so many items of a size, and what is in a variable that has not been
written to when a text is left. -/
structure CLib (R : Type) extends FloatLib R where
  unmatched : Directive → List Char → List Char
  toUnsigned : ℤ → ℕ
  toSigned : ℤ → ℤ
  allocates : ℤ → ℕ → Bool
  unset : String → List Char → ℕ

/-- An area with the ends of its ranges. -/
structure Area (R : Type) extends IntegralArea R where
  r_max : R
  nu_max : R
  mu_max : R
deriving DecidableEq

abbrev Scan (α : Type) := StateT (List Char) (Except Stop) α

/-! ## Scanning -/

section
variable {R : Type} [Field R] (C : CLib R)

def CLib.unsigned (z : ℤ) : ℕ := C.toUnsigned z % 2 ^ 32

def mw_fail {α : Type} (message : String) : Scan α := throw (.exited message)

def scan (f : String) : Scan (List (Scanned R)) := fun s =>
  .ok (fscanf C.toFloatLib C.unmatched (format f.toList) s)

def scanReal (f : String) : Scan (Option R) := do
  match ← scan C f with
  | .double x :: _ => return some x
  | _ => return none

def scanInt (f : String) : Scan (Option ℤ) := do
  match ← scan C f with
  | .integer z :: _ => return some (C.toSigned z)
  | _ => return none

def expectReal (f message : String) : Scan R := do
  match ← scanReal C f with
  | some x => return x
  | none => mw_fail message

def expectInt (f message : String) : Scan ℤ := do
  match ← scanInt C f with
  | some z => return z
  | none => mw_fail message

def allocate (n : ℤ) (size : ℕ) (message : String) : Scan Unit :=
  if C.allocates n size then return () else mw_fail message

def scanEntries {α : Type} (conversion : String) (value : Scanned R → Option α) :
    ℕ → Scan (Option (List α))
  | 0 => return some []
  | left + 1 => do
      match (← scan C conversion).head?.bind value with
      | none => return none
      | some x =>
          if 0 < left then
            let _ ← scan C ", "
          let entries ← scanEntries conversion value left
          return entries.map (x :: ·)

def freadArray {α : Type} (conversion : String) (size : ℕ) (value : Scanned R → Option α)
    (array_name : String) : Scan (Option (List α)) := do
  let start ← get
  let _ ← scan C array_name
  let n : ℕ := match ← scan C "[%u]: " with
    | .integer z :: _ => C.unsigned z
    | _ => C.unset "size" start % 2 ^ 32
  allocate C n size "malloc failed"
  match ← scanEntries C conversion value n with
  | none => return none
  | some entries =>
      let _ ← scan C "\n"
      return some entries

def fread_double_array : String → Scan (Option (List R)) :=
  freadArray C "%lf" 8 fun
    | .double x => some x
    | .integer _ => none

def fread_int_array : String → Scan (Option (List ℤ)) :=
  freadArray C "%d" 4 fun
    | .integer z => some (C.toSigned z)
    | .double _ => none

/-! ## The parts of a file -/

structure Head (R : Type) where
  version : R
  background_weight : R
  optimize_background_weight : ℤ
  background_parameters : List R

def scanHead : Scan (Head R) := do
  let version ← scanReal C "parameters_version: %lf\n"
  let _ ← expectInt C "number_parameters: %u\n" "Error reading number_parameters\n"
  let background_weight ← expectReal C "background_weight: %lf\n"
    "Error reading background_weight\n"
  let _ ← scan C "background_weight_step: %lf\n"
  let _ ← scan C "background_weight_min: %lf\n"
  let _ ← scan C "background_weight_max: %lf\n"
  let start ← get
  let optimize ← scanInt C "optimize_background_weight: %d\n"
  match ← fread_double_array C "background_parameters" with
  | none => throw (.rejected "Error reading into background_parameters\n")
  | some background_parameters =>
      return ⟨version.getD 0.01, background_weight, optimize.getD (C.unset "iTmp" start),
        background_parameters⟩

def scanOptimize (name : String) : Scan (Option (List ℤ)) := do
  let _ ← fread_double_array C (name ++ "_step")
  let _ ← fread_double_array C (name ++ "_min")
  let _ ← fread_double_array C (name ++ "_max")
  fread_int_array C "optimize_parameter"

def scanNumberStreams : Scan ℤ := do
  match ← scan C "number_streams: %d, %u\n" with
  | [.integer n, .integer _] =>
      allocate C (C.toSigned n) 56 "calloc failed"
      return C.toSigned n
  | _ => mw_fail "Error reading number_streams\n"

structure StreamHead (R : Type) where
  stream_weight : R
  optimize_weight : ℤ
  stream_parameters : List R

def scanStream (i : ℕ) : Scan (StreamHead R) := do
  let message := fun name => "Error reading " ++ name ++ " for stream " ++ toString i ++ "\n"
  let stream_weight ← expectReal C "stream_weight: %lf\n" (message "stream_weight")
  let _ ← expectReal C "stream_weight_step: %lf\n" (message "stream_weight_step")
  let _ ← expectReal C "stream_weight_min: %lf\n" (message "stream_weight_min")
  let _ ← expectReal C "stream_weight_max: %lf\n" (message "stream_weight_max")
  let optimize_weight ← expectInt C "optimize_weight: %d\n" (message "optimize_weight")
  match ← fread_double_array C "stream_parameters" with
  | none => throw (.rejected "Error reading into stream_parameters\n")
  | some stream_parameters => return ⟨stream_weight, optimize_weight, stream_parameters⟩

def scanRange (f message : String) : Scan (AreaRange R) := do
  match ← scan C f with
  | [.double min, .double max, .integer steps] => return ⟨min, max, C.unsigned steps⟩
  | _ => mw_fail message

structure Geometry (R : Type) where
  convolve : ℤ
  aux_bg_profile : Option ℤ
  wedge : ℤ
  area : FileArea R

variable [LinearOrder R]

def scanGeometry (version : R) : Scan (Geometry R) := do
  let convolve ← expectInt C "convolve: %d\n" "Error reading convolve\n"
  let sgr_coordinates ← expectInt C "sgr_coordinates: %d\n" "Error reading sgr_coordinates\n"
  if sgr_coordinates ≠ 0 then mw_fail "sgr_coordinates unimplemented\n"
  let aux_bg_profile ←
    if 0.01 < version then
      some <$> expectInt C "aux_bg_profile: %d\n" "Error reading aux_bg_profile\n"
    else pure none
  let wedge ← expectInt C "wedge: %d\n" "Error reading wedge\n"
  let r ← scanRange C "r[min,max,steps]: %lf, %lf, %u\n" "Error reading r\n"
  let mu ← scanRange C "mu[min,max,steps]: %lf, %lf, %u\n" "Error reading mu\n"
  let nu ← scanRange C "nu[min,max,steps]: %lf, %lf, %u\n" "Error reading nu\n"
  return ⟨convolve, aux_bg_profile, wedge, ⟨r, mu, nu⟩⟩

omit [LinearOrder R]

def scanNumberIntegrals : Scan ℤ := do
  let number_cuts ← expectInt C "number_cuts: %d\n" "Error reading number_cuts\n"
  let number_integrals := Int.bmod (1 + number_cuts) (2 ^ 32)
  allocate C number_integrals 88 "Failed to allocate block"
  return number_integrals

/-- Three of the four numbers of a range are enough; the steps are then what is in the
memory. -/
def scanCutRange (name : String) (i : ℕ) : Scan (AreaRange R) := do
  let start ← get
  match ← scan C (name ++ "_cut[min,max,steps][%u]: %lf, %lf, %u\n") with
  | [.integer _, .double min, .double max, .integer steps] => return ⟨min, max, C.unsigned steps⟩
  | [.integer _, .double min, .double max] =>
      return ⟨min, max, C.unset (name ++ "_steps") start % 2 ^ 32⟩
  | _ => mw_fail ("Error reading " ++ name ++ " for integral " ++ toString i ++ "\n")

def scanCut (i : ℕ) : Scan (FileArea R) := do
  let r ← scanCutRange C "r" i
  let mu ← scanCutRange C "mu" i
  let nu ← scanCutRange C "nu" i
  return ⟨r, mu, nu⟩

end

/-! ## What is done with them -/

abbrev Reader (α : Type) := Watched Stop α

def entry {α : Type} [Zero α] (l : List α) (i : ℕ) : Reader α := do
  Watched.check (i < l.length)
  return l.getD i 0

def countOptimize (optimize_parameter : List ℤ) (expected_input_params : ℕ) : ℕ → Reader ℕ
  | 0 => return expected_input_params
  | j + 1 => do
      let expected ← countOptimize optimize_parameter expected_input_params j
      let optimize ← entry optimize_parameter j
      return if optimize ≠ 0 then expected + 1 else expected

def optSize (opt_size : ℕ) (optimize_parameter : Option (List ℤ)) : ℕ :=
  optimize_parameter.elim opt_size List.length

structure ReadFile (R : Type) where
  number_streams : ℤ
  params_per_workunit : ℕ
  convolve : ℤ
  aux_bg_profile : Option ℤ
  wedge : ℤ
  number_integrals : ℤ
  total_calc_probs : R
  epsilon : R
  innerPower : R
  q : R
  r0 : R
  outerPower : R
  streams : List (StreamParameters R)
  integrals : List (Area R)

section
variable {R : Type} [Field R]

def Area.ofFile (i : FileArea R) : Area R :=
  { calcIntegralStepSizes i with
    r_max := i.r.max
    nu_max := i.nu.max
    mu_max := i.mu.max }

section
variable [DecidableEq R]

def stepSizes (i : FileArea R) : Reader (Area R) := do
  Watched.check ((i.r.steps : R) ≠ 0)
  Watched.check ((i.mu.steps : R) ≠ 0)
  Watched.check ((i.nu.steps : R) ≠ 0)
  return .ofFile i

end

def totalCalcProbs : List (Area R) → ℕ → Reader ℕ
  | [], total_calc_probs => return total_calc_probs
  | ia :: ias, total_calc_probs => do
      let r := ia.r_steps
      let mu := ia.mu_steps
      let nu := ia.nu_steps
      let most ← Watched.divide UINT64_MAX mu
      if most < r then Watched.fail (.rejected "will overflow progress calculation\n")
      else
        let most ← Watched.divide UINT64_MAX nu
        if most < r * mu % 2 ^ 64 then
          Watched.fail (.rejected "will overflow progress calculation\n")
        else
          totalCalcProbs ias ((total_calc_probs + mu * nu % 2 ^ 64 * r % 2 ^ 64) % 2 ^ 64)

variable (C : CLib R)

/-- The streams that are left, behind those that have been read, with the size of the last
array and the parameters counted so far. -/
def readStreams : ℕ → ℕ → ℕ → List (StreamParameters R) × ℕ → List Char →
    Reader ((List (StreamParameters R) × ℕ) × List Char)
  | 0, _, _, read, s => return (read, s)
  | left + 1, i, opt_size, (streams, expected), s => do
      let (stream, s) ← Watched.lift (scanStream C i s)
      let mu ← entry stream.stream_parameters 0
      let r ← entry stream.stream_parameters 1
      let theta ← entry stream.stream_parameters 2
      let phi ← entry stream.stream_parameters 3
      let sigma ← entry stream.stream_parameters 4
      let (optimize, s) ← Watched.lift (scanOptimize C "stream" s)
      let opt_size := optSize opt_size optimize
      let expected ← countOptimize (optimize.getD [])
        (if stream.optimize_weight ≠ 0 then expected + 1 else expected) opt_size
      -- The exponential of the weight is set later.
      readStreams left (i + 1) opt_size
        (streams ++ [⟨stream.stream_weight, mu, r, theta, phi, sigma, 0⟩], expected) s

variable [LinearOrder R]

def readCuts : ℕ → ℕ → List (Area R) → List Char → Reader (List (Area R))
  | 0, _, integrals, _ => return integrals
  | left + 1, i, integrals, s => do
      let (cut, s) ← Watched.lift (scanCut C i s)
      let area ← stepSizes cut
      readCuts left (i + 1) (integrals ++ [area]) s

def readAreas (version : R) (s : List Char) : Reader (Geometry R × ℤ × List (Area R) × ℕ) := do
  let (geometry, s) ← Watched.lift (scanGeometry C version s)
  let area ← stepSizes geometry.area
  let (number_integrals, s) ← Watched.lift (scanNumberIntegrals C s)
  -- The first area is put into the memory for the areas.
  Watched.check (0 < number_integrals)
  let integrals ← readCuts C (number_integrals - 1).toNat 1 [area] s
  let total_calc_probs ← totalCalcProbs integrals 0
  if checkIntegralAreasOK (integrals.map (·.toIntegralArea)) then
    return (geometry, number_integrals, integrals, total_calc_probs)
  else Watched.fail (.rejected "Integral area dimensions\n")

def freadParameters (text : List Char) : Reader (ReadFile R) := do
  let (head, s) ← Watched.lift (scanHead C text)
  let innerPower ← entry head.background_parameters 0
  let q ← entry head.background_parameters 1
  let r0 ← entry head.background_parameters 2
  let outerPower ← entry head.background_parameters 3
  let (optimize, s) ← Watched.lift (scanOptimize C "background" s)
  let opt_size := optSize 0 optimize
  let expected ← countOptimize (optimize.getD [])
    (if head.optimize_background_weight ≠ 0 then 1 else 0) opt_size
  let (number_streams, s) ← Watched.lift (scanNumberStreams C s)
  let ((streams, params_per_workunit), s) ←
    readStreams C number_streams.toNat 0 opt_size ([], expected) s
  let (geometry, number_integrals, integrals, total_calc_probs) ← readAreas C head.version s
  return {
    number_streams, params_per_workunit, convolve := geometry.convolve,
    aux_bg_profile := geometry.aux_bg_profile, wedge := geometry.wedge, number_integrals,
    total_calc_probs := (total_calc_probs : R), epsilon := head.background_weight,
    innerPower, q, r0, outerPower, streams, integrals }

end

/-! ## Usable areas -/

section
variable {R : Type} [Field R]

structure Usable (ia : Area R) : Prop where
  r_steps : ia.r_steps ≠ 0
  mu_steps : ia.mu_steps ≠ 0
  nu_steps : ia.nu_steps ≠ 0
  room : ia.r_steps * ia.mu_steps * ia.nu_steps < 2 ^ 64
  r_step_size : ia.r_step_size = (ia.r_max - ia.r_min) / (ia.r_steps : R)
  mu_step_size : ia.mu_step_size = (ia.mu_max - ia.mu_min) / (ia.mu_steps : R)
  nu_step_size : ia.nu_step_size = (ia.nu_max - ia.nu_min) / (ia.nu_steps : R)

/-- The areas and the total that are returned. -/
structure UsableAreas (integrals : List (Area R)) (total_calc_probs : R) : Prop where
  areas : ∀ ia ∈ integrals, Usable ia
  total : total_calc_probs =
    ((integrals.map fun ia => ia.r_steps * ia.mu_steps * ia.nu_steps).sum : ℕ)

end

/-! ## What a file is to declare -/

section
variable {R : Type}

structure StepsGiven (i : FileArea R) : Prop where
  r : i.r.steps ≠ 0
  mu : i.mu.steps ≠ 0
  nu : i.nu.steps ≠ 0

def calcProbs (i : FileArea R) : ℕ := i.r.steps * i.mu.steps * i.nu.steps

def TotalFits (areas : List (FileArea R)) : Prop :=
  (∀ i ∈ areas, calcProbs i < 2 ^ 64 ∧
    i.nu.steps % 2 = 0 ∧ i.r.steps % 2 = 0 ∧ i.mu.steps % 2 = 0) →
      (areas.map calcProbs).sum < 2 ^ 64

variable [Field R] (C : CLib R)

def passStream (i opt_size : ℕ) : Scan ℕ := do
  let _ ← scanStream C i
  let optimize ← scanOptimize C "stream"
  return optSize opt_size optimize

/-- The parameters of a stream that can be read are five at least, and its last array can be
read, or the one that could be read before it is empty. -/
def StreamFits (i opt_size : ℕ) (s : List Char) : Prop :=
  ∀ stream t, scanStream C i s = .ok (stream, t) → 5 ≤ stream.stream_parameters.length ∧
    ∀ u, scanOptimize C "stream" t = .ok (none, u) → opt_size = 0

def passCut (i : ℕ) (areas : List (FileArea R)) : Scan (List (FileArea R)) := do
  let cut ← scanCut C i
  return areas ++ [cut]

def CutFits (i : ℕ) (_ : List (FileArea R)) (s : List Char) : Prop :=
  ∀ cut t, scanCut C i s = .ok (cut, t) → StepsGiven cut

variable [LinearOrder R]

def AreasFit (version : R) (s : List Char) : Prop :=
  ∀ geometry t, scanGeometry C version s = .ok (geometry, t) → StepsGiven geometry.area ∧
    ∀ number_integrals u, scanNumberIntegrals C t = .ok (number_integrals, u) →
      0 < number_integrals ∧
      Throughout (passCut C) (CutFits C) (number_integrals - 1).toNat 1 [geometry.area] u ∧
      ∀ areas v, repeatFrom (passCut C) (number_integrals - 1).toNat 1 [geometry.area] u =
        .ok (areas, v) → TotalFits areas

/-- What a file declares as far as it can be read: the arrays are as long as they are used, the
areas have steps, there is one at least, and all of them together can be counted. -/
def FileFits (text : List Char) : Prop :=
  ∀ head s, scanHead C text = .ok (head, s) → 4 ≤ head.background_parameters.length ∧
    ∀ optimize t, scanOptimize C "background" s = .ok (optimize, t) →
      ∀ number_streams u, scanNumberStreams C t = .ok (number_streams, u) →
        Throughout (passStream C) (StreamFits C) number_streams.toNat 0 (optSize 0 optimize) u ∧
        ∀ opt_size v, repeatFrom (passStream C) number_streams.toNat 0 (optSize 0 optimize) u =
          .ok (opt_size, v) → AreasFit C head.version v

end

/-! ## The uses -/

section
variable {α : Type} {P : α → Prop}

theorem ensures_entry_bind {β : Type} [Zero β] (l : List β) (i : ℕ) (f : β → Reader α) :
    (entry l i >>= f).Ensures P ↔ i < l.length ∧ (f (l.getD i 0)).Ensures P := by
  rw [entry, Watched.bind_assoc, Watched.ensures_check_bind, Watched.pure_bind]

theorem countOptimize_ok (optimize_parameter : List ℤ) (expected n : ℕ) :
    ∃ m, (countOptimize optimize_parameter expected n).result = .ok m ∧
      ((countOptimize optimize_parameter expected n).sound = true ↔
        n ≤ optimize_parameter.length) := by
  induction n with
  | zero => exact ⟨expected, rfl, iff_of_true rfl (Nat.zero_le _)⟩
  | succ n ih =>
      obtain ⟨m, found, sound⟩ := ih
      obtain ⟨result, sounds⟩ := Watched.bind_of_ok found fun expected => do
        let optimize ← entry optimize_parameter n
        return if optimize ≠ 0 then expected + 1 else expected
      refine ⟨_, result.trans rfl, sounds.trans ?_⟩
      rw [sound, entry, Watched.bind_assoc, Watched.sound_check_bind]
      exact ⟨fun fits => fits.2.1, fun less => ⟨Nat.le_of_succ_le less, less, rfl⟩⟩

theorem optSize_le (opt_size : ℕ) (optimize_parameter : Option (List ℤ)) :
    optSize opt_size optimize_parameter ≤ (optimize_parameter.getD []).length ↔
      (optimize_parameter = none → opt_size = 0) := by
  cases optimize_parameter with
  | none => exact Nat.le_zero.trans ⟨fun none _ => none, fun none => none rfl⟩
  | some l => exact ⟨fun _ => nofun, fun _ => le_rfl⟩

end

section
variable {R : Type} [Field R] {α : Type} {P : α → Prop}

theorem ensures_stepSizes_bind [DecidableEq R] [CharZero R] (i : FileArea R)
    (f : Area R → Reader α) :
    (stepSizes i >>= f).Ensures P ↔ StepsGiven i ∧ (f (.ofFile i)).Ensures P := by
  simp only [stepSizes, Watched.bind_assoc, Watched.ensures_check_bind, Watched.pure_bind,
    ne_eq, Nat.cast_eq_zero]
  constructor
  · rintro ⟨r, mu, nu, rest⟩
    exact ⟨⟨r, mu, nu⟩, rest⟩
  · rintro ⟨given, rest⟩
    exact ⟨given.r, given.mu, given.nu, rest⟩

theorem room_iff {r mu nu : ℕ} (mu_pos : 0 < mu) (nu_pos : 0 < nu) :
    ¬ UINT64_MAX / mu < r ∧ ¬ UINT64_MAX / nu < r * mu % 2 ^ 64 ↔ r * mu * nu < 2 ^ 64 := by
  rw [not_lt, not_lt, Nat.le_div_iff_mul_le mu_pos, Nat.le_div_iff_mul_le nu_pos]
  have more : r * mu ≤ r * mu * nu := Nat.le_mul_of_pos_right _ nu_pos
  unfold UINT64_MAX
  constructor
  · rintro ⟨less, less'⟩
    rw [Nat.mod_eq_of_lt (by omega)] at less'
    omega
  · intro room
    rw [Nat.mod_eq_of_lt (by omega)]
    omega

omit [Field R] in
theorem count_add (i : FileArea R) (total rest : ℕ) :
    ((total + i.mu.steps * i.nu.steps % 2 ^ 64 * i.r.steps % 2 ^ 64) % 2 ^ 64 + rest) % 2 ^ 64 =
      (total + (calcProbs i + rest)) % 2 ^ 64 := by
  have product : i.mu.steps * i.nu.steps * i.r.steps = calcProbs i := by
    rw [calcProbs, Nat.mul_comm, Nat.mul_assoc]
  rw [Nat.mod_mul_mod, product, Nat.add_mod_mod, Nat.mod_add_mod, Nat.add_assoc]

theorem ensures_totalCalcProbs (areas : List (FileArea R)) (given : ∀ i ∈ areas, StepsGiven i)
    {total : ℕ} (total_lt : total < 2 ^ 64) (f : ℕ → Reader α) :
    (totalCalcProbs (areas.map Area.ofFile) total >>= f).Ensures P ↔
      ((∀ i ∈ areas, calcProbs i < 2 ^ 64) →
        (f ((total + (areas.map calcProbs).sum) % 2 ^ 64)).Ensures P) := by
  induction areas generalizing total with
  | nil =>
      have all : ∀ i ∈ ([] : List (FileArea R)), calcProbs i < 2 ^ 64 := nofun
      rw [List.map_nil, totalCalcProbs, Watched.pure_bind, List.map_nil, List.sum_nil, Nat.add_zero,
        Nat.mod_eq_of_lt total_lt, imp_iff_right all]
  | cons i areas ih =>
      have first := given i List.mem_cons_self
      have rest : ∀ i ∈ areas, StepsGiven i := fun i mem => given i (List.mem_cons_of_mem _ mem)
      have next := ih rest (Nat.mod_lt
        (total + i.mu.steps * i.nu.steps % 2 ^ 64 * i.r.steps % 2 ^ 64) (Nat.two_pow_pos 64))
      have room := @room_iff i.r.steps _ _ (Nat.pos_of_ne_zero first.mu)
        (Nat.pos_of_ne_zero first.nu)
      have steps : (Area.ofFile i).r_steps = i.r.steps ∧ (Area.ofFile i).mu_steps = i.mu.steps ∧
          (Area.ofFile i).nu_steps = i.nu.steps := ⟨rfl, rfl, rfl⟩
      rw [count_add, ← List.sum_cons, ← List.map_cons] at next
      rw [List.map_cons, totalCalcProbs]
      simp only [steps, Watched.bind_assoc, Watched.ensures_divide_bind]
      refine (and_iff_right first.mu).trans ?_
      rw [List.forall_mem_cons]
      by_cases wide : UINT64_MAX / i.mu.steps < i.r.steps
      · rw [if_pos wide, Watched.fail_bind, Watched.ensures_fail, true_iff]
        exact fun fits => absurd wide (room.mpr fits.1).1
      rw [if_neg wide, Watched.bind_assoc, Watched.ensures_divide_bind, and_iff_right first.nu]
      by_cases wide' : UINT64_MAX / i.nu.steps < i.r.steps * i.mu.steps % 2 ^ 64
      · rw [if_pos wide', Watched.fail_bind, Watched.ensures_fail, true_iff]
        exact fun fits => absurd wide' (room.mpr fits.1).2
      · rw [if_neg wide', next]
        exact ⟨fun ends fits => ends fits.2, fun ends fits => ends ⟨room.mp ⟨wide, wide'⟩, fits⟩⟩

end

/-! ## The loops -/

section
variable {R : Type} [Field R] (C : CLib R)

theorem passStream_ok {i opt_size o : ℕ} {s t : List Char} :
    passStream C i opt_size s = .ok (o, t) ↔ ∃ stream u, scanStream C i s = .ok (stream, u) ∧
      ∃ optimize, scanOptimize C "stream" u = .ok (optimize, t) ∧
        o = optSize opt_size optimize := by
  refine ok_bind_iff.trans (exists₂_congr fun stream u => and_congr_right fun _ => ?_)
  refine ok_bind_iff.trans ⟨?_, ?_⟩
  · rintro ⟨optimize, v, found, same⟩
    obtain ⟨rfl, rfl⟩ := Prod.mk.inj (Except.ok.inj same)
    exact ⟨optimize, found, rfl⟩
  · rintro ⟨optimize, found, rfl⟩
    exact ⟨optimize, t, found, rfl⟩

theorem passCut_ok {i : ℕ} {areas areas' : List (FileArea R)} {s t : List Char} :
    passCut C i areas s = .ok (areas', t) ↔
      ∃ cut, scanCut C i s = .ok (cut, t) ∧ areas' = areas ++ [cut] := by
  refine ok_bind_iff.trans ⟨?_, ?_⟩
  · rintro ⟨cut, u, found, same⟩
    obtain ⟨rfl, rfl⟩ := Prod.mk.inj (Except.ok.inj same)
    exact ⟨cut, found, rfl⟩
  · rintro ⟨cut, found, rfl⟩
    exact ⟨cut, t, found, rfl⟩

theorem ensures_readStreams {Q : List Char → Prop} (left i opt_size : ℕ)
    (read : List (StreamParameters R) × ℕ) (s : List Char) :
    (readStreams C left i opt_size read s).Ensures (fun x => Q x.2) ↔
      Throughout (passStream C) (StreamFits C) left i opt_size s ∧
        ∀ o t, repeatFrom (passStream C) left i opt_size s = .ok (o, t) → Q t := by
  induction left generalizing i opt_size read s with
  | zero =>
      rw [throughout_ends_zero (Q := fun _ => Q)]
      exact Watched.ensures_pure _
  | succ left ih =>
      rw [throughout_ends_succ (Q := fun _ => Q)]
      have turn : (readStreams C (left + 1) i opt_size read s).Ensures (fun x => Q x.2) ↔
          ∀ stream u, scanStream C i s = .ok (stream, u) → 5 ≤ stream.stream_parameters.length ∧
            ∀ optimize t, scanOptimize C "stream" u = .ok (optimize, t) →
              (optimize = none → opt_size = 0) ∧ ∃ read',
                (readStreams C left (i + 1) (optSize opt_size optimize) read' t).Ensures
                  (fun x => Q x.2) := by
        rw [readStreams, Watched.ensures_lift_bind, Prod.forall]
        refine forall₂_congr fun stream u => imp_congr_right fun _ => ?_
        simp only [ensures_entry_bind, Watched.ensures_lift_bind, Prod.forall]
        have five : ∀ p : Prop, (0 < stream.stream_parameters.length ∧
            1 < stream.stream_parameters.length ∧ 2 < stream.stream_parameters.length ∧
            3 < stream.stream_parameters.length ∧ 4 < stream.stream_parameters.length ∧ p) ↔
              5 ≤ stream.stream_parameters.length ∧ p := by
          intro p
          constructor
          · rintro ⟨_, _, _, _, all, rest⟩
            exact ⟨all, rest⟩
          · rintro ⟨all, rest⟩
            exact ⟨by omega, by omega, by omega, by omega, all, rest⟩
        rw [five]
        refine and_congr_right fun _ => forall₂_congr fun optimize t => imp_congr_right fun _ => ?_
        obtain ⟨m, found, sound⟩ := countOptimize_ok (optimize.getD [])
          (if stream.optimize_weight ≠ 0 then read.2 + 1 else read.2) (optSize opt_size optimize)
        rw [Watched.ensures_bind_of_ok found, sound, optSize_le]
        simp only [ih, exists_const]
      simp only [turn, ih, exists_const, passStream_ok]
      constructor
      · intro all
        refine ⟨fun stream u scanned => ⟨(all stream u scanned).1, fun t found => ?_⟩, ?_⟩
        · exact ((all stream u scanned).2 none t found).1 rfl
        · rintro o t ⟨stream, u, scanned, optimize, found, rfl⟩
          exact ((all stream u scanned).2 optimize t found).2
      · rintro ⟨first, next⟩ stream u scanned
        refine ⟨(first stream u scanned).1, fun optimize t found => ⟨?_, ?_⟩⟩
        · rintro rfl
          exact (first stream u scanned).2 t found
        · exact next _ t ⟨stream, u, scanned, optimize, found, rfl⟩

variable [LinearOrder R] [CharZero R]

theorem ensures_readCuts {Q : List (Area R) → Prop} (left i : ℕ) (areas : List (FileArea R))
    (s : List Char) :
    (readCuts C left i (areas.map Area.ofFile) s).Ensures Q ↔
      Throughout (passCut C) (CutFits C) left i areas s ∧
        ∀ areas' t, repeatFrom (passCut C) left i areas s = .ok (areas', t) →
          Q (areas'.map Area.ofFile) := by
  induction left generalizing i areas s with
  | zero =>
      rw [throughout_ends_zero (Q := fun (areas : List (FileArea R)) _ => Q (areas.map .ofFile))]
      exact Watched.ensures_pure _
  | succ left ih =>
      rw [throughout_ends_succ (Q := fun (areas : List (FileArea R)) _ => Q (areas.map .ofFile))]
      have turn : (readCuts C (left + 1) i (areas.map Area.ofFile) s).Ensures Q ↔
          ∀ cut t, scanCut C i s = .ok (cut, t) → StepsGiven cut ∧
            (readCuts C left (i + 1) ((areas ++ [cut]).map Area.ofFile) t).Ensures Q := by
        rw [readCuts, Watched.ensures_lift_bind, Prod.forall]
        refine forall₂_congr fun cut t => imp_congr_right fun _ => ?_
        rw [List.map_append, List.map_singleton]
        exact ensures_stepSizes_bind cut _
      simp only [turn, ih, passCut_ok]
      constructor
      · intro all
        refine ⟨fun cut t scanned => (all cut t scanned).1, ?_⟩
        rintro areas' t ⟨cut, scanned, rfl⟩
        exact (all cut t scanned).2
      · rintro ⟨first, next⟩ cut t scanned
        exact ⟨first cut t scanned, next _ t ⟨cut, scanned, rfl⟩⟩

end

/-! ## The whole file -/

section
variable {R : Type} [Field R]

theorem Area.ofFile_usable {i : FileArea R} (given : StepsGiven i) (room : calcProbs i < 2 ^ 64) :
    Usable (Area.ofFile i) :=
  ⟨given.r, given.mu, given.nu, room, rfl, rfl, rfl⟩

theorem usableAreas_iff [CharZero R] {areas : List (FileArea R)}
    (given : ∀ i ∈ areas, StepsGiven i) (room : ∀ i ∈ areas, calcProbs i < 2 ^ 64) :
    UsableAreas (areas.map Area.ofFile) (((areas.map calcProbs).sum % 2 ^ 64 : ℕ) : R) ↔
      (areas.map calcProbs).sum < 2 ^ 64 := by
  have sum : (areas.map Area.ofFile).map (fun ia => ia.r_steps * ia.mu_steps * ia.nu_steps) =
      areas.map calcProbs := List.map_map
  constructor
  · intro usable
    have total := Nat.cast_injective usable.total
    rw [sum] at total
    rw [← total]
    exact Nat.mod_lt _ (Nat.two_pow_pos 64)
  · refine fun less => ⟨fun ia mem => ?_, ?_⟩
    · obtain ⟨i, mem', rfl⟩ := List.mem_map.mp mem
      exact Area.ofFile_usable (given i mem') (room i mem')
    · rw [sum, Nat.mod_eq_of_lt less]

theorem checkIntegralAreasOK_iff {areas : List (FileArea R)} (given : ∀ i ∈ areas, StepsGiven i) :
    checkIntegralAreasOK ((areas.map Area.ofFile).map (·.toIntegralArea)) = true ↔
      ∀ i ∈ areas, i.nu.steps % 2 = 0 ∧ i.r.steps % 2 = 0 ∧ i.mu.steps % 2 = 0 := by
  rw [checkIntegralAreasOK, List.map_map, List.all_map, List.all_eq_true]
  refine forall₂_congr fun i mem => ?_
  obtain ⟨r, mu, nu⟩ := given i mem
  change (!(i.nu.steps = 0 || i.r.steps = 0 || i.mu.steps = 0) &&
    (i.nu.steps % 2 = 0 && i.r.steps % 2 = 0 && i.mu.steps % 2 = 0) : Bool) = true ↔ _
  simp only [r, mu, nu, decide_false, Bool.or_false, Bool.not_false, Bool.true_and,
    Bool.and_eq_true, decide_eq_true_iff, and_assoc]

variable (C : CLib R)

theorem stepsGiven_of_throughout {left i : ℕ} {areas : List (FileArea R)} {s : List Char}
    (given : ∀ i ∈ areas, StepsGiven i)
    (fits : Throughout (passCut C) (CutFits C) left i areas s) {areas' : List (FileArea R)}
    {t : List Char} (reached : repeatFrom (passCut C) left i areas s = .ok (areas', t)) :
    ∀ i ∈ areas', StepsGiven i := by
  induction left generalizing i areas s with
  | zero =>
      obtain ⟨rfl, rfl⟩ := Prod.mk.inj (Except.ok.inj reached)
      exact given
  | succ left ih =>
      obtain ⟨first, next⟩ := throughout_succ.mp fits
      obtain ⟨areas'', u, passed, reached⟩ := ok_bind_iff.mp reached
      obtain ⟨cut, scanned, rfl⟩ := (passCut_ok C).mp passed
      refine ih (fun j mem => ?_) (next _ u passed) reached
      rcases List.mem_append.mp mem with before | new
      · exact given j before
      · rw [List.mem_singleton.mp new]
        exact first cut u scanned

variable [LinearOrder R] [CharZero R]

theorem ensures_readAreas (version : R) (s : List Char) :
    (readAreas C version s).Ensures (fun x => UsableAreas x.2.2.1 (x.2.2.2 : R)) ↔
      AreasFit C version s := by
  rw [readAreas, Watched.ensures_lift_bind, Prod.forall]
  refine forall₂_congr fun geometry t => imp_congr_right fun _ => ?_
  dsimp only
  rw [ensures_stepSizes_bind]
  refine and_congr_right fun given => ?_
  rw [Watched.ensures_lift_bind, Prod.forall]
  refine forall₂_congr fun number_integrals u => imp_congr_right fun _ => ?_
  dsimp only
  rw [Watched.ensures_check_bind]
  refine and_congr_right fun _ => ?_
  rw [Watched.ensures_bind, ← List.map_singleton, ensures_readCuts]
  refine and_congr_right fun fits => forall₂_congr fun areas v => imp_congr_right fun reached => ?_
  have all := stepsGiven_of_throughout C (List.forall_mem_singleton.mpr given) fits reached
  rw [ensures_totalCalcProbs areas all (Nat.two_pow_pos 64), Nat.zero_add]
  have total : TotalFits areas ↔ ((∀ i ∈ areas, calcProbs i < 2 ^ 64) →
      (∀ i ∈ areas, i.nu.steps % 2 = 0 ∧ i.r.steps % 2 = 0 ∧ i.mu.steps % 2 = 0) →
        (areas.map calcProbs).sum < 2 ^ 64) :=
    ⟨fun fits room even => fits fun i mem => ⟨room i mem, even i mem⟩,
      fun fits passed => fits (fun i mem => (passed i mem).1) fun i mem => (passed i mem).2⟩
  rw [total]
  refine imp_congr_right fun room => ?_
  by_cases even : ∀ i ∈ areas, i.nu.steps % 2 = 0 ∧ i.r.steps % 2 = 0 ∧ i.mu.steps % 2 = 0
  · rw [if_pos ((checkIntegralAreasOK_iff all).mpr even), Watched.ensures_pure,
      imp_iff_right even]
    exact usableAreas_iff all room
  · rw [if_neg fun passed => even ((checkIntegralAreasOK_iff all).mp passed)]
    exact iff_of_true ⟨rfl, nofun⟩ fun even' => absurd even' even

theorem ensures_freadParameters (text : List Char) :
    (freadParameters C text).Ensures
        (fun file => UsableAreas file.integrals file.total_calc_probs) ↔ FileFits C text := by
  rw [freadParameters, Watched.ensures_lift_bind, Prod.forall]
  refine forall₂_congr fun head s => imp_congr_right fun _ => ?_
  simp only [ensures_entry_bind, Watched.ensures_lift_bind, Prod.forall]
  have four : ∀ p : Prop, (0 < head.background_parameters.length ∧
      1 < head.background_parameters.length ∧ 2 < head.background_parameters.length ∧
      3 < head.background_parameters.length ∧ p) ↔
        4 ≤ head.background_parameters.length ∧ p := by
    intro p
    constructor
    · rintro ⟨_, _, _, all, rest⟩
      exact ⟨all, rest⟩
    · rintro ⟨all, rest⟩
      exact ⟨by omega, by omega, by omega, all, rest⟩
  rw [four]
  refine and_congr_right fun _ => forall₂_congr fun optimize t => imp_congr_right fun _ => ?_
  obtain ⟨m, found, sound⟩ := countOptimize_ok (optimize.getD [])
    (if head.optimize_background_weight ≠ 0 then 1 else 0) (optSize 0 optimize)
  rw [Watched.ensures_bind_of_ok found, sound, optSize_le, and_iff_right fun _ => rfl]
  rw [Watched.ensures_lift_bind, Prod.forall]
  refine forall₂_congr fun number_streams u => imp_congr_right fun _ => ?_
  have areas : ∀ read : (List (StreamParameters R) × ℕ) × List Char,
      (readAreas C head.version read.2).Ensures
        (fun x => UsableAreas x.2.2.1 (x.2.2.2 : R)) ↔ AreasFit C head.version read.2 :=
    fun read => ensures_readAreas C head.version read.2
  simp only [Watched.ensures_bind, Watched.ensures_pure, areas]
  exact ensures_readStreams C _ _ _ _ _

end

end MilkyWay.Separation.ParameterFile
