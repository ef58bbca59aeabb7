import MilkyWay.Separation.ParameterFile

/-! The areas of a script. An area that is refused stays as it was in the memory for the areas,
and the others go on. -/

namespace MilkyWay.Separation.ParameterFile

open Foundation

/-! ## Tables of a script -/

inductive LuaValue (R : Type)
  | number (x : R)
  | string (s : String)
  | other

structure NamedTable (R : Type) where
  get : String → Option (LuaValue R)
  keys : List (Option String)

inductive LuaError
  | missing (name : String)
  | wrongType (name : String)
  | badArguments
  | notTable
  | noCuts

/-- Strings that are numbers, the conversion of numbers, and whether there is memory for so
many items of a size. -/
structure LuaLib (R : Type) where
  tonumber : String → Option R
  toUnsigned : R → ℕ
  allocates : ℕ → ℕ → Bool

/-- What a script leaves behind: whether its constants and its background can be evaluated,
and the entries of its tables, which are to be tables themselves. -/
structure Script (R : Type) where
  constants : Bool
  background : Bool
  streams : Option (List (Option (NamedTable R)))
  area : Option (List (Option (NamedTable R)))

structure ReadScript (R : Type) where
  number_streams : ℕ
  number_integrals : ℕ
  total_calc_probs : R
  streams : List (StreamParameters R)
  integrals : List (Area R)

section
variable {R : Type} (D : LuaLib R)

def LuaLib.unsigned (x : R) : ℕ := D.toUnsigned x % 2 ^ 32

def namedArgument (table : NamedTable R) (name : String) : Except LuaError R :=
  match table.get name with
  | none => throw (.missing name)
  | some (.number x) => return x
  | some (.string s) =>
      match D.tonumber s with
      | some x => return x
      | none => throw (.wrongType name)
  | some .other => throw (.wrongType name)

def handleNamedArgumentTable [Zero R] (args : List String) (table : Option (NamedTable R)) :
    Except LuaError (String → R) :=
  match table with
  | none => throw .notTable
  | some table => do
      let values ← args.mapM (namedArgument D table)
      if table.keys.all fun key => key.any (· ∈ args) then
        return fun name => ((args.zip values).lookup name).getD 0
      else throw .badArguments

def streamArgTable : List String := ["epsilon", "mu", "r", "theta", "phi", "sigma"]

def readStreamTable [Zero R] (table : Option (NamedTable R)) :
    Except LuaError (StreamParameters R) := do
  let sp ← handleNamedArgumentTable D streamArgTable table
  return ⟨sp "epsilon", sp "mu", sp "r", sp "theta", sp "phi", sp "sigma", 0⟩

/-- No streams are none. -/
def evaluateStreams [Zero R] : Option (List (Option (NamedTable R))) →
    Reader (Except LuaError (List (StreamParameters R)))
  | none => return .error .notTable
  | some [] => return .ok []
  | some tables =>
      if D.allocates tables.length 56 then return tables.mapM (readStreamTable D)
      else Watched.fail (.exited "malloc failed")

def iaArgTable : List String :=
  ["nu_min", "nu_max", "nu_steps", "mu_min", "mu_max", "mu_steps", "r_min", "r_max", "r_steps"]

def areaNumbers [Zero R] (table : Option (NamedTable R)) : Except LuaError (FileArea R) := do
  let ia ← handleNamedArgumentTable D iaArgTable table
  return {
    r := ⟨ia "r_min", ia "r_max", D.unsigned (ia "r_steps")⟩
    mu := ⟨ia "mu_min", ia "mu_max", D.unsigned (ia "mu_steps")⟩
    nu := ⟨ia "nu_min", ia "nu_max", D.unsigned (ia "nu_steps")⟩ }

variable [Field R] [DecidableEq R]

def admitArea (ia : FileArea R) : Reader (Option (Area R)) := do
  let r := ia.r.steps
  let mu := ia.mu.steps
  let nu := ia.nu.steps
  if nu = 0 ∨ mu = 0 ∨ r = 0 then return none
  else
    let most ← Watched.divide UINT64_MAX mu
    if most < r then return none
    else
      let most ← Watched.divide UINT64_MAX nu
      if most < r * mu % 2 ^ 64 then return none
      else
        let area ← stepSizes ia
        return some area

def readIntegralArea (table : Option (NamedTable R)) :
    Reader (Except LuaError (Option (Area R))) :=
  match areaNumbers D table with
  | .error e => return .error e
  | .ok ia => do
      let area ← admitArea ia
      return .ok area

def readIntegralAreas (memory : ℕ → Area R) : List (Option (NamedTable R)) → ℕ →
    Reader (Except LuaError (List (Area R)))
  | [], _ => return .ok []
  | table :: tables, i => do
      match ← readIntegralArea D table with
      | .error e => return .error e
      | .ok area =>
          match ← readIntegralAreas memory tables (i + 1) with
          | .error e => return .error e
          | .ok areas => return .ok (area.getD (memory i) :: areas)

def evaluateIntegralAreas (memory : ℕ → Area R) : Option (List (Option (NamedTable R))) →
    Reader (Except LuaError (List (Area R)))
  | none => return .error .notTable
  | some [] => return .error .noCuts
  | some tables =>
      if D.allocates tables.length 88 then readIntegralAreas D memory tables 0
      else Watched.fail (.exited "Failed to allocate block")

def findTotalCalcProbs (cuts : List (Area R)) : ℕ :=
  cuts.foldl (fun total ia =>
    (total + ia.mu_steps * ia.nu_steps % 2 ^ 64 * ia.r_steps % 2 ^ 64) % 2 ^ 64) 0

/-- What a script comes to, with what is in the memory for the areas. -/
def setupSeparation (memory : ℕ → Area R) (script : Script R) : Reader (ReadScript R) := do
  let streams ← evaluateStreams D script.streams
  let areas ← evaluateIntegralAreas D memory script.area
  match script.constants, script.background, streams, areas with
  | true, true, .ok streams, .ok integrals =>
      return {
        number_streams := streams.length, number_integrals := integrals.length,
        total_calc_probs := (findTotalCalcProbs integrals : R), streams, integrals }
  | _, _, _, _ => Watched.fail (.rejected "Error evaluating")

end

/-! ## What a script is to declare -/

section
variable {R : Type} (D : LuaLib R)

structure Admitted (i : FileArea R) : Prop where
  given : StepsGiven i
  room : calcProbs i < 2 ^ 64

instance (i : FileArea R) : Decidable (Admitted i) :=
  decidable_of_iff (¬(i.nu.steps = 0 ∨ i.mu.steps = 0 ∨ i.r.steps = 0) ∧ calcProbs i < 2 ^ 64)
    ⟨fun ⟨given, room⟩ => ⟨⟨fun r => given (.inr (.inr r)), fun mu => given (.inr (.inl mu)),
      fun nu => given (.inl nu)⟩, room⟩,
    fun ⟨given, room⟩ => ⟨fun none => none.elim given.nu (·.elim given.mu given.r), room⟩⟩

def StreamsEvaluated [Zero R] (streams : Option (List (Option (NamedTable R))))
    (l : List (StreamParameters R)) : Prop :=
  ∃ tables, streams = some tables ∧ (tables ≠ [] → D.allocates tables.length 56 = true) ∧
    tables.mapM (readStreamTable D) = .ok l

def AreasEvaluated [Zero R] (area : Option (List (Option (NamedTable R))))
    (areas : List (FileArea R)) : Prop :=
  ∃ tables, area = some tables ∧ tables ≠ [] ∧ D.allocates tables.length 88 = true ∧
    tables.mapM (areaNumbers D) = .ok areas

structure Evaluated [Zero R] (script : Script R) (areas : List (FileArea R)) : Prop where
  constants : script.constants = true
  background : script.background = true
  streams : ∃ l, StreamsEvaluated D script.streams l
  area : AreasEvaluated D script.area areas

/-- No area of a script that is evaluated is refused, and all of them together can be
counted. -/
def ScriptFits [Zero R] (script : Script R) : Prop :=
  ∀ areas, Evaluated D script areas →
    (∀ i ∈ areas, Admitted i) ∧ (areas.map calcProbs).sum < 2 ^ 64

end

/-! ## The areas that are left in the memory -/

section
variable {R : Type} [Field R] [DecidableEq R] [CharZero R]

theorem stepSizes_eq {i : FileArea R} (given : StepsGiven i) :
    stepSizes i = pure (Area.ofFile i) := by
  have ensured := (ensures_stepSizes_bind (P := fun ia => ia = Area.ofFile i) i pure).mpr
    ⟨given, (Watched.ensures_pure _).mpr rfl⟩
  exact Watched.eq_pure (Watched.sound_of_bind ensured.1) rfl

theorem admitArea_eq (i : FileArea R) :
    admitArea i = pure (if Admitted i then some (Area.ofFile i) else none) := by
  unfold admitArea
  dsimp only
  by_cases none : i.nu.steps = 0 ∨ i.mu.steps = 0 ∨ i.r.steps = 0
  · rw [if_pos none, if_neg fun admitted =>
      none.elim admitted.given.nu (·.elim admitted.given.mu admitted.given.r)]
  obtain ⟨nu, mu, r⟩ : i.nu.steps ≠ 0 ∧ i.mu.steps ≠ 0 ∧ i.r.steps ≠ 0 := by
    rw [not_or, not_or] at none
    exact none
  have room := @room_iff i.r.steps _ _ (Nat.pos_of_ne_zero mu) (Nat.pos_of_ne_zero nu)
  rw [if_neg none, Watched.divide_bind mu]
  by_cases wide : UINT64_MAX / i.mu.steps < i.r.steps
  · rw [if_pos wide, if_neg fun admitted => (room.mpr admitted.room).1 wide]
  rw [if_neg wide, Watched.divide_bind nu]
  by_cases wide' : UINT64_MAX / i.nu.steps < i.r.steps * i.mu.steps % 2 ^ 64
  · rw [if_pos wide', if_neg fun admitted => (room.mpr admitted.room).2 wide']
  · have given : StepsGiven i := ⟨r, mu, nu⟩
    rw [if_neg wide', if_pos ⟨given, room.mp ⟨wide, wide'⟩⟩, stepSizes_eq given,
      Watched.pure_bind]

variable (D : LuaLib R) (memory : ℕ → Area R)

theorem readIntegralArea_eq (table : Option (NamedTable R)) :
    readIntegralArea D table = pure ((areaNumbers D table).map fun i =>
      if Admitted i then some (Area.ofFile i) else none) := by
  unfold readIntegralArea
  cases areaNumbers D table with
  | error e => rfl
  | ok i =>
      dsimp only
      rw [admitArea_eq, Watched.pure_bind]
      rfl

def admittedOr (k : ℕ) (i : FileArea R) : Area R :=
  if Admitted i then Area.ofFile i else memory k

theorem readIntegralAreas_eq (tables : List (Option (NamedTable R))) (i : ℕ) :
    readIntegralAreas D memory tables i = pure ((tables.mapM (areaNumbers D)).map fun ias =>
      ias.mapIdx fun k => admittedOr memory (i + k)) := by
  induction tables generalizing i with
  | nil => rfl
  | cons table tables ih =>
      rw [readIntegralAreas, readIntegralArea_eq, Watched.pure_bind, List.mapM_cons]
      cases areaNumbers D table with
      | error e => rfl
      | ok ia =>
          change (readIntegralAreas D memory tables (i + 1) >>= _) = _
          rw [ih, Watched.pure_bind]
          cases tables.mapM (areaNumbers D) with
          | error e => rfl
          | ok ias =>
              have first : (if Admitted ia then some (Area.ofFile ia) else none).getD (memory i) =
                  admittedOr memory (i + 0) ia := by
                unfold admittedOr
                split
                · rfl
                · rfl
              have shift : (fun k => admittedOr memory (i + 1 + k)) =
                  fun k => admittedOr memory (i + (k + 1)) :=
                funext fun k => congrArg (admittedOr memory) (Nat.add_right_comm i 1 k)
              change pure (Except.ok (_ :: _)) = pure (Except.ok ((ia :: ias).mapIdx _))
              rw [List.mapIdx_cons, first, shift]

omit [DecidableEq R] [CharZero R] in
theorem evaluateStreams_cases (streams : Option (List (Option (NamedTable R)))) :
    (∃ e, evaluateStreams D streams = Watched.fail e ∧ ∀ l, ¬StreamsEvaluated D streams l) ∨
      ∃ outcome, evaluateStreams D streams = pure outcome ∧
        ∀ l, outcome = .ok l ↔ StreamsEvaluated D streams l := by
  rcases streams with _ | _ | ⟨table, tables⟩
  · exact .inr ⟨_, rfl, fun l => ⟨nofun, fun ⟨_, same, _⟩ => nomatch same⟩⟩
  · refine .inr ⟨_, rfl, fun l => ⟨fun same => ⟨[], rfl, fun some => absurd rfl some, same⟩, ?_⟩⟩
    rintro ⟨tables, same, -, found⟩
    obtain rfl := Option.some.inj same
    exact found
  · by_cases room : D.allocates (table :: tables).length 56 = true
    · refine .inr ⟨_, if_pos room, fun l => ⟨fun found => ⟨_, rfl, fun _ => room, found⟩, ?_⟩⟩
      rintro ⟨tables', same, -, found⟩
      obtain rfl := Option.some.inj same
      exact found
    · refine .inl ⟨_, if_neg room, ?_⟩
      rintro l ⟨tables', same, room', -⟩
      obtain rfl := Option.some.inj same
      exact room (room' nofun)

theorem evaluateIntegralAreas_cases (area : Option (List (Option (NamedTable R)))) :
    (∃ e, evaluateIntegralAreas D memory area = Watched.fail e ∧
        ∀ areas, ¬AreasEvaluated D area areas) ∨
      ∃ outcome : Except LuaError (List (FileArea R)),
        evaluateIntegralAreas D memory area =
          pure (outcome.map fun areas => areas.mapIdx (admittedOr memory)) ∧
        ∀ areas, outcome = .ok areas ↔ AreasEvaluated D area areas := by
  rcases area with _ | _ | ⟨table, tables⟩
  · exact .inr ⟨.error .notTable, rfl, fun l => ⟨nofun, fun ⟨_, same, _⟩ => nomatch same⟩⟩
  · refine .inr ⟨.error .noCuts, rfl, fun l => ⟨nofun, ?_⟩⟩
    rintro ⟨tables, same, some, -⟩
    obtain rfl := Option.some.inj same
    exact absurd rfl some
  · by_cases room : D.allocates (table :: tables).length 88 = true
    · refine .inr ⟨(table :: tables).mapM (areaNumbers D), (if_pos room).trans ?_, fun areas =>
        ⟨fun found => ⟨_, rfl, nofun, room, found⟩, ?_⟩⟩
      · rw [readIntegralAreas_eq]
        simp only [Nat.zero_add]
      · rintro ⟨tables', same, -, -, found⟩
        obtain rfl := Option.some.inj same
        exact found
    · refine .inl ⟨_, if_neg room, ?_⟩
      rintro areas ⟨tables', same, -, room', -⟩
      obtain rfl := Option.some.inj same
      exact room room'

theorem ensures_setupSeparation (script : Script R) :
    (setupSeparation D memory script).Ensures
        (fun read => UsableAreas read.integrals read.total_calc_probs) ↔
      ∀ areas, Evaluated D script areas → UsableAreas (areas.mapIdx (admittedOr memory))
        (findTotalCalcProbs (areas.mapIdx (admittedOr memory)) : R) := by
  obtain ⟨constants, background, streams, area⟩ := script
  rw [setupSeparation]
  rcases evaluateStreams_cases D streams with ⟨e, failed, none⟩ | ⟨streamsRead, result, streams_iff⟩
  · rw [failed]
    exact iff_of_true ⟨rfl, nofun⟩ fun areas evaluated =>
      evaluated.streams.elim fun l found => absurd found (none l)
  rcases evaluateIntegralAreas_cases D memory area with
    ⟨e, failed, none⟩ | ⟨areasRead, result', areas_iff⟩
  · rw [result, Watched.pure_bind, failed]
    exact iff_of_true ⟨rfl, nofun⟩ fun areas evaluated => absurd evaluated.area (none areas)
  rw [result, Watched.pure_bind, result', Watched.pure_bind]
  match constants, background, streamsRead, areasRead with
  | true, true, .ok l, .ok areas =>
      refine (Watched.ensures_pure _).trans ⟨fun usable areas' evaluated => ?_, fun all => ?_⟩
      · obtain rfl := Except.ok.inj ((areas_iff areas').mpr evaluated.area)
        exact usable
      · exact all areas ⟨rfl, rfl, ⟨l, (streams_iff l).mp rfl⟩, (areas_iff areas).mp rfl⟩
  | false, _, _, _ =>
      exact iff_of_true ⟨rfl, nofun⟩ fun areas evaluated => nomatch evaluated.constants
  | true, false, _, _ =>
      exact iff_of_true ⟨rfl, nofun⟩ fun areas evaluated => nomatch evaluated.background
  | true, true, .error e, _ =>
      exact iff_of_true ⟨rfl, nofun⟩ fun areas evaluated =>
        evaluated.streams.elim fun l found => nomatch (streams_iff l).mpr found
  | true, true, .ok l, .error e =>
      exact iff_of_true ⟨rfl, nofun⟩ fun areas evaluated =>
        nomatch (areas_iff areas).mpr evaluated.area

omit [DecidableEq R] [CharZero R] in
theorem findTotalCalcProbs_ofFile (areas : List (FileArea R)) :
    findTotalCalcProbs (areas.map Area.ofFile) = (areas.map calcProbs).sum % 2 ^ 64 := by
  have counted : ∀ total < 2 ^ 64, (areas.map Area.ofFile).foldl (fun total ia =>
      (total + ia.mu_steps * ia.nu_steps % 2 ^ 64 * ia.r_steps % 2 ^ 64) % 2 ^ 64) total =
        (total + (areas.map calcProbs).sum) % 2 ^ 64 := by
    induction areas with
    | nil => exact fun total less => (Nat.mod_eq_of_lt less).symm
    | cons i areas ih =>
        intro total less
        rw [List.map_cons, List.foldl_cons, ih _ (Nat.mod_lt _ (Nat.two_pow_pos 64)), List.map_cons,
          List.sum_cons]
        exact count_add i total _
  rw [findTotalCalcProbs, counted 0 (Nat.two_pow_pos 64), Nat.zero_add]

omit [CharZero R] [DecidableEq R] in
theorem mapIdx_admitted {areas : List (FileArea R)} (all : ∀ i ∈ areas, Admitted i) :
    areas.mapIdx (admittedOr memory) = areas.map Area.ofFile := by
  refine List.ext_getElem (by simp) fun k less less' => ?_
  rw [List.getElem_mapIdx, List.getElem_map]
  exact if_pos (all _ (List.getElem_mem _))

theorem ensures_setupSeparation_iff (script : Script R) :
    (∀ memory, (setupSeparation D memory script).Ensures
        (fun read => UsableAreas read.integrals read.total_calc_probs)) ↔ ScriptFits D script := by
  simp only [ensures_setupSeparation]
  constructor
  · intro all areas evaluated
    have empty := all (fun _ => Area.ofFile ⟨⟨0, 0, 0⟩, ⟨0, 0, 0⟩, ⟨0, 0, 0⟩⟩) areas evaluated
    have admitted : ∀ i ∈ areas, Admitted i := by
      intro i mem
      obtain ⟨k, less, rfl⟩ := List.mem_iff_getElem.mp mem
      by_contra refused
      have usable := empty.areas _ (List.mem_mapIdx.mpr ⟨k, less, rfl⟩)
      rw [admittedOr, if_neg refused] at usable
      exact usable.r_steps rfl
    rw [mapIdx_admitted _ admitted, findTotalCalcProbs_ofFile] at empty
    exact ⟨admitted, (usableAreas_iff (fun i mem => (admitted i mem).given)
      fun i mem => (admitted i mem).room).mp empty⟩
  · intro fits memory areas evaluated
    obtain ⟨admitted, total⟩ := fits areas evaluated
    rw [mapIdx_admitted _ admitted, findTotalCalcProbs_ofFile]
    exact (usableAreas_iff (fun i mem => (admitted i mem).given)
      fun i mem => (admitted i mem).room).mpr total

end

/-- The readers return usable areas, and do nothing wrong on the way, on exactly the files and
the scripts that declare usable ones. -/
theorem readers_iff {R : Type} [Field R] [LinearOrder R] [CharZero R] (C : CLib R) (D : LuaLib R)
    (text : List Char) (script : Script R) :
    ((freadParameters C text).Ensures
        (fun file => UsableAreas file.integrals file.total_calc_probs) ↔ FileFits C text) ∧
      ((∀ memory, (setupSeparation D memory script).Ensures
        (fun read => UsableAreas read.integrals read.total_calc_probs)) ↔ ScriptFits D script) :=
  ⟨ensures_freadParameters C text, ensures_setupSeparation_iff D script⟩

/-! ## One stream and one area -/

def exactCLib : CLib ℚ where
  INFINITY := 0
  NAN := 0
  unmatched _ s := s
  toUnsigned z := (z % 2 ^ 32).toNat
  toSigned z := Int.bmod z (2 ^ 32)
  allocates n _ := 0 ≤ n
  unset _ _ := 0

def floorLuaLib : LuaLib ℚ where
  tonumber _ := none
  toUnsigned x := ⌊x⌋.toNat
  allocates _ _ := true

/-- A file with an array for the background and a number of steps in r. -/
def oneStream (background steps : String) : List Char :=
  ["number_parameters: 4\n", "background_weight: 0.5\n", "background_weight_step: 1\n",
    "background_weight_min: 0\n", "background_weight_max: 1\n",
    "optimize_background_weight: 1\n", "background_parameters", background,
    "background_step[0]: \n", "background_min[0]: \n", "background_max[0]: \n",
    "optimize_parameter[0]: \n", "number_streams: 1, 1\n", "stream_weight: -1\n",
    "stream_weight_step: 1\n", "stream_weight_min: -2\n", "stream_weight_max: 2\n",
    "optimize_weight: 1\n", "stream_parameters[5]: 133, 16, 1, -1, 2\n", "stream_step[0]: \n",
    "stream_min[0]: \n", "stream_max[0]: \n", "optimize_parameter[0]: \n", "convolve: 120\n",
    "sgr_coordinates: 0\n", "wedge: 10\n", "r[min,max,steps]: 16, 23, ", steps,
    "mu[min,max,steps]: 133, 249, 16\n", "nu[min,max,steps]: -1, 1, 8\n",
    "number_cuts: 0\n"].flatMap String.toList

/-- A script without streams and with one area. -/
def oneArea (r_steps : ℚ) : Script ℚ where
  constants := true
  background := true
  streams := some []
  area := some [some {
    get := fun name => some (.number (if name = "r_steps" then r_steps else 2))
    keys := iaArgTable.map some }]

def oneFileArea : FileArea ℚ := ⟨⟨16, 23, 14⟩, ⟨133, 249, 16⟩, ⟨-1, 1, 8⟩⟩

theorem freadParameters_oneStream :
    (freadParameters exactCLib (oneStream "[4]: 1, 1, 12, 1\n" "14\n")).Ensures
      fun file => UsableAreas file.integrals file.total_calc_probs := by
  have read : (fun x : Reader (ReadFile ℚ) => (x.sound, x.result.toOption.map fun file =>
      (file.integrals, file.total_calc_probs)))
        (freadParameters exactCLib (oneStream "[4]: 1, 1, 12, 1\n" "14\n")) =
          (true, some ([Area.ofFile oneFileArea], 1792)) := by decide +kernel
  obtain ⟨sound, result⟩ := Prod.mk.inj read
  refine ⟨sound, fun file found => ?_⟩
  rw [found] at result
  obtain ⟨integrals, total⟩ := Prod.mk.inj (Option.some.inj result)
  rw [integrals, total]
  refine ⟨fun ia mem => ?_, rfl⟩
  rw [List.mem_singleton.mp mem]
  exact Area.ofFile_usable ⟨by decide, by decide, by decide⟩ (by decide)

theorem scriptFits_oneArea : ScriptFits floorLuaLib (oneArea 14) := by
  rintro areas ⟨-, -, -, tables, same, -, -, found⟩
  obtain rfl := Option.some.inj same
  obtain rfl : [⟨⟨2, 2, 14⟩, ⟨2, 2, 2⟩, ⟨2, 2, 2⟩⟩] = areas := Except.ok.inj found
  refine ⟨fun i mem => ?_, by decide⟩
  rw [List.mem_singleton.mp mem]
  exact ⟨⟨by decide, by decide, by decide⟩, by decide⟩

theorem readers_iff_oneStream :
    FileFits exactCLib (oneStream "[4]: 1, 1, 12, 1\n" "14\n") ∧
      ∀ memory, (setupSeparation floorLuaLib memory (oneArea 14)).Ensures
        fun read => UsableAreas read.integrals read.total_calc_probs :=
  ⟨(readers_iff exactCLib floorLuaLib _ (oneArea 14)).1.mp freadParameters_oneStream,
    (readers_iff exactCLib floorLuaLib [] (oneArea 14)).2.mpr scriptFits_oneArea⟩

/-- An area without steps in r is divided by, an array of one entry is looked at past its end,
and the area of a script without steps in r stays what is in the memory. -/
theorem noSteps_unusable :
    (freadParameters exactCLib (oneStream "[4]: 1, 1, 12, 1\n" "0\n")).sound = false ∧
      (freadParameters exactCLib (oneStream "[1]: 1\n" "14\n")).sound = false ∧
      ((setupSeparation floorLuaLib (fun _ => Area.ofFile ⟨⟨0, 0, 0⟩, ⟨0, 0, 0⟩, ⟨0, 0, 0⟩⟩)
        (oneArea 0)).result.toOption.map fun read => read.integrals.map (·.r_steps)) =
          some [0] := by
  refine ⟨?_, ?_, ?_⟩
  · decide +kernel
  · decide +kernel
  · decide +kernel

end MilkyWay.Separation.ParameterFile
