import MilkyWay.Separation.Kernel
import MilkyWay.Separation.Likelihood
import MilkyWay.Separation.RunCL
import MilkyWay.Separation.SetUp

/-! The worker: work unit after work unit is set up, evaluated and printed. An evaluation
saves its state in one file; a run that is interrupted where it has saved starts over and
looks for its unit in the file. -/

namespace MilkyWay.Separation

open Foundation

structure VectorParameters (R : Type) where
  q_inv : R
  r0 : R
  convolve : ℕ
  number_streams : ℕ
  background_profile : BackgroundProfile
  innerPower : R
  alpha_delta3 : R
  sun_r0 : R
  background_weight : R
  thick_disk_weight : R

def AstronomyParameters.vector {R : Type} (ap : AstronomyParameters R) : VectorParameters R where
  q_inv := ap.q_inv
  r0 := ap.r0
  convolve := ap.convolve
  number_streams := ap.number_streams
  background_profile := ap.background_profile
  innerPower := ap.innerPower
  alpha_delta3 := ap.alpha_delta3
  sun_r0 := ap.sun_r0
  background_weight := ap.background_weight
  thick_disk_weight := ap.thick_disk_weight

/-- A program with its arguments and the files that its units share. -/
structure Program (R : Type) where
  L : Libm R
  isfinite : R → Bool
  NAN : R
  ias : ℕ → IntegralArea R
  getStreamGauss : ℕ → StreamGauss R
  stars : List (Vec3 R)
  dispatch : Dispatch
  vectorFunc : Intrinsics → VectorParameters R → List (StreamConstants R) → (ℕ → R) → (ℕ → R) →
    LBTrig R → R → R × List R
  device : Option (ProgramCL R)
  ignoreCheckpoint : Bool
  cleanupCheckpoint : Bool
  numArgs : Option (List R)
  nForwardedArgs : ℕ

inductive File (R : Type)
  | absent
  | damaged
  | holds (es : EvaluationState R)

/-- The file and what has been printed. To tell what has happened there are also the states
that evaluations have gone on from and the units whose evaluation has failed. -/
structure World (R : Type) where
  file : File R
  printed : List (ℕ × SeparationResults R)
  entered : List (ℕ × EvaluationState R)
  failed : List ℕ

/-- What happens during an evaluation: where it is saved or stopped, and which calls fail. A
status that is not set has any value. -/
structure Fate (R : Type) where
  unset : ℤ
  resolved : ℤ
  setsUpCL : Bool
  integrals : Oracle (Progress R)
  final : Chance
  readsStars : Bool
  opensOutfile : Bool
  printed : Chance

/-- Nothing is saved and nothing fails. -/
def Fate.calm {R : Type} : Fate R := ⟨0, 0, true, quiet, .pass, true, true, .pass⟩

/-- The end of an evaluation: its status, the current unit and whether checkpoints are
ignored from now on, or the world it is interrupted in. -/
abbrev Evaluated (R : Type) := Except (World R) (ℤ × ℕ × Bool × World R)

section
variable {R : Type}

def World.start : World R := ⟨.absent, [], [], []⟩

/-- Writes a state unless that fails; the run may be interrupted when it is written. -/
def World.checkpoint (w : World R) (chance : Chance) (es : EvaluationState R) :
    Except (World R) (World R) :=
  let written := { w with file := .holds (writeCheckpoint es) }
  match chance with
  | .pass => .ok w
  | .save => .ok written
  | .stop => .error written

def World.fail (w : World R) (unit : ℕ) : World R := { w with failed := w.failed ++ [unit] }

theorem file_checkpoint {w w' : World R} {chance : Chance} {es : EvaluationState R}
    (saved : w.checkpoint chance es = .ok w') :
    w'.printed = w.printed ∧ w'.entered = w.entered ∧ w'.failed = w.failed ∧
      (w'.file = w.file ∨ w'.file = .holds (writeCheckpoint es)) := by
  unfold World.checkpoint at saved
  cases chance with
  | pass =>
      cases saved
      exact ⟨rfl, rfl, rfl, Or.inl rfl⟩
  | save =>
      cases saved
      exact ⟨rfl, rfl, rfl, Or.inr rfl⟩
  | stop => cases saved

theorem checkpoint_stopped {w w' : World R} {chance : Chance} {es : EvaluationState R}
    (stopped : w.checkpoint chance es = .error w') :
    w' = { w with file := .holds (writeCheckpoint es) } := by
  unfold World.checkpoint at stopped
  cases chance with
  | pass => cases stopped
  | save => cases stopped
  | stop => exact (Except.error.inj stopped).symm

/-- The state that is in the file, if it can be read. -/
def maybeResume [Zero R] [Add R] [Sub R] (file : File R) (es : EvaluationState R) :
    Option (EvaluationState R) :=
  match file with
  | .absent => some es
  | .holds saved => some (readCheckpoint saved)
  | .damaged => none

end

section
variable {R : Type} [Zero R] [Add R] [Neg R] [Sub R] [Mul R] [Div R] [OfScientific R] [NatCast R]
  [IntCast R] [BEq R] [LT R] [DecidableLT R] [LE R] [DecidableLE R]
variable (P : Program R)

/-- The function in use for the parameters of a unit. -/
def Program.probabilityFunc (ap : AstronomyParameters R) : Option (ProbabilityFunc R) :=
  match probabilityFunctionDispatch P.dispatch ap with
  | none => none
  | some .standard => some (selectStandardFunction P.L ap)
  | some (.intrinsics level) => some fun ap sc _ r_point qw_r3_N lbt _ reff_xr_rp3 =>
      P.vectorFunc level ap.vector sc r_point qw_r3_N lbt reff_xr_rp3

/-- The integrals of a unit on the processor or on the device. -/
def Program.calculateIntegrals (probabilityFunc : ProbabilityFunc R)
    (ap : AstronomyParameters R) (sc : List (StreamConstants R)) :
    Stoppable (Progress R) (Failure R) :=
  let sg := P.getStreamGauss ap.convolve
  let E := ⟨P.L, P.ias, sg, probabilityFunc⟩
  Separation.calculateIntegrals E ap sc fun ia =>
    match P.device with
    | none => integrate E ap sc ia
    | some D => integrateCL { D with value := probabilitiesCL P.L sg ap sc } ap.number_streams ia

/-- The results of a unit once its integrals are there. -/
def Program.likelihood (probabilityFunc : ProbabilityFunc R) (ap : AstronomyParameters R)
    (streams : Streams R) (sc : List (StreamConstants R)) (opensOutfile : Bool)
    (es : EvaluationState R) : ℤ × SeparationResults R :=
  let results := getFinalIntegrals (newSeparationResults P.NAN ap.number_streams) es
  let (rc, results) :=
    if opensOutfile then
      (0, likelihood_sum P.L probabilityFunc ap sc streams results
        (P.getStreamGauss ap.convolve) P.stars)
    else (1, results)
  (rc, checkSeparationResults P.isfinite results)

def Program.finish (fate : Fate R) (probabilityFunc : ProbabilityFunc R)
    (ap : AstronomyParameters R) (streams : Streams R) (sc : List (StreamConstants R))
    (es : EvaluationState R) (w : World R) : Evaluated R :=
  if !fate.readsStars then .ok (1, ap.currentWU, true, w.fail ap.currentWU)
  else
    let (rc, results) := P.likelihood probabilityFunc ap streams sc fate.opensOutfile es
    let w := if rc = 0 then w else w.fail ap.currentWU
    let w := { w with printed := w.printed ++ [(ap.currentWU, results)] }
    (w.checkpoint fate.printed { es with WUPrinted := true }).map fun w =>
      (rc, ap.currentWU, true, w)

def Program.goOn (fate : Fate R) (probabilityFunc : ProbabilityFunc R)
    (ap : AstronomyParameters R) (streams : Streams R) (sc : List (StreamConstants R))
    (es : EvaluationState R) (done : Bool) (w : World R) : Evaluated R :=
  let w := { w with entered := w.entered ++ [(ap.currentWU, es)] }
  if done then P.finish fate probabilityFunc ap streams sc es w
  else if P.device.isSome && !fate.setsUpCL then
    .ok (1, ap.currentWU, true, w.fail ap.currentWU)
  else
    match P.calculateIntegrals probabilityFunc ap sc fate.integrals (es, []) with
    | .error (.stopped saved) => .error { w with file := .holds saved.1 }
    | .error (.failed _) => .ok (1, ap.currentWU, true, w.fail ap.currentWU)
    | .ok (es, _) =>
        (w.checkpoint fate.final es).bind fun w =>
          P.finish fate probabilityFunc ap streams sc es w

/-- The evaluation of a unit. Unless checkpoints are ignored it looks into the file first: it
goes on from there, or it leaves this unit for the one the file is about. -/
def evaluate (fate : Fate R) (ap : AstronomyParameters R) (streams : Streams R)
    (sc : List (StreamConstants R)) (ignoreCheckpoint : Bool) (w : World R) : Evaluated R :=
  match P.probabilityFunc ap with
  | none => .ok (1, ap.currentWU, ignoreCheckpoint, w.fail ap.currentWU)
  | some probabilityFunc =>
    let es := newEvaluationState ap
    if fate.resolved ≠ 0 then
      .ok (fate.resolved, ap.currentWU, ignoreCheckpoint, w.fail ap.currentWU)
    else if ignoreCheckpoint then P.goOn fate probabilityFunc ap streams sc es false w
    else
      match maybeResume w.file es with
      | none => .ok (1, ap.currentWU, false, { w with file := .absent }.fail ap.currentWU)
      | some es =>
        if ap.currentWU < es.currentWU then
          if es.WUPrinted then .ok (0, es.currentWU - 1, true, w)
          else .ok (0, es.currentWU - 1, false, w)
        else if es.WUPrinted then .ok (0, ap.currentWU, true, w)
        else P.goOn fate probabilityFunc ap streams sc es (integralsAreDone es) w

/-! ## What an evaluation can come to -/

def World.enter (w : World R) (unit : ℕ) (es : EvaluationState R) : World R :=
  { w with entered := w.entered ++ [(unit, es)] }

def World.print (w : World R) (unit : ℕ) (out : ℤ × SeparationResults R) : World R :=
  let w := if out.1 = 0 then w else w.fail unit
  { w with printed := w.printed ++ [(unit, out.2)] }

omit [Zero R] [Add R] [Neg R] [Sub R] [Mul R] [Div R] [OfScientific R] [NatCast R]
  [IntCast R] [BEq R] [LT R] [DecidableLT R] [LE R] [DecidableLE R] in
theorem World.printed_print (w : World R) (unit : ℕ) (out : ℤ × SeparationResults R) :
    (w.print unit out).printed = w.printed ++ [(unit, out.2)] := by
  unfold World.print
  by_cases success : out.1 = 0
  · rw [if_pos success]
  · rw [if_neg success]
    rfl

section
variable (fate : Fate R) (ap : AstronomyParameters R) (streams : Streams R)
  (sc : List (StreamConstants R)) (ignoreCheckpoint : Bool) (w : World R)

inductive Enters : EvaluationState R → Bool → Prop
  | anew (ignores : ignoreCheckpoint = true) : Enters (newEvaluationState ap) false
  | first (looks : ignoreCheckpoint = false) (absent : w.file = .absent) :
      Enters (newEvaluationState ap) (integralsAreDone (newEvaluationState ap))
  | resumes {saved : EvaluationState R} (looks : ignoreCheckpoint = false)
      (found : w.file = .holds saved) (unit : saved.currentWU ≤ ap.currentWU)
      (unprinted : saved.WUPrinted = false) :
      Enters (readCheckpoint saved) (integralsAreDone (readCheckpoint saved))

inductive Integrated (probabilityFunc : ProbabilityFunc R) (es : EvaluationState R) :
    Bool → EvaluationState R → World R → Prop
  | already : Integrated probabilityFunc es true es w
  | now {t : EvaluationState R} {taken : List (Sums R)} {w' : World R}
      (run : P.calculateIntegrals probabilityFunc ap sc fate.integrals (es, []) = .ok (t, taken))
      (saved : w.checkpoint fate.final t = .ok w') : Integrated probabilityFunc es false t w'

inductive Evaluation : Evaluated R → Prop
  | refused {rc : ℤ} (nonzero : rc ≠ 0) :
      Evaluation (.ok (rc, ap.currentWU, ignoreCheckpoint, w.fail ap.currentWU))
  | unreadable (looks : ignoreCheckpoint = false) (damaged : w.file = .damaged) :
      Evaluation (.ok (1, ap.currentWU, false, { w with file := .absent }.fail ap.currentWU))
  | leaves {saved : EvaluationState R} (looks : ignoreCheckpoint = false)
      (found : w.file = .holds saved) (ahead : ap.currentWU < saved.currentWU) :
      Evaluation (.ok (0, saved.currentWU - 1, saved.WUPrinted, w))
  | skips {saved : EvaluationState R} (looks : ignoreCheckpoint = false)
      (found : w.file = .holds saved) (unit : saved.currentWU ≤ ap.currentWU)
      (printed : saved.WUPrinted = true) : Evaluation (.ok (0, ap.currentWU, true, w))
  | fails {es : EvaluationState R} {done : Bool} (enters : Enters ap ignoreCheckpoint w es done) :
      Evaluation (.ok (1, ap.currentWU, true, (w.enter ap.currentWU es).fail ap.currentWU))
  | stopped {probabilityFunc : ProbabilityFunc R} {es : EvaluationState R}
      {saved : Progress R} (enters : Enters ap ignoreCheckpoint w es false)
      (run : P.calculateIntegrals probabilityFunc ap sc fate.integrals (es, []) =
        .error (.stopped saved)) :
      Evaluation (.error { w.enter ap.currentWU es with file := .holds saved.1 })
  | complete {probabilityFunc : ProbabilityFunc R} {es t : EvaluationState R}
      {taken : List (Sums R)} {w' : World R} (enters : Enters ap ignoreCheckpoint w es false)
      (run : P.calculateIntegrals probabilityFunc ap sc fate.integrals (es, []) = .ok (t, taken))
      (saved : (w.enter ap.currentWU es).checkpoint fate.final t = .error w') :
      Evaluation (.error w')
  | starless {probabilityFunc : ProbabilityFunc R} {es t : EvaluationState R} {done : Bool}
      {w' : World R} (enters : Enters ap ignoreCheckpoint w es done)
      (integrated :
        Integrated P fate ap sc (w.enter ap.currentWU es) probabilityFunc es done t w') :
      Evaluation (.ok (1, ap.currentWU, true, w'.fail ap.currentWU))
  | prints {probabilityFunc : ProbabilityFunc R} {es t : EvaluationState R} {done : Bool}
      {w' : World R} (func : P.probabilityFunc ap = some probabilityFunc)
      (enters : Enters ap ignoreCheckpoint w es done)
      (integrated :
        Integrated P fate ap sc (w.enter ap.currentWU es) probabilityFunc es done t w') :
      Evaluation (((w'.print ap.currentWU
          (P.likelihood probabilityFunc ap streams sc fate.opensOutfile t)).checkpoint
            fate.printed { t with WUPrinted := true }).map fun w =>
        ((P.likelihood probabilityFunc ap streams sc fate.opensOutfile t).1, ap.currentWU, true, w))

theorem evaluation_finish {probabilityFunc : ProbabilityFunc R} {es t : EvaluationState R}
    {done : Bool} {w' : World R} (func : P.probabilityFunc ap = some probabilityFunc)
    (enters : Enters ap ignoreCheckpoint w es done)
    (integrated : Integrated P fate ap sc (w.enter ap.currentWU es) probabilityFunc es done t w') :
    Evaluation P fate ap streams sc ignoreCheckpoint w
      (P.finish fate probabilityFunc ap streams sc t w') := by
  unfold Program.finish
  cases fate.readsStars with
  | false => exact .starless enters integrated
  | true => exact .prints func enters integrated

theorem evaluation_goOn {probabilityFunc : ProbabilityFunc R} {es : EvaluationState R}
    {done : Bool} (func : P.probabilityFunc ap = some probabilityFunc)
    (enters : Enters ap ignoreCheckpoint w es done) :
    Evaluation P fate ap streams sc ignoreCheckpoint w
      (P.goOn fate probabilityFunc ap streams sc es done w) := by
  unfold Program.goOn
  cases done with
  | true => exact evaluation_finish P fate ap streams sc ignoreCheckpoint w func enters .already
  | false =>
      rw [if_neg Bool.false_ne_true]
      split
      · exact .fails enters
      · match run : P.calculateIntegrals probabilityFunc ap sc fate.integrals (es, []) with
        | .error (.stopped saved) => exact .stopped enters run
        | .error (.failed _) => exact .fails enters
        | .ok (t, taken) =>
            change Evaluation P fate ap streams sc ignoreCheckpoint w
              (((w.enter ap.currentWU es).checkpoint fate.final t).bind _)
            match saved : (w.enter ap.currentWU es).checkpoint fate.final t with
            | .error w' => exact .complete enters run saved
            | .ok w' =>
                exact evaluation_finish P fate ap streams sc ignoreCheckpoint w func enters
                  (.now run saved)

theorem evaluation_evaluate :
    Evaluation P fate ap streams sc ignoreCheckpoint w
      (evaluate P fate ap streams sc ignoreCheckpoint w) := by
  unfold evaluate
  match func : P.probabilityFunc ap with
  | none => exact .refused one_ne_zero
  | some probabilityFunc =>
      dsimp only
      by_cases resolved : fate.resolved ≠ 0
      · rw [if_pos resolved]
        exact .refused resolved
      rw [if_neg resolved]
      cases ignoreCheckpoint with
      | true => exact evaluation_goOn P fate ap streams sc true w func (.anew rfl)
      | false =>
          rw [if_neg Bool.false_ne_true]
          match file : w.file with
          | .damaged => exact .unreadable rfl file
          | .absent =>
              dsimp only [maybeResume, newEvaluationState]
              rw [if_neg (lt_irrefl _), if_neg Bool.false_ne_true]
              exact evaluation_goOn P fate ap streams sc false w func (.first rfl file)
          | .holds saved =>
              dsimp only [maybeResume, readCheckpoint, addTmpCheckpointSums]
              by_cases ahead : ap.currentWU < saved.currentWU
              · rw [if_pos ahead]
                have leaves : Evaluation P fate ap streams sc false w
                    (.ok (0, saved.currentWU - 1, saved.WUPrinted, w)) := .leaves rfl file ahead
                cases printed : saved.WUPrinted <;> rw [printed] at leaves <;> exact leaves
              rw [if_neg ahead]
              cases printed : saved.WUPrinted with
              | true => exact .skips rfl file (not_lt.mp ahead) printed
              | false =>
                  have goes := evaluation_goOn P fate ap streams sc false w func
                    (.resumes rfl file (not_lt.mp ahead) printed)
                  unfold readCheckpoint addTmpCheckpointSums at goes
                  rw [printed] at goes
                  exact goes

end

/-! ## The loop over the units -/

inductive Machine (R : Type)
  | running (s : Shared R) (ignoreCheckpoint : Bool) (rc : ℤ) (w : World R)
  | interrupted (w : World R)
  | finished (rc : ℤ) (w : World R)

def Machine.world : Machine R → World R
  | .running _ _ _ w => w
  | .interrupted w => w
  | .finished _ w => w

/-- The status of a program that has come to its end. -/
def Machine.status : Machine R → Option ℤ
  | .finished rc _ => some rc
  | _ => none

def Machine.Interrupted : Machine R → Prop
  | .interrupted _ => True
  | _ => False

instance : DecidablePred (Machine.Interrupted (R := R))
  | .interrupted _ => isTrue trivial
  | .running _ _ _ _ => isFalse id
  | .finished _ _ => isFalse id

def Program.prepare (prepared : Shared R) : Shared R :=
  let totalWUs :=
    if P.nForwardedArgs ≠ 0 then P.nForwardedArgs / prepared.ap.params_per_workunit else 1
  { prepared with ap := { prepared.ap with currentWU := 0, totalWUs } }

/-- The start of the worker; the status is not set before a unit is evaluated. -/
def Program.start (prepared : Shared R) (rc : ℤ) (w : World R) : Machine R :=
  .running (P.prepare prepared) P.ignoreCheckpoint rc w

def Program.exit (rc : ℤ) (w : World R) : Machine R :=
  .finished rc
    (if !P.ignoreCheckpoint && P.cleanupCheckpoint && rc = 0 then { w with file := .absent }
    else w)

omit [Zero R] [Add R] [Neg R] [Sub R] [Mul R] [Div R] [OfScientific R] [NatCast R]
  [IntCast R] [BEq R] [LT R] [DecidableLT R] [LE R] [DecidableLE R] in
theorem exit_finished (rc : ℤ) (w : World R) :
    ∃ w', P.exit rc w = .finished rc w' ∧ w'.printed = w.printed ∧ w'.entered = w.entered ∧
      w'.failed = w.failed := by
  unfold Program.exit
  split
  · exact ⟨_, rfl, rfl, rfl, rfl⟩
  · exact ⟨_, rfl, rfl, rfl, rfl⟩

/-- A turn of the worker's loop, or a start after an interruption. -/
def worker (prepared : Shared R) (fate : Fate R) : Machine R → Machine R
  | .running s ignoreCheckpoint rc w =>
      if s.ap.totalWUs ≤ s.ap.currentWU then P.exit rc w
      else
        match setUp P.L P.numArgs s with
        | none => P.exit 1 w
        | some (s, sc) =>
          match evaluate P fate s.ap s.streams sc ignoreCheckpoint w with
          | .error w => .interrupted w
          | .ok (rc, currentWU, ignoreCheckpoint, w) =>
              .running { s with ap := { s.ap with currentWU := currentWU + 1 } }
                ignoreCheckpoint rc w
  | .interrupted w => P.start prepared fate.unset w
  | .finished rc w => .finished rc w

def run (prepared : Shared R) (fates : List (Fate R)) (m : Machine R) : Machine R :=
  fates.foldl (fun m fate => worker P prepared fate m) m

/-- No turn is interrupted. -/
def Uninterrupted (P : Program R) (prepared : Shared R) : List (Fate R) → Machine R → Prop
  | [], _ => True
  | fate :: fates, m => ¬ (worker P prepared fate m).Interrupted ∧
      Uninterrupted P prepared fates (worker P prepared fate m)

instance Uninterrupted.decidable (P : Program R) (prepared : Shared R) :
    ∀ fates m, Decidable (Uninterrupted P prepared fates m)
  | [], _ => isTrue trivial
  | fate :: fates, m =>
      have := Uninterrupted.decidable P prepared fates (worker P prepared fate m)
      inferInstanceAs (Decidable (_ ∧ _))

end

/-! ## Two units -/

/-- A program for two units with one star. -/
def twoUnits : Program ℚ where
  L := rational.L
  isfinite := fun _ => true
  NAN := 0
  ias := rational.ias
  getStreamGauss := fun _ => rational.sg
  stars := [⟨0, 0, 20⟩]
  dispatch := ⟨false, true, false, false, fun _ => false, fun _ => false, fun _ => false⟩
  vectorFunc := fun _ _ _ _ _ _ _ => (0, [])
  device := none
  ignoreCheckpoint := false
  cleanupCheckpoint := true
  numArgs := some [0.5, 1, 0.25, 2]
  nForwardedArgs := 4

def withoutStreams : Shared ℚ := ⟨halfHernquist, ⟨1, 1, 1, 1, 0, 0, 0⟩, ⟨[], 1⟩⟩

end MilkyWay.Separation
