import MilkyWay.Separation.IntegralResume
import MilkyWay.Separation.Worker

/-! Runs of the worker over all units, interrupted where they have saved and started again.
Each unit is printed once and in order as long as no failure is followed by another unit and
no run is interrupted where it has just saved that a later unit is printed. -/

namespace MilkyWay.Separation

open Foundation

section
variable {R : Type}

structure SameUnit (s t : EvaluationState R) : Prop where
  currentWU : t.currentWU = s.currentWU
  WUPrinted : t.WUPrinted = s.WUPrinted

theorem SameUnit.trans {r s t : EvaluationState R} (first : SameUnit r s) (second : SameUnit s t) :
    SameUnit r t :=
  ⟨second.currentWU.trans first.currentWU, second.WUPrinted.trans first.WUPrinted⟩

structure SameCut (s t : EvaluationState R) : Prop extends SameUnit s t where
  currentCut : t.currentCut = s.currentCut

theorem SameCut.trans {r s t : EvaluationState R} (first : SameCut r s) (second : SameCut s t) :
    SameCut r t :=
  ⟨first.toSameUnit.trans second.toSameUnit, second.currentCut.trans first.currentCut⟩

theorem SameCut.of_eq {s t : EvaluationState R} (currentWU : t.currentWU = s.currentWU)
    (WUPrinted : t.WUPrinted = s.WUPrinted) (currentCut : t.currentCut = s.currentCut) :
    SameCut s t := ⟨⟨currentWU, WUPrinted⟩, currentCut⟩

def KeepsCut (s : EvaluationState R) (x : Except (Halt (EvaluationState R) ℤ)
    (EvaluationState R)) : Prop :=
  Ends (SameCut s) (SameCut s) (fun _ => True) x

end

section
variable {R : Type} [Zero R] [Add R] [Sub R]

theorem keeps_integrateCL (D : ProgramCL R) (nStream : ℕ) (ia : IntegralArea R)
    (o : Oracle (EvaluationState R)) (s : EvaluationState R) :
    KeepsCut s (integrateCL D nStream ia o s) := by
  have cut : ∀ t, SamePlace s t → SameCut s t := fun t same =>
    .of_eq same.currentWU same.WUPrinted same.currentCut
  refine (samePlace_integrateCL D nStream ia o s).mono ?_ cut fun _ => id
  rintro t ⟨u, same, rfl⟩
  exact (cut u same).trans ⟨⟨rfl, rfl⟩, rfl⟩

end

section
variable {R : Type} [Zero R] [Add R] [Neg R] [Sub R] [Mul R] [Div R] [OfScientific R] [NatCast R]
  [IntCast R] [BEq R] [LT R] [DecidableLT R] [LE R] [DecidableLE R]
variable (P : Program R)

theorem keeps_integrate {E : Integration R} {ap : AstronomyParameters R}
    {sc : List (StreamConstants R)} (ia : IntegralArea R) (o : Oracle (EvaluationState R))
    (s : EvaluationState R) : KeepsCut s (integrate E ap sc ia o s) := by
  unfold integrate
  split
  · trivial
  · have cut : ∀ t, Untouched s t → SameCut s t := fun t untouched =>
      .of_eq untouched.currentWU untouched.WUPrinted untouched.currentCut
    refine ((ends_nuSum o s).mono cut cut fun _ => id).bind ?_
    exact fun t same => same.trans ⟨⟨rfl, rfl⟩, rfl⟩

theorem keeps_calculateIntegrals (probabilityFunc : ProbabilityFunc R)
    (ap : AstronomyParameters R) (sc : List (StreamConstants R)) (o : Oracle (Progress R))
    (p : Progress R) :
    Ends (fun t => SameUnit p.1 t.1) (fun c => SameUnit p.1 c.1) (fun _ => True)
      (P.calculateIntegrals probabilityFunc ap sc o p) := by
  unfold Program.calculateIntegrals calculateIntegrals
  refine (ends_forLoop (I := fun t : Progress R => SameUnit p.1 t.1)
    (S := fun c => SameUnit p.1 c.1) ?_ ⟨rfl, rfl⟩).mono
    (fun _ ends => ends.1) (fun _ => id) fun _ => id
  intro s same _
  refine ((ends_beside (Q := SameCut s.1) (S := SameCut s.1) (F := fun _ => True) ?_).mono
    (fun _ => id) (fun c ends => same.trans ends.1.toSameUnit) fun _ _ => trivial).bind ?_
  · cases P.device with
    | none => exact keeps_integrate _ _ s.1
    | some D => exact keeps_integrateCL _ _ _ _ s.1
  · rintro t ⟨cut, -⟩
    unfold finishCut
    dsimp only
    split
    · trivial
    · exact ⟨same.trans ⟨cut.currentWU, cut.WUPrinted⟩, congrArg (· + 1) cut.currentCut⟩

/-! ## What is asked of the worker -/

/-- A state whose sums are those of one unit: it is new, or it has been saved by an evaluation
of the unit that went on from such a state. -/
inductive Own (unit : ℕ) : EvaluationState R → Prop
  | new {s s' : Shared R} {sc : List (StreamConstants R)}
      (set : setUp P.L P.numArgs s = some (s', sc)) (current : s'.ap.currentWU = unit) :
      Own unit (newEvaluationState s'.ap)
  | stopped {s s' : Shared R} {sc : List (StreamConstants R)}
      {probabilityFunc : ProbabilityFunc R} {o : Oracle (Progress R)} {es : EvaluationState R}
      {saved : Progress R} (set : setUp P.L P.numArgs s = some (s', sc))
      (current : s'.ap.currentWU = unit) (own : Own unit es)
      (run : P.calculateIntegrals probabilityFunc s'.ap sc o (es, []) = .error (.stopped saved)) :
      Own unit (readCheckpoint saved.1)
  | complete {s s' : Shared R} {sc : List (StreamConstants R)}
      {probabilityFunc : ProbabilityFunc R} {o : Oracle (Progress R)} {es : EvaluationState R}
      {t : Progress R} (set : setUp P.L P.numArgs s = some (s', sc))
      (current : s'.ap.currentWU = unit) (own : Own unit es)
      (run : P.calculateIntegrals probabilityFunc s'.ap sc o (es, []) = .ok t) :
      Own unit (readCheckpoint (writeCheckpoint t.1))

def Program.units (prepared : Shared R) : ℕ := (P.prepare prepared).ap.totalWUs

/-- The units are printed in order and once, evaluations start from sums of their own unit,
and the status is zero only when all units are printed and none has failed. -/
structure Good (prepared : Shared R) (m : Machine R) : Prop where
  inOrder : ∃ j ≤ P.units prepared, m.world.printed.map Prod.fst = List.range j
  own : ∀ e ∈ m.world.entered, Own P e.1 e.2
  ends : m.status = some 0 →
    m.world.printed.map Prod.fst = List.range (P.units prepared) ∧ m.world.failed = []
  returns : ∀ fates, P.units prepared + 2 ≤ fates.length → Uninterrupted P prepared fates m →
    ∃ rc, (run P prepared fates m).status = some rc

def File.printedUnit : File R → ℕ
  | .holds es => if es.WUPrinted then es.currentWU else 0
  | _ => 0

/-- No unit follows one that has failed. A run that is interrupted has had no failure, and no
unit beyond the first has just been printed; if checkpoints are ignored, none has been. -/
def Meets (prepared : Shared R) : Machine R → Prop
  | .running s _ _ w => w.failed = [] ∨ P.units prepared ≤ s.ap.currentWU
  | .interrupted w => w.failed = [] ∧ (P.ignoreCheckpoint = true → w.printed = []) ∧
      w.file.printedUnit = 0
  | .finished _ _ => True

instance [DecidableEq R] (prepared : Shared R) : DecidablePred (Meets P prepared)
  | .running _ _ _ _ => inferInstanceAs (Decidable (_ ∨ _))
  | .interrupted _ => inferInstanceAs (Decidable (_ ∧ _))
  | .finished _ _ => isTrue trivial

/-- Each state that a step is made from meets the condition. -/
def MeetsAll (prepared : Shared R) : List (Fate R) → Machine R → Prop
  | [], _ => True
  | fate :: fates, m =>
      Meets P prepared m ∧ MeetsAll prepared fates (worker P prepared fate m)

instance MeetsAll.decidable [DecidableEq R] (prepared : Shared R) :
    ∀ fates m, Decidable (MeetsAll P prepared fates m)
  | [], _ => isTrue trivial
  | fate :: fates, m =>
      have := MeetsAll.decidable prepared fates (worker P prepared fate m)
      inferInstanceAs (Decidable (_ ∧ _))

/-! ## The invariant -/

inductive Stands (prepared : Shared R) : ℕ → Bool → World R → ℕ → Prop
  | counts {w : World R} {j : ℕ} : Stands prepared j true w j
  | starts {w : World R} (absent : w.file = .absent) : Stands prepared 0 false w 0
  | skips {w : World R} {es : EvaluationState R} (found : w.file = .holds es)
      (printed : es.WUPrinted = true) (first : es.currentWU = 0) : Stands prepared 0 false w 1
  | resumes {w : World R} {es : EvaluationState R} {k j : ℕ} (found : w.file = .holds es)
      (unprinted : es.WUPrinted = false) (unit : es.currentWU = j) (less : j < P.units prepared)
      (own : Own P j (readCheckpoint es)) (stands : k = 0 ∨ k = j) : Stands prepared k false w j

structure Tracks (prepared : Shared R) (w : World R) (j : ℕ) : Prop where
  printed : w.printed.map Prod.fst = List.range j
  le : j ≤ P.units prepared
  own : ∀ e ∈ w.entered, Own P e.1 e.2

def Invariant (prepared : Shared R) : Machine R → Prop
  | .running s ignoreCheckpoint rc w => s.ap.totalWUs = P.units prepared ∧
      ∃ j, Tracks P prepared w j ∧
        (w.failed ≠ [] ∧ rc ≠ 0 ∨
          w.failed = [] ∧ Stands P prepared s.ap.currentWU ignoreCheckpoint w j)
  | .interrupted w => ∃ j es, Tracks P prepared w j ∧ w.file = .holds es ∧
      (es.WUPrinted = true ∧ es.currentWU + 1 = j ∨
        es.WUPrinted = false ∧ es.currentWU = j ∧ j < P.units prepared ∧
          Own P j (readCheckpoint es))
  | .finished rc w => ∃ j, Tracks P prepared w j ∧
      (rc = 0 → j = P.units prepared ∧ w.failed = [])

variable {P} {prepared s s' : Shared R} {sc : List (StreamConstants R)} {w : World R}
  {ignoreCheckpoint : Bool} {j k : ℕ}

theorem tracks_enter {es : EvaluationState R} (tracks : Tracks P prepared w j)
    (own : Own P k es) : Tracks P prepared (w.enter k es) j where
  printed := tracks.printed
  le := tracks.le
  own := by
    intro e mem
    obtain old | new := List.mem_append.mp mem
    · exact tracks.own e old
    · obtain rfl := List.mem_singleton.mp new
      exact own

theorem tracks_print (out : ℤ × SeparationResults R) (tracks : Tracks P prepared w j)
    (less : j < P.units prepared) : Tracks P prepared (w.print j out) (j + 1) where
  printed := by
    rw [World.printed_print, List.map_append, tracks.printed, List.range_succ]
    rfl
  le := less
  own := by
    intro e mem
    refine tracks.own e ?_
    unfold World.print at mem
    split at mem <;> exact mem

theorem tracks_file {w' : World R} (tracks : Tracks P prepared w j)
    (printed : w'.printed = w.printed) (entered : w'.entered = w.entered) :
    Tracks P prepared w' j :=
  ⟨printed ▸ tracks.printed, tracks.le, entered ▸ tracks.own⟩

theorem stands_enters {es : EvaluationState R} {done : Bool}
    (set : setUp P.L P.numArgs s = some (s', sc))
    (stands : Stands P prepared s'.ap.currentWU ignoreCheckpoint w j)
    (enters : Enters s'.ap ignoreCheckpoint w es done) :
    s'.ap.currentWU = j ∧ Own P s'.ap.currentWU es ∧ es.currentWU = s'.ap.currentWU ∧
      es.WUPrinted = false := by
  cases enters with
  | anew ignores =>
      cases ignores
      generalize unit : s'.ap.currentWU = k at stands
      cases stands
      exact ⟨rfl, .new set unit, unit, rfl⟩
  | first looks absent =>
      cases looks
      generalize unit : s'.ap.currentWU = k at stands
      cases stands with
      | starts _ => exact ⟨rfl, .new set unit, unit, rfl⟩
      | skips found _ _ => cases absent.symm.trans found
      | resumes found _ _ _ _ _ => cases absent.symm.trans found
  | @resumes saved looks found unit unprinted =>
      cases looks
      generalize current : s'.ap.currentWU = k at stands unit
      cases stands with
      | starts absent => cases absent.symm.trans found
      | skips found' printed first =>
          cases found.symm.trans found'
          cases unprinted.symm.trans printed
      | resumes found' _ same less own stands =>
          cases found.symm.trans found'
          have here : k = j := by
            obtain rfl | same' := stands
            · rw [← same]
              exact (Nat.le_zero.mp unit).symm
            · exact same'
          subst here
          exact ⟨rfl, own, same, unprinted⟩

theorem integrated_tracks {fate : Fate R} {ap : AstronomyParameters R}
    {probabilityFunc : ProbabilityFunc R} {es t : EvaluationState R} {done : Bool} {w' : World R}
    (tracks : Tracks P prepared w j)
    (integrated : Integrated P fate ap sc w probabilityFunc es done t w') :
    Tracks P prepared w' j ∧ w'.failed = w.failed ∧ SameUnit es t := by
  cases integrated with
  | already => exact ⟨tracks, rfl, rfl, rfl⟩
  | @now _ taken _ run saved =>
      obtain ⟨printed, entered, failed, -⟩ := file_checkpoint saved
      have keeps := keeps_calculateIntegrals P probabilityFunc ap sc fate.integrals (es, [])
      rw [run] at keeps
      exact ⟨tracks_file tracks printed entered, failed, keeps⟩

def Continues (P : Program R) (prepared : Shared R) : Evaluated R → Prop
  | .error w => Invariant P prepared (.interrupted w)
  | .ok (rc, currentWU, ignoreCheckpoint, w) => ∃ j, Tracks P prepared w j ∧
      (w.failed ≠ [] ∧ rc ≠ 0 ∨
        w.failed = [] ∧ Stands P prepared (currentWU + 1) ignoreCheckpoint w j)

theorem continues_fail {rc : ℤ} {currentWU unit : ℕ} (tracks : Tracks P prepared w j)
    (nonzero : rc ≠ 0) :
    Continues P prepared (.ok (rc, currentWU, ignoreCheckpoint, w.fail unit)) :=
  ⟨j, ⟨tracks.printed, tracks.le, tracks.own⟩,
    Or.inl ⟨List.append_ne_nil_of_right_ne_nil _ (List.cons_ne_nil _ _), nonzero⟩⟩

theorem continues_evaluation {fate : Fate R} {e : Evaluated R}
    (set : setUp P.L P.numArgs s = some (s', sc)) (less : s'.ap.currentWU < P.units prepared)
    (tracks : Tracks P prepared w j) (none : w.failed = [])
    (stands : Stands P prepared s'.ap.currentWU ignoreCheckpoint w j)
    (evaluation : Evaluation P fate s'.ap s'.streams sc ignoreCheckpoint w e) :
    Continues P prepared e := by
  cases evaluation with
  | refused nonzero => exact continues_fail tracks nonzero
  | unreadable looks damaged => exact continues_fail (tracks_file tracks rfl rfl) one_ne_zero
  | leaves looks found ahead =>
      cases looks
      generalize s'.ap.currentWU = k at stands ahead
      cases stands with
      | starts absent => cases absent.symm.trans found
      | skips found' _ first =>
          cases found.symm.trans found'
          exact absurd ahead (by omega)
      | resumes found' unprinted unit less own stands =>
          cases found.symm.trans found'
          rw [unprinted]
          exact ⟨j, tracks, Or.inr ⟨none,
            .resumes found unprinted unit less own (Or.inr (by omega))⟩⟩
  | skips looks found unit printed =>
      cases looks
      generalize s'.ap.currentWU = k at stands
      cases stands with
      | starts absent => cases absent.symm.trans found
      | skips found' _ first => exact ⟨1, tracks, Or.inr ⟨none, .counts⟩⟩
      | resumes found' unprinted _ _ _ _ =>
          cases found.symm.trans found'
          cases printed.symm.trans unprinted
  | fails enters =>
      obtain ⟨-, own, -, -⟩ := stands_enters set stands enters
      exact continues_fail (tracks_enter tracks own) one_ne_zero
  | @stopped f es saved enters run =>
      obtain ⟨here, own, unit, unprinted⟩ := stands_enters set stands enters
      have keeps := keeps_calculateIntegrals P f s'.ap sc fate.integrals (es, [])
      rw [run] at keeps
      exact ⟨j, saved.1, tracks_file (tracks_enter tracks own) rfl rfl, rfl,
        Or.inr ⟨keeps.WUPrinted.trans unprinted, keeps.currentWU.trans (unit.trans here),
          here ▸ less, .stopped set here (here ▸ own) run⟩⟩
  | @complete f es t taken w' enters run saved =>
      obtain ⟨here, own, unit, unprinted⟩ := stands_enters set stands enters
      have keeps := keeps_calculateIntegrals P f s'.ap sc fate.integrals (es, [])
      rw [run] at keeps
      obtain rfl := checkpoint_stopped saved
      exact ⟨j, writeCheckpoint t, tracks_file (tracks_enter tracks own) rfl rfl, rfl,
        Or.inr ⟨keeps.WUPrinted.trans unprinted, keeps.currentWU.trans (unit.trans here),
          here ▸ less, .complete set here (here ▸ own) run⟩⟩
  | starless enters integrated =>
      obtain ⟨-, own, -, -⟩ := stands_enters set stands enters
      exact continues_fail (integrated_tracks (tracks_enter tracks own) integrated).1 one_ne_zero
  | @prints f es t done w' func enters integrated =>
      obtain ⟨here, own, unit, -⟩ := stands_enters set stands enters
      obtain ⟨tracks', failed, same⟩ := integrated_tracks (tracks_enter tracks own) integrated
      have units : t.currentWU = j := same.currentWU.trans (unit.trans here)
      rw [here] at less ⊢
      generalize P.likelihood f s'.ap s'.streams sc fate.opensOutfile t = out
      have printed := tracks_print out tracks' less
      match saved : (w'.print j out).checkpoint fate.printed { t with WUPrinted := true } with
      | .error w'' =>
          obtain rfl := checkpoint_stopped saved
          exact ⟨j + 1, _, tracks_file printed rfl rfl, rfl, Or.inl ⟨rfl, congrArg (· + 1) units⟩⟩
      | .ok w'' =>
          obtain ⟨kept, entered, failures, -⟩ := file_checkpoint saved
          refine ⟨j + 1, tracks_file printed kept entered, ?_⟩
          rw [failures]
          unfold World.print
          by_cases success : out.1 = 0
          · rw [if_pos success]
            exact Or.inr ⟨failed.trans none, .counts⟩
          · rw [if_neg success]
            exact Or.inl ⟨List.append_ne_nil_of_right_ne_nil _ (List.cons_ne_nil _ _), success⟩

/-! ## Steps and runs -/

theorem invariant_exit {rc : ℤ} (tracks : Tracks P prepared w j)
    (success : rc = 0 → j = P.units prepared ∧ w.failed = []) :
    Invariant P prepared (P.exit rc w) := by
  obtain ⟨w', exit, printed, entered, failed⟩ := exit_finished P rc w
  rw [exit]
  exact ⟨j, tracks_file tracks printed entered, fun zero => failed ▸ success zero⟩

theorem stands_last (stands : Stands P prepared k ignoreCheckpoint w j) (le : j ≤ P.units prepared)
    (last : P.units prepared ≤ k) : j = P.units prepared := by
  cases stands with
  | counts => exact Nat.le_antisymm le last
  | starts absent => exact (Nat.le_zero.mp last).symm
  | skips found printed first => omega
  | resumes found unprinted unit less own stands => omega

theorem invariant_worker {fate : Fate R} {m : Machine R} (meets : Meets P prepared m)
    (invariant : Invariant P prepared m) : Invariant P prepared (worker P prepared fate m) := by
  match m with
  | .finished rc w => exact invariant
  | .interrupted w =>
      obtain ⟨j, es, tracks, found, file⟩ := invariant
      obtain ⟨none, ignored, printed⟩ := meets
      refine ⟨rfl, j, tracks, Or.inr ⟨none, ?_⟩⟩
      change Stands P prepared 0 P.ignoreCheckpoint w j
      cases ignores : P.ignoreCheckpoint with
      | true =>
          have nothing := tracks.printed
          rw [ignored ignores] at nothing
          obtain rfl : j = 0 := List.range_eq_nil.mp nothing.symm
          exact .counts
      | false =>
          obtain ⟨flag, unit⟩ | ⟨flag, unit, less, own⟩ := file
          · have first : es.currentWU = 0 := by simpa [found, File.printedUnit, flag] using printed
            obtain rfl : j = 1 := by omega
            exact .skips found flag first
          · exact .resumes found flag unit less own (Or.inl rfl)
  | .running s ignoreCheckpoint rc w =>
      obtain ⟨total, j, tracks, stands⟩ := invariant
      rw [worker]
      by_cases last : s.ap.totalWUs ≤ s.ap.currentWU
      · rw [if_pos last]
        rw [total] at last
        refine invariant_exit tracks fun zero => ?_
        obtain ⟨-, nonzero⟩ | ⟨none, stands⟩ := stands
        · exact absurd zero nonzero
        · exact ⟨stands_last stands tracks.le last, none⟩
      · rw [if_neg last]
        rw [total] at last
        match set : setUp P.L P.numArgs s with
        | none => exact invariant_exit tracks fun zero => absurd zero one_ne_zero
        | some (s', sc) =>
            obtain ⟨unit, total'⟩ := setUp_numbers P.L set
            have none : w.failed = [] := meets.resolve_right last
            obtain ⟨failed, -⟩ | ⟨-, stands⟩ := stands
            · exact absurd none failed
            · rw [← unit] at stands last
              have continues := continues_evaluation set (not_le.mp last) tracks none stands
                (evaluation_evaluate P fate s'.ap s'.streams sc ignoreCheckpoint w)
              dsimp only
              match out : evaluate P fate s'.ap s'.streams sc ignoreCheckpoint w with
              | .error w' =>
                  rw [out] at continues
                  exact continues
              | .ok (rc', currentWU, ignoreCheckpoint', w') =>
                  rw [out] at continues
                  exact ⟨total'.trans total, continues⟩

theorem invariant_start (rc : ℤ) : Invariant P prepared (P.start prepared rc .start) := by
  refine ⟨rfl, 0, ⟨rfl, Nat.zero_le _, nofun⟩, Or.inr ⟨rfl, ?_⟩⟩
  change Stands P prepared 0 P.ignoreCheckpoint .start 0
  cases P.ignoreCheckpoint with
  | true => exact .counts
  | false => exact .starts rfl

theorem invariant_run {fates : List (Fate R)} {m : Machine R} (meets : MeetsAll P prepared fates m)
    (invariant : Invariant P prepared m) : Invariant P prepared (run P prepared fates m) := by
  induction fates generalizing m with
  | nil => exact invariant
  | cons fate fates ih => exact ih meets.2 (invariant_worker meets.1 invariant)

/-! ## The worker returns -/

def turnsLeft (P : Program R) (prepared : Shared R) : Machine R → ℕ
  | .running s _ _ _ => P.units prepared - s.ap.currentWU + 1
  | .interrupted _ => P.units prepared + 2
  | .finished _ _ => 0

def Counted (P : Program R) (prepared : Shared R) : Machine R → Prop
  | .running s _ _ _ => s.ap.totalWUs = P.units prepared
  | _ => True

theorem evaluation_forward {fate : Fate R} {ap : AstronomyParameters R} {streams : Streams R}
    {e : Evaluated R} (evaluation : Evaluation P fate ap streams sc ignoreCheckpoint w e)
    {rc : ℤ} {currentWU : ℕ} {ignores : Bool} {w' : World R}
    (out : e = .ok (rc, currentWU, ignores, w')) : ap.currentWU ≤ currentWU := by
  cases evaluation with
  | leaves looks found ahead =>
      cases out
      exact Nat.le_sub_one_of_lt ahead
  | refused nonzero => cases out; exact le_rfl
  | unreadable looks damaged => cases out; exact le_rfl
  | skips looks found unit printed => cases out; exact le_rfl
  | fails enters => cases out; exact le_rfl
  | stopped enters run => cases out
  | complete enters run saved => cases out
  | starless enters integrated => cases out; exact le_rfl
  | prints func enters integrated =>
      generalize World.checkpoint _ _ _ = saved at out
      cases saved with
      | error left => cases out
      | ok left => cases out; exact le_rfl

theorem turnsLeft_worker {fate : Fate R} {m : Machine R} (counted : Counted P prepared m)
    (goes : ¬ (worker P prepared fate m).Interrupted) :
    Counted P prepared (worker P prepared fate m) ∧
      turnsLeft P prepared (worker P prepared fate m) ≤ turnsLeft P prepared m - 1 := by
  have ended : ∀ rc w,
      Counted P prepared (P.exit rc w) ∧ turnsLeft P prepared (P.exit rc w) = 0 := by
    intro rc w
    obtain ⟨w', exit, -⟩ := exit_finished P rc w
    rw [exit]
    exact ⟨trivial, rfl⟩
  match m with
  | .finished rc w => exact ⟨trivial, le_rfl⟩
  | .interrupted w => exact ⟨rfl, le_rfl⟩
  | .running s ignoreCheckpoint rc w =>
      rw [worker] at goes ⊢
      by_cases last : s.ap.totalWUs ≤ s.ap.currentWU
      · rw [if_pos last]
        exact ⟨(ended rc w).1, (ended rc w).2.trans_le (Nat.zero_le _)⟩
      rw [if_neg last] at goes ⊢
      match set : setUp P.L P.numArgs s with
      | none => exact ⟨(ended 1 w).1, (ended 1 w).2.trans_le (Nat.zero_le _)⟩
      | some (s', sc) =>
          obtain ⟨unit, total⟩ := setUp_numbers P.L set
          rw [set] at goes
          dsimp only at goes ⊢
          match out : evaluate P fate s'.ap s'.streams sc ignoreCheckpoint w with
          | .error w' =>
              rw [out] at goes
              exact absurd trivial goes
          | .ok (rc', currentWU, ignoreCheckpoint', w') =>
              have further := evaluation_forward
                (evaluation_evaluate P fate s'.ap s'.streams sc ignoreCheckpoint w) out
              have counted' : s.ap.totalWUs = P.units prepared := counted
              refine ⟨total.trans counted, ?_⟩
              change P.units prepared - (currentWU + 1) + 1 ≤
                P.units prepared - s.ap.currentWU + 1 - 1
              omega

theorem run_returns {fates : List (Fate R)} {m : Machine R} (counted : Counted P prepared m)
    (enough : turnsLeft P prepared m ≤ fates.length) (goes : Uninterrupted P prepared fates m) :
    ∃ rc, (run P prepared fates m).status = some rc := by
  induction fates generalizing m with
  | nil =>
      cases m with
      | finished rc w => exact ⟨rc, rfl⟩
      | interrupted w => exact absurd enough (Nat.not_succ_le_zero _)
      | running s ignoreCheckpoint rc w => exact absurd enough (Nat.not_succ_le_zero _)
  | cons fate fates ih =>
      obtain ⟨counted', fewer⟩ := turnsLeft_worker counted goes.1
      have fewer' : turnsLeft P prepared (worker P prepared fate m) ≤ fates.length := by
        rw [List.length_cons] at enough
        omega
      exact ih counted' fewer' goes.2

theorem Invariant.good {m : Machine R} (invariant : Invariant P prepared m) :
    Good P prepared m := by
  have finishes : Counted P prepared m → turnsLeft P prepared m ≤ P.units prepared + 2 →
      ∀ fates, P.units prepared + 2 ≤ fates.length → Uninterrupted P prepared fates m →
        ∃ rc, (run P prepared fates m).status = some rc :=
    fun counted le fates enough goes => run_returns counted (le.trans enough) goes
  cases m with
  | running s ignoreCheckpoint rc w =>
      obtain ⟨total, j, tracks, -⟩ := invariant
      refine ⟨⟨j, tracks.le, tracks.printed⟩, tracks.own, nofun, finishes total ?_⟩
      change P.units prepared - s.ap.currentWU + 1 ≤ P.units prepared + 2
      omega
  | interrupted w =>
      obtain ⟨j, es, tracks, -⟩ := invariant
      exact ⟨⟨j, tracks.le, tracks.printed⟩, tracks.own, nofun, finishes trivial le_rfl⟩
  | finished rc w =>
      obtain ⟨j, tracks, success⟩ := invariant
      refine ⟨⟨j, tracks.le, tracks.printed⟩, tracks.own, ?_, finishes trivial (Nat.zero_le _)⟩
      intro status
      obtain ⟨rfl, none⟩ := success (Option.some.inj status)
      exact ⟨tracks.printed, none⟩

/-- In every run whose steps meet the condition, the worker prints the units in order and once,
starts evaluations from sums of their own unit and returns success only for that. -/
theorem worker_good (prepared : Shared R) (rc : ℤ) (fates : List (Fate R))
    (meets : MeetsAll P prepared fates (P.start prepared rc .start)) :
    Good P prepared (run P prepared fates (P.start prepared rc .start)) :=
  (invariant_run meets (invariant_start rc)).good

end

/-! ## Interrupted runs of two units -/

def Fate.stopping : Fate ℚ := { (Fate.calm : Fate ℚ) with integrals := fun _ => .stop }

/-- The first unit is printed and its state is saved; the second one is stopped in its
integrals, and the program starts again. -/
def resumedFates : List (Fate ℚ) :=
  [{ (Fate.calm : Fate ℚ) with printed := .save }, .stopping, .calm, .calm, .calm, .calm]

theorem worker_good_twoUnits :
    Good twoUnits withoutStreams
      (run twoUnits withoutStreams resumedFates (twoUnits.start withoutStreams 0 .start)) :=
  worker_good withoutStreams 0 resumedFates (by decide +kernel)

/-- The flattening of the first unit is zero. -/
def firstFails : Program ℚ := { twoUnits with numArgs := some [0.5, 0, 0.25, 2] }

/-- The run is interrupted when it has saved that the second unit is printed. -/
def printedFates : List (Fate ℚ) :=
  [.calm, { (Fate.calm : Fate ℚ) with printed := .stop }, .calm, .calm, .calm, .calm]

theorem not_good_of_printed {P : Program ℚ} {prepared : Shared ℚ} {m : Machine ℚ}
    (wrong : m.world.printed.map Prod.fst ≠ List.range m.world.printed.length) :
    ¬ Good P prepared m := by
  intro good
  obtain ⟨j, -, printed⟩ := good.inOrder
  have length : m.world.printed.length = j := by
    simpa using congrArg List.length printed
  exact wrong (length ▸ printed)

/-- The first unit fails and the status is zero all the same; a second unit whose result is
saved as printed is printed again. -/
theorem worker_not_good :
    (run firstFails withoutStreams [.calm, .calm, .calm]
        (firstFails.start withoutStreams 0 .start)).status = some 0 ∧
      (run firstFails withoutStreams [.calm, .calm, .calm]
        (firstFails.start withoutStreams 0 .start)).world.failed = [0] ∧
      ¬ Good firstFails withoutStreams (run firstFails withoutStreams [.calm, .calm, .calm]
        (firstFails.start withoutStreams 0 .start)) ∧
      (run twoUnits withoutStreams printedFates
        (twoUnits.start withoutStreams 0 .start)).status = some 0 ∧
      (run twoUnits withoutStreams printedFates
        (twoUnits.start withoutStreams 0 .start)).world.printed.map Prod.fst = [0, 1, 1] ∧
      ¬ Good twoUnits withoutStreams (run twoUnits withoutStreams printedFates
        (twoUnits.start withoutStreams 0 .start)) := by
  refine ⟨by decide +kernel, by decide +kernel, not_good_of_printed ?_, by decide +kernel,
    by decide +kernel, not_good_of_printed ?_⟩
  · decide +kernel
  · decide +kernel

end MilkyWay.Separation
