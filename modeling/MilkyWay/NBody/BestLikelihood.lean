import MilkyWay.Foundation.Extended
import MilkyWay.Foundation.RunningMin
import MilkyWay.NBody.Plain

/-! The record of the best likelihood is a running minimum. `nbRun_bestLikelihood`
states it for numbers with infinities and not-a-number, whatever the arithmetic. -/

namespace MilkyWay.NBody

open Foundation

variable {R I H : Type} [Zero R] [Add R] [Neg R] [Sub R] [Mul R] [Div R] [OfScientific R] [BEq R]
  [LT R] [DecidableLT R] [LE R] [DecidableLE R] [NatCast R]

/-- The likelihoods of a step that could be evaluated, and the bodies they are of. -/
structure Evaluation (R : Type) where
  step : ℕ
  use : LikelihoodUse
  likelihoods : Likelihoods R
  bodies : List (Body R)

/-- The absolute clamped likelihood. -/
def Evaluation.value (e : Evaluation R) : R := mw_abs (clampLikelihood e.likelihoods.likelihood)

def Evaluation.record (ctx : NBodyCtx R) (e : Evaluation R) : BestLikelihood R :=
  recordOf ctx e.step e.use e.likelihoods

def evaluationAt (W : World R I H) (ctx : NBodyCtx R) (nbf : NBodyFlags) (st : NBodyState R) :
    Option (Evaluation R) :=
  if inWindow ctx st then
    (likelihoodOf W ctx nbf st).map fun l => ⟨st.step, st.use, l, st.bodytab⟩
  else none

/-- The evaluations up to a point of a session, which is on its way or has ended. -/
inductive Passed (W : World R I H) (S : Session R) (ctx : NBodyCtx R) (nbf : NBodyFlags)
    (start : BitVec 32 × NBodyState R) : List (Evaluation R) →
    (BitVec 32 × NBodyState R) ⊕ (BitVec 32 × NBodyState R) → Prop
  | start : Passed W S ctx nbf start [] (.inl start)
  | step (hist : List (Evaluation R)) (p : BitVec 32 × NBodyState R) (acc_i acc_i1 : Vec3 R)
      (rc : NBodyStatus) (s : NBodyState R)
      (x : (BitVec 32 × NBodyState R) ⊕ (BitVec 32 × NBodyState R))
      (before : Passed W S ctx nbf start hist (.inl p)) (more : p.2.step < ctx.nStep)
      (shift : shiftAt ctx p.2 = some (acc_i, acc_i1))
      (stepped : nbStepSystemPlain W ctx p.2 acc_i acc_i1 = some (rc, s))
      (turn : nbRunTurn W S ctx nbf p = some x) :
      Passed W S ctx nbf start (hist ++ (evaluationAt W ctx nbf s).toList) x
  | stop (hist : List (Evaluation R)) (p : BitVec 32 × NBodyState R)
      (x : (BitVec 32 × NBodyState R) ⊕ (BitVec 32 × NBodyState R))
      (before : Passed W S ctx nbf start hist (.inl p)) (ended : ¬p.2.step < ctx.nStep)
      (turn : nbRunTurn W S ctx nbf p = some x) :
      Passed W S ctx nbf start hist x

/-- The state at a point of a session. -/
def stateAt (x : (BitVec 32 × NBodyState R) ⊕ (BitVec 32 × NBodyState R)) : NBodyState R :=
  x.elim (·.2) (·.2)

/-- The evaluations that improve on the worst case and on all before them. -/
def improvements (hist : List (Evaluation R)) : List (Evaluation R) :=
  records Evaluation.value (mw_abs DEFAULT_WORST_CASE) hist

structure RecordOf (ctx : NBodyCtx R) (nbf : NBodyFlags) (start : NBodyState R)
    (hist : List (Evaluation R)) (st : NBodyState R) : Prop where
  best : st.best = (improvements hist).getLast?.elim start.best (Evaluation.record ctx)
  count : st.bestLikelihood_count = start.bestLikelihood_count + (improvements hist).length
  bodies : nbf.outFileName.isSome → st.bestLikelihoodBodyTab =
    (improvements hist).getLast?.elim start.bestLikelihoodBodyTab Evaluation.bodies

omit [Add R] [Sub R] in
theorem observe_eq (W : World R I H) (ctx : NBodyCtx R) (nbf : NBodyFlags) (st : NBodyState R) :
    observe W ctx nbf st = match evaluationAt W ctx nbf st with
      | none => st
      | some e =>
          if e.value < mw_abs st.best.bestLikelihood then
            { st with
              best := e.record ctx
              bestLikelihood_count := st.bestLikelihood_count + 1
              bestLikelihoodBodyTab :=
                if nbf.outFileName.isSome then e.bodies else st.bestLikelihoodBodyTab }
          else st := by
  unfold observe evaluationAt get_likelihood
  by_cases window : inWindow ctx st
  · rw [if_pos window, if_pos window]
    cases likelihoodOf W ctx nbf st <;> rfl
  · rw [if_neg window, if_neg window]

omit [Add R] [Sub R] [LE R] [DecidableLE R] in
theorem RecordOf.value {ctx : NBodyCtx R} {nbf : NBodyFlags} {start st : NBodyState R}
    {hist : List (Evaluation R)} (h : RecordOf ctx nbf start hist st)
    (worst : start.best.bestLikelihood = DEFAULT_WORST_CASE) :
    mw_abs st.best.bestLikelihood =
      minimum Evaluation.value (mw_abs DEFAULT_WORST_CASE) hist := by
  rw [h.best, minimum]
  show _ = ((improvements hist).getLast?).elim _ _
  cases (improvements hist).getLast? with
  | none => exact congrArg mw_abs worst
  | some e => rfl

omit [Add R] [Sub R] in
theorem RecordOf.observe {W : World R I H} {ctx : NBodyCtx R} {nbf : NBodyFlags}
    {start st : NBodyState R} {hist : List (Evaluation R)} (h : RecordOf ctx nbf start hist st)
    (worst : start.best.bestLikelihood = DEFAULT_WORST_CASE) :
    RecordOf ctx nbf start (hist ++ (evaluationAt W ctx nbf st).toList)
      (observe W ctx nbf st) := by
  rw [observe_eq]
  cases evaluationAt W ctx nbf st with
  | none =>
      rw [Option.toList_none, List.append_nil]
      exact h
  | some e =>
      have next : improvements (hist ++ [e]) = improvements hist ++
          if e.value < mw_abs st.best.bestLikelihood then [e] else [] := by
        rw [h.value worst]
        exact records_append Evaluation.value _ hist [e]
      rw [Option.toList_some]
      dsimp only
      by_cases better : e.value < mw_abs st.best.bestLikelihood
      · rw [if_pos better] at next ⊢
        have last : (improvements (hist ++ [e])).getLast? = some e := by
          rw [next, List.getLast?_append, List.getLast?_singleton, Option.some_or]
        refine ⟨?_, ?_, ?_⟩
        · rw [last]
          rfl
        · rw [next, List.length_append, h.count]
          push_cast
          rw [add_assoc]
          rfl
        · intro out
          rw [last]
          exact if_pos out
      · rw [if_neg better, List.append_nil] at next
        rw [if_neg better]
        exact ⟨by rw [next]; exact h.best, by rw [next]; exact h.count,
          by rw [next]; exact h.bodies⟩

omit [Add R] [Sub R] [LE R] [DecidableLE R] in
theorem RecordOf.congr {ctx : NBodyCtx R} {nbf : NBodyFlags} {start st s : NBodyState R}
    {hist : List (Evaluation R)} (h : RecordOf ctx nbf start hist st) (best : s.best = st.best)
    (count : s.bestLikelihood_count = st.bestLikelihood_count)
    (bestTab : s.bestLikelihoodBodyTab = st.bestLikelihoodBodyTab) :
    RecordOf ctx nbf start hist s :=
  ⟨by rw [best, h.best], by rw [count, h.count], by rw [bestTab]; exact h.bodies⟩

theorem Passed.recordOf {W : World R I H} {S : Session R} {ctx : NBodyCtx R} {nbf : NBodyFlags}
    {start : BitVec 32 × NBodyState R} {hist : List (Evaluation R)}
    {x : (BitVec 32 × NBodyState R) ⊕ (BitVec 32 × NBodyState R)}
    (passed : Passed W S ctx nbf start hist x)
    (worst : start.2.best.bestLikelihood = DEFAULT_WORST_CASE) :
    RecordOf ctx nbf start.2 hist (stateAt x) := by
  induction passed with
  | start => exact ⟨rfl, (add_zero _).symm, fun _ => rfl⟩
  | step hist p acc_i acc_i1 rc s x before more shift stepped turn ih =>
      obtain ⟨rc₀, st⟩ := p
      have frame := nbStepSystemPlain_frame stepped
      have observed := (ih.congr frame.best frame.count frame.bestTab).observe (W := W) worst
      obtain ⟨ended, -⟩ | ⟨-, a, b, rc', s', shift', stepped', rest⟩ := nbRunTurn_cases turn
      · exact absurd more ended
      · rw [shift', Option.some.injEq, Prod.mk.injEq] at shift
        obtain ⟨rfl, rfl⟩ := shift
        rw [stepped', Option.some.injEq, Prod.mk.injEq] at stepped
        obtain ⟨rfl, rfl⟩ := stepped
        obtain ⟨-, rfl⟩ | ⟨-, written, t, made, rfl⟩ := rest
        · exact observed
        · have last := nbCheckpoint_frame made
          have kept : RecordOf ctx nbf start.2 (hist ++ (evaluationAt W ctx nbf s').toList) t := by
            rw [last]
            exact observed.congr rfl rfl rfl
          split <;> exact kept
  | stop hist p x before ended turn ih =>
      obtain ⟨rc₀, st⟩ := p
      obtain ⟨-, rfl⟩ | ⟨more, -⟩ := nbRunTurn_cases turn
      · exact ih
      · exact absurd more ended

theorem Passed.ends {W : World R I H} {S : Session R} {ctx : NBodyCtx R} {nbf : NBodyFlags}
    {start p r : BitVec 32 × NBodyState R} {hist : List (Evaluation R)} {n : ℕ}
    (passed : Passed W S ctx nbf start hist (.inl p))
    (run : (nbRunTurn W S ctx nbf).run n p = some r) :
    ∃ hist', Passed W S ctx nbf start (hist ++ hist') (.inr r) := by
  induction n generalizing p hist with
  | zero => cases run
  | succ n ih =>
      rw [Turn.run] at run
      cases turn : nbRunTurn W S ctx nbf p with
      | none => rw [turn] at run; cases run
      | some x =>
          obtain ⟨ended, rfl⟩ | ⟨more, a, b, rc, s, shift, stepped, -⟩ := nbRunTurn_cases turn
          · rw [turn] at run
            cases run
            refine ⟨[], ?_⟩
            rw [List.append_nil]
            exact passed.stop hist p _ ended turn
          · have next := passed.step hist p a b rc s x more shift stepped turn
            rw [turn] at run
            cases x with
            | inl p' =>
                obtain ⟨hist', ends⟩ := ih next run
                exact ⟨_, by rw [← List.append_assoc]; exact ends⟩
            | inr r' =>
                cases run
                exact ⟨_, next⟩

/-! ## With infinities and not-a-number -/

section
variable {F : Type} [Zero F] [Neg F] [OfScientific F] [LinearOrder F]

omit [OfScientific F] in
theorem mw_abs_ne_nan {a : Extended F} (h : a ≠ .nan) : mw_abs a ≠ .nan := by
  unfold mw_abs
  split
  · rw [ne_eq, Extended.neg_eq_nan]
    exact h
  · exact h

omit [Zero F] in
theorem clampLikelihood_ne_nan [Mul (Extended F)] (l : Extended F) :
    clampLikelihood l ≠ .nan := by
  unfold clampLikelihood
  split
  · exact Extended.ofScientific_ne_nan _ _ _
  · rename_i number
    split
    · exact Extended.ofScientific_ne_nan _ _ _
    · intro nan
      exact number (.inr (.inr ((Extended.bne_self l).mpr nan)))

variable [Mul (Extended F)]

theorem Evaluation.value_ne_nan (e : Evaluation (Extended F)) : e.value ≠ .nan :=
  mw_abs_ne_nan (clampLikelihood_ne_nan _)

theorem minimum_ne_nan (hist : List (Evaluation (Extended F))) :
    minimum Evaluation.value (mw_abs DEFAULT_WORST_CASE) hist ≠ .nan := by
  rw [minimum]
  cases (records Evaluation.value (mw_abs DEFAULT_WORST_CASE) hist).getLast? with
  | none => exact mw_abs_ne_nan (Extended.ofScientific_ne_nan _ _ _)
  | some e => exact e.value_ne_nan

variable [Add (Extended F)] [Sub (Extended F)] [Div (Extended F)] [NatCast (Extended F)]

/-- At every point of a session the best likelihood is the minimum of the absolute
clamped likelihoods so far and the worst case. Once a step has improved on that, the
components, the time, the count and the saved bodies are those of one step that
attains it. -/
theorem nbRun_bestLikelihood (W : World (Extended F) I H) (S : Session (Extended F))
    (ctx : NBodyCtx (Extended F)) (nbf : NBodyFlags) (st start : NBodyState (Extended F))
    (rc : NBodyStatus) (begins : nbRunStart W S ctx st = some (rc, start))
    (goesOn : nbStatusIsFatal rc.bits = false) (hist : List (Evaluation (Extended F)))
    (x : (BitVec 32 × NBodyState (Extended F)) ⊕ (BitVec 32 × NBodyState (Extended F)))
    (passed : Passed W S ctx nbf (rc.bits, start) hist x) :
    (mw_abs (stateAt x).best.bestLikelihood ≤ mw_abs DEFAULT_WORST_CASE ∧
      ∀ e ∈ hist, mw_abs (stateAt x).best.bestLikelihood ≤ e.value) ∧
    ((∀ e ∈ hist, ¬e.value < mw_abs DEFAULT_WORST_CASE) →
      (stateAt x).best.bestLikelihood = DEFAULT_WORST_CASE) ∧
    ((∃ e ∈ hist, e.value < mw_abs DEFAULT_WORST_CASE) → ∃ before e later,
      hist = before ++ e :: later ∧ e.value = mw_abs (stateAt x).best.bestLikelihood ∧
      (stateAt x).best = e.record ctx ∧
      (stateAt x).bestLikelihood_count =
        start.bestLikelihood_count + (improvements (before ++ [e])).length ∧
      (nbf.outFileName.isSome → (stateAt x).bestLikelihoodBodyTab = e.bodies)) := by
  have worst : start.best.bestLikelihood = DEFAULT_WORST_CASE := by
    simp only [nbRunStart, Option.bind_eq_bind, Option.bind_eq_some_iff, Option.pure_def,
      Option.some.injEq, Prod.mk.injEq, Prod.exists] at begins
    obtain ⟨rc', s, -, rfl, rfl⟩ := begins
    rw [goesOn, if_neg Bool.false_ne_true]
    rfl
  have worstNumber : mw_abs (DEFAULT_WORST_CASE : Extended F) ≠ .nan :=
    mw_abs_ne_nan (Extended.ofScientific_ne_nan _ _ _)
  have record := passed.recordOf worst
  have value := record.value worst
  have minNumber : mw_abs (stateAt x).best.bestLikelihood ≠ .nan := by
    rw [value]
    exact minimum_ne_nan hist
  refine ⟨⟨?_, ?_⟩, ?_, ?_⟩
  · refine Extended.le_of_not_lt worstNumber minNumber ?_
    rw [value]
    obtain same | below := minimum_le Evaluation.value (mw_abs DEFAULT_WORST_CASE) hist
    · rw [same]
      exact irrefl_of (· < ·) _
    · exact asymm_of (· < ·) below
  · intro e he
    refine Extended.le_of_not_lt e.value_ne_nan minNumber ?_
    rw [value]
    exact not_lt_minimum Evaluation.value (mw_abs DEFAULT_WORST_CASE) hist e he
  · intro above
    have none : improvements hist = [] := records_eq_nil Evaluation.value above
    have best := record.best
    rw [none] at best
    rw [best]
    exact worst
  · rintro ⟨a, ha, below⟩
    obtain ⟨e, last⟩ := exists_lastRecord Evaluation.value ha below
    obtain ⟨before, later, split, -, attains, same⟩ := lastRecord_spec Evaluation.value last
    have last : (improvements hist).getLast? = some e := last
    have count : improvements (before ++ [e]) = improvements hist := same
    refine ⟨before, e, later, split, attains.trans value.symm, ?_, ?_, ?_⟩
    · rw [record.best, last]
      rfl
    · rw [record.count, count]
    · intro out
      rw [record.bodies out, last]
      rfl

end

/-! ## A run of bodies that feel their gravity alone -/

/-- A world without a potential in which the likelihood depends on the step. -/
def quietWorld (sqrt : R → R) (likelihood : ℕ → R) : World R Unit Unit where
  B := ⟨true, 0, sqrt, fun _ => ⟨0, 0, 0, 0, 0, 0⟩⟩
  L := ⟨sqrt, id, id, id, id, id, fun x _ => x⟩
  K := ⟨fun _ _ _ _ => 0, fun _ _ _ _ => 0, fun _ _ _ _ => 0, fun _ _ _ => 0, fun _ _ _ => 0,
    fun _ _ _ => 0, fun _ => (0, false)⟩
  fuel := 0
  nbGetLikelihoodInfo _ := some ()
  nbCreateHistogram _ _ _ _ _ := some ()
  nbReadHistogram _ _ := some ()
  nbSystemLikelihood step _ _ _ _ := ⟨likelihood step, step, 1.0, 2.0, 3.0, 4.0, 5.0, 6.0⟩

def quietSession : Session R := ⟨fun _ => .notYet, true, none, (0, 0)⟩

def quietCtx (nStep : ℕ) : NBodyCtx R where
  eps2 := 1.0
  theta := 0.0
  timestep := 1.0
  timeEvolve := nStep
  treeRSize := 4.0
  criterion := .exact
  potentialType := .none
  useBestLike := true
  BestLikeStart := 0.0
  LMCmass := 0.0
  LMCscale := 1.0
  coulomb_log := 0.0
  nStep
  pot := ⟨⟨.none, 0, 0⟩, ⟨.none, 0, 0, 0, 0, 0⟩, ⟨.none, 0, 0, 0, 0, 0⟩,
    ⟨.none, 0, 0, 0, 0, 0, 0, 0, 0, 0, 0, 0, 0, 0⟩⟩

def quietState (bodies : List (Body R)) : NBodyState R where
  rsize := 4.0
  bodytab := bodies
  bestLikelihoodBodyTab := bodies
  acctab := []
  orbitTrace := none
  shiftByLMC := none
  LMCpos := 0
  LMCvel := 0
  best := ⟨DEFAULT_WORST_CASE, DEFAULT_WORST_CASE, DEFAULT_WORST_CASE, DEFAULT_WORST_CASE,
    DEFAULT_WORST_CASE, DEFAULT_WORST_CASE, DEFAULT_WORST_CASE, DEFAULT_WORST_CASE, 0⟩
  previousForwardTime := 0

def histogramFlags : NBodyFlags := ⟨some "histogram", none, some "output", false⟩

section
local instance : Add (Extended ℚ) := ⟨Extended.map₂ (· + ·)⟩
local instance : Sub (Extended ℚ) := ⟨Extended.map₂ (· - ·)⟩
local instance : Mul (Extended ℚ) := ⟨Extended.times⟩
local instance : Div (Extended ℚ) := ⟨Extended.map₂ (· / ·)⟩
local instance : NatCast (Extended ℚ) := ⟨fun n => .fin n⟩

/-- Likelihoods that are not a number, infinite and below the worst case. -/
def wildLikelihood : ℕ → Extended ℚ
  | 1 => .nan
  | 2 => .fin (-3)
  | 3 => -.infinity
  | _ => .fin 2

/-- One body that stays where it is. -/
def restingBody : Body R := { pos := 0, mass := 1.0, vel := 0 }

theorem nbRun_bestLikelihood_wild :
    ∃ start hist r, nbRunStart (quietWorld (Extended.map ratSqrt) wildLikelihood) quietSession
        (quietCtx 4) (quietState [restingBody]) = some (.success, start) ∧
      Passed (quietWorld (Extended.map ratSqrt) wildLikelihood) quietSession (quietCtx 4)
        histogramFlags (NBodyStatus.success.bits, start) hist (.inr r) ∧
      ∀ e ∈ hist, mw_abs r.2.best.bestLikelihood ≤ e.value := by
  have status : (nbRunStart (quietWorld (Extended.map ratSqrt) wildLikelihood) quietSession
      (quietCtx 4) (quietState [restingBody])).map Prod.fst = some .success := by decide +kernel
  obtain ⟨start, begins⟩ := exists_of_fst status
  have completes : (nbRunSystemPlain (quietWorld (Extended.map ratSqrt) wildLikelihood)
      quietSession (quietCtx 4) histogramFlags (quietState [restingBody])).isSome = true := by
    decide +kernel
  obtain ⟨r, run⟩ := Option.isSome_iff_exists.mp completes
  rw [nbRunSystemPlain, begins, Option.bind_eq_bind, Option.bind_some] at run
  obtain ⟨hist, passed⟩ := Passed.ends .start run
  exact ⟨start, _, r, begins, passed, (nbRun_bestLikelihood _ _ _ _ _ _ _ begins rfl _ _
    passed).1.2⟩

end

end MilkyWay.NBody
