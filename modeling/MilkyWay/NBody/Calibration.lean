import MilkyWay.Foundation.Feedback
import MilkyWay.NBody.Report

/-! The runs of an invocation. A turning bar is calibrated by runs before the last one:
each starts from the same state and shifts the bar by the time that the run before has
found. A checkpoint holds the state of the run in progress alone, so an invocation that
is resumed takes it for the initial state and starts to count again. -/

namespace MilkyWay.NBody

open Foundation

variable {R I H : Type} [Zero R] [Add R] [Neg R] [Sub R] [Mul R] [Div R] [OfScientific R] [BEq R]
  [LT R] [DecidableLT R] [LE R] [DecidableLE R] [NatCast R]

/-- What the command line says about a state. -/
structure StateFlags where
  reportProgress : Bool := false
  ignoreResponsive : Bool := false

def emptyNBodyState : NBodyState R where
  rsize := 0
  bodytab := []
  bestLikelihoodBodyTab := []
  acctab := []
  orbitTrace := none
  shiftByLMC := none
  LMCpos := 0
  LMCvel := 0
  best := ⟨0, 0, 0, 0, 0, 0, 0, 0, 0⟩
  previousForwardTime := 0

def cloned (st oldSt : NBodyState R) : NBodyState R := { st with
  rsize := oldSt.rsize
  lastCheckpoint := oldSt.lastCheckpoint
  step := oldSt.step
  effNBody := oldSt.effNBody
  best := { st.best with bestLikelihood := oldSt.best.bestLikelihood }
  bestLikelihood_count := oldSt.bestLikelihood_count
  ignoreResponsive := oldSt.ignoreResponsive
  usesExact := oldSt.usesExact
  usesQuad := oldSt.usesQuad
  dirty := oldSt.dirty
  usesCL := oldSt.usesCL
  reportProgress := oldSt.reportProgress
  treeIncest := oldSt.treeIncest
  structureError := oldSt.structureError
  bodytab := oldSt.bodytab
  bestLikelihoodBodyTab := oldSt.bestLikelihoodBodyTab
  acctab := oldSt.acctab
  previousForwardTime := oldSt.previousForwardTime
  orbitTrace := oldSt.orbitTrace.or st.orbitTrace
  shiftByLMC := oldSt.shiftByLMC.or st.shiftByLMC
  LMCpos := oldSt.LMCpos
  LMCvel := oldSt.LMCvel }

def cloneNBodyState (B : Build R) (st oldSt : NBodyState R) : Option (NBodyState R) := do
  B.assert (0 < oldSt.bodytab.length)
  B.assert (st.bodytab = [] ∧ st.acctab = [])
  return cloned st oldSt

/-- The forward time that the first run of an invocation assumes: the middle of the
window of the best likelihood. -/
def assumedForwardTime (ctx : NBodyCtx R) : R :=
  let ogBestLikeStart := 2.0 * ctx.BestLikeStart / (ctx.BestLikeStart + 1.0)
  if ctx.useBestLike then ctx.timeEvolve / (2.0 - ogBestLikeStart) else ctx.timeEvolve

def prepareRun (flags : StateFlags) (ctx : NBodyCtx R) (st : NBodyState R) : NBodyState R :=
  { st with
    reportProgress := flags.reportProgress
    ignoreResponsive := flags.ignoreResponsive
    use := ⟨ctx.useVelDisp, ctx.useBetaDisp, ctx.useBetaComp, ctx.useVlos, ctx.useDist⟩ }

/-- A run, which is a function of its state, and the histogram file it leaves. -/
abbrev RunSystem (R H : Type) := NBodyState R → NBodyState R × Option (HistogramFile R H)

structure Calibrating (R H : Type) where
  st : NBodyState R
  initialState : NBodyState R
  file : Option (HistogramFile R H)

def nbMainRun (B : Build R) (flags : StateFlags) (ctx : NBodyCtx R) (nbRunSystem : RunSystem R H)
    (calibrationRuns i : ℕ) (s : Calibrating R H) : Option (Calibrating R H) := do
  let st := prepareRun flags ctx s.st
  let initialState ← if 0 < calibrationRuns ∧ i = 0 then cloneNBodyState B emptyNBodyState st
    else some s.initialState
  let (st, file) := nbRunSystem st
  if i < calibrationRuns then
    let forwardTime := st.best.bestLikelihood_time
    let st ← cloneNBodyState B emptyNBodyState initialState
    return ⟨{ st with previousForwardTime := forwardTime }, initialState, file⟩
  else return ⟨st, initialState, file⟩

def nbMainRuns (B : Build R) (flags : StateFlags) (ctx : NBodyCtx R)
    (nbRunSystem : RunSystem R H) (calibrationRuns : ℕ) :
    ℕ → ℕ → Calibrating R H → Option (Calibrating R H)
  | 0, _, s => some s
  | remaining + 1, i, s => do
      let s ← nbMainRun B flags ctx nbRunSystem calibrationRuns i s
      nbMainRuns B flags ctx nbRunSystem calibrationRuns remaining (i + 1) s

/-- What the last run of an invocation leaves, which starts from a new state or a resumed
one. -/
def nbMain (B : Build R) (flags : StateFlags) (ctx : NBodyCtx R) (nbRunSystem : RunSystem R H)
    (calibrationRuns : ℕ) (st : NBodyState R) :
    Option (NBodyState R × Option (HistogramFile R H)) := do
  let st := { st with previousForwardTime := assumedForwardTime ctx }
  let calibrationRuns := if ctx.pot.disk2.type ≠ .orbitingBar then 0 else calibrationRuns
  let s ← nbMainRuns B flags ctx nbRunSystem calibrationRuns (calibrationRuns + 1) 0
    ⟨st, emptyNBodyState, none⟩
  return (s.st, s.file)

structure Reported (R H : Type) where
  searchLikelihood : Option R
  histogramFile : Option (HistogramFile R H)
  forwardTime : R

def reported (W : World R I H) (ctx : NBodyCtx R) (nbf : NBodyFlags)
    (last : NBodyState R × Option (HistogramFile R H)) : Reported R H :=
  let out := (nbReportResults W ctx nbf last.1 last.2).2
  ⟨out.searchLikelihood, out.histogramFile, headerTime ctx last.1.best.bestLikelihood_time⟩

/-! ## The loop as a feedback of forward times -/

/-- The run from `st` with a forward time. -/
def runWith (flags : StateFlags) (ctx : NBodyCtx R) (nbRunSystem : RunSystem R H)
    (st : NBodyState R) (forwardTime : R) : NBodyState R × Option (HistogramFile R H) :=
  nbRunSystem (prepareRun flags ctx { st with previousForwardTime := forwardTime })

def foundTime (last : NBodyState R × Option (HistogramFile R H)) : R :=
  last.1.best.bestLikelihood_time

/-- The forward time that run `i` of an invocation assumes. -/
def forwardTimeOf (flags : StateFlags) (ctx : NBodyCtx R) (nbRunSystem : RunSystem R H)
    (st : NBodyState R) (i : ℕ) : R :=
  feedbackValue (runWith flags ctx nbRunSystem st) foundTime (assumedForwardTime ctx) i

def IgnoresCopying (flags : StateFlags) (ctx : NBodyCtx R) (nbRunSystem : RunSystem R H) : Prop :=
  ∀ st, nbRunSystem (prepareRun flags ctx (cloned emptyNBodyState st)) =
    nbRunSystem (prepareRun flags ctx st)

section
variable {B : Build R} {flags : StateFlags} {ctx : NBodyCtx R} {nbRunSystem : RunSystem R H}
  {st : NBodyState R}

omit [Add R] [Neg R] [Sub R] [Mul R] [Div R] [OfScientific R] [BEq R] [LT R] [DecidableLT R]
  [LE R] [DecidableLE R] [NatCast R] in
theorem cloneNBodyState_eq (nonempty : B.ndebug ∨ 0 < st.bodytab.length) :
    cloneNBodyState B emptyNBodyState st = some (cloned emptyNBodyState st) := by
  have some_ : B.assert (0 < st.bodytab.length) = some () := by
    unfold Build.assert
    obtain debug | bodies := nonempty
    · rw [if_pos (.inl debug)]
    · rw [if_pos (.inr bodies)]
  have empty : B.assert ((emptyNBodyState : NBodyState R).bodytab = [] ∧
      (emptyNBodyState : NBodyState R).acctab = []) = some () := if_pos (.inr ⟨rfl, rfl⟩)
  simp only [cloneNBodyState, some_, empty, Option.bind_eq_bind, Option.bind_some, Option.pure_def]

omit [Add R] [Neg R] [Sub R] [Mul R] [Div R] [OfScientific R] [BEq R] [LT R] [DecidableLT R]
  [LE R] [DecidableLE R] [NatCast R] in
theorem cloned_cloned : cloned emptyNBodyState (cloned emptyNBodyState st) =
    cloned emptyNBodyState st := by
  unfold cloned
  simp only [emptyNBodyState, Option.or_none]

def initialOf (flags : StateFlags) (ctx : NBodyCtx R) (st : NBodyState R) (t₀ : R) :
    NBodyState R :=
  cloned emptyNBodyState (prepareRun flags ctx { st with previousForwardTime := t₀ })

def beforeRun (flags : StateFlags) (ctx : NBodyCtx R) (st : NBodyState R) (t₀ t : R)
    (file : Option (HistogramFile R H)) : Calibrating R H :=
  ⟨{ cloned emptyNBodyState (initialOf flags ctx st t₀) with previousForwardTime := t },
    initialOf flags ctx st t₀, file⟩

omit [Add R] [Neg R] [Sub R] [Mul R] [Div R] [OfScientific R] [BEq R] [LT R] [DecidableLT R]
  [LE R] [DecidableLE R] [NatCast R] in
theorem cloneNBodyState_initial (nonempty : B.ndebug ∨ 0 < st.bodytab.length) (t₀ : R) :
    cloneNBodyState B emptyNBodyState (initialOf flags ctx st t₀) =
      some (cloned emptyNBodyState (initialOf flags ctx st t₀)) :=
  cloneNBodyState_eq nonempty

omit [Add R] [Neg R] [Sub R] [Mul R] [Div R] [OfScientific R] [BEq R] [LT R] [DecidableLT R]
  [LE R] [DecidableLE R] [NatCast R] in
theorem IgnoresCopying.runWith (ignores : IgnoresCopying flags ctx nbRunSystem) (t₀ t : R)
    (file : Option (HistogramFile R H)) :
    nbRunSystem (prepareRun flags ctx (beforeRun flags ctx st t₀ t file).st) =
      runWith flags ctx nbRunSystem st t := by
  unfold beforeRun initialOf
  rw [cloned_cloned]
  exact ignores (prepareRun flags ctx { st with previousForwardTime := t })

omit [Add R] [Neg R] [Sub R] [Mul R] [Div R] [OfScientific R] [BEq R] [LT R] [DecidableLT R]
  [LE R] [DecidableLE R] [NatCast R] in
theorem nbMainRun_first (nonempty : B.ndebug ∨ 0 < st.bodytab.length) (t₀ : R) {n : ℕ}
    (calibrates : 0 < n) : nbMainRun B flags ctx nbRunSystem n 0
      ⟨{ st with previousForwardTime := t₀ }, emptyNBodyState, none⟩ =
    some (beforeRun flags ctx st t₀ (foundTime (NBody.runWith flags ctx nbRunSystem st t₀))
      (NBody.runWith flags ctx nbRunSystem st t₀).2) := by
  have first : cloneNBodyState B emptyNBodyState (prepareRun flags ctx
      { st with previousForwardTime := t₀ }) = some (initialOf flags ctx st t₀) :=
    cloneNBodyState_eq nonempty
  simp only [nbMainRun, calibrates, and_self, if_true, Option.bind_eq_bind, Option.bind_some, first,
    cloneNBodyState_initial nonempty, Option.pure_def]
  rfl

omit [Add R] [Neg R] [Sub R] [Mul R] [Div R] [OfScientific R] [BEq R] [LT R] [DecidableLT R]
  [LE R] [DecidableLE R] [NatCast R] in
theorem nbMainRun_next (ignores : IgnoresCopying flags ctx nbRunSystem)
    (nonempty : B.ndebug ∨ 0 < st.bodytab.length) (t₀ t : R) (file : Option (HistogramFile R H))
    {i n : ℕ} (more : i + 1 < n) :
    nbMainRun B flags ctx nbRunSystem n (i + 1) (beforeRun flags ctx st t₀ t file) =
      some (beforeRun flags ctx st t₀ (foundTime (NBody.runWith flags ctx nbRunSystem st t))
        (NBody.runWith flags ctx nbRunSystem st t).2) := by
  simp only [nbMainRun, Nat.succ_ne_zero, and_false, if_false, Option.bind_eq_bind,
    Option.bind_some, ignores.runWith, more, if_true, Option.pure_def]
  rw [show (beforeRun flags ctx st t₀ t file).initialState = initialOf flags ctx st t₀ from rfl,
    cloneNBodyState_initial nonempty]
  rfl

omit [Add R] [Neg R] [Sub R] [Mul R] [Div R] [OfScientific R] [BEq R] [LT R] [DecidableLT R]
  [LE R] [DecidableLE R] [NatCast R] in
theorem nbMainRuns_later (ignores : IgnoresCopying flags ctx nbRunSystem)
    (nonempty : B.ndebug ∨ 0 < st.bodytab.length) (t₀ t : R)
    (file : Option (HistogramFile R H)) (i n : ℕ) :
    (nbMainRuns B flags ctx nbRunSystem (i + 1 + n) (n + 1) (i + 1)
        (beforeRun flags ctx st t₀ t file)).map (fun s => (s.st, s.file)) =
      some (feedback (NBody.runWith flags ctx nbRunSystem st) foundTime t n) := by
  induction n generalizing t file i with
  | zero =>
      have last : ¬i + 1 < i + 1 + 0 := Nat.lt_irrefl _
      simp only [nbMainRuns, nbMainRun, Nat.succ_ne_zero, and_false, if_false, Option.bind_eq_bind,
        Option.bind_some, ignores.runWith, last, Option.pure_def, Option.map_some, feedback]
  | succ n ih =>
      rw [nbMainRuns, nbMainRun_next ignores nonempty t₀ t file
        (Nat.lt_add_of_pos_right n.succ_pos), feedback_succ,
        show i + 1 + (n + 1) = (i + 1) + 1 + n by omega]
      exact ih _ _ (i + 1)

omit [Neg R] [BEq R] [LT R] [DecidableLT R] [LE R] [DecidableLE R] [NatCast R] in
theorem nbMain_eq (bar : ctx.pot.disk2.type = .orbitingBar)
    (ignores : IgnoresCopying flags ctx nbRunSystem)
    (nonempty : B.ndebug ∨ 0 < st.bodytab.length) (calibrationRuns : ℕ) :
    nbMain B flags ctx nbRunSystem calibrationRuns st =
      some (feedback (NBody.runWith flags ctx nbRunSystem st) foundTime (assumedForwardTime ctx)
        calibrationRuns) := by
  have turns : ¬ctx.pot.disk2.type ≠ .orbitingBar := not_not.mpr bar
  simp only [nbMain, if_neg turns]
  cases calibrationRuns with
  | zero =>
      simp only [nbMainRuns, nbMainRun, Nat.lt_irrefl, false_and, if_false, Option.bind_eq_bind,
        Option.bind_some, Option.pure_def]
      rfl
  | succ n =>
      have later := nbMainRuns_later ignores nonempty (assumedForwardTime ctx)
        (foundTime (NBody.runWith flags ctx nbRunSystem st (assumedForwardTime ctx)))
        (NBody.runWith flags ctx nbRunSystem st (assumedForwardTime ctx)).2 0 n
      rw [show 0 + 1 + n = n + 1 by omega] at later
      rw [nbMainRuns, nbMainRun_first nonempty (assumedForwardTime ctx) n.succ_pos, feedback_succ,
        ← later]
      simp only [Option.bind_eq_bind, Option.bind_some, Option.pure_def, Option.map_eq_bind]
      rfl

end

/-! ## An invocation that is resumed -/

/-- The runs are exact functions of what is copied and of what is resumed: from the state
`again` of a checkpoint in the run with the forward time `t`, that run is completed. -/
structure ExactRuns (flags : StateFlags) (ctx : NBodyCtx R) (st again : NBodyState R) (t : R)
    (nbRunSystem : RunSystem R H) : Prop where
  copying : IgnoresCopying flags ctx nbRunSystem
  resuming : runWith flags ctx nbRunSystem again t = runWith flags ctx nbRunSystem st t

/-- An invocation that starts from `again` reports what the one from `st` does. -/
def SameReport (W : World R I H) (flags : StateFlags) (ctx : NBodyCtx R) (nbf : NBodyFlags)
    (nbRunSystem : RunSystem R H) (calibrationRuns : ℕ) (st again : NBodyState R) : Prop :=
  (nbMain W.B flags ctx nbRunSystem calibrationRuns again).map (reported W ctx nbf) =
    (nbMain W.B flags ctx nbRunSystem calibrationRuns st).map (reported W ctx nbf)

section
variable {F : Type} [Field F] [LinearOrder F] [IsStrictOrderedRing F]
  {W : World F I H} {flags : StateFlags} {ctx : NBodyCtx F} {nbf : NBodyFlags}
  {nbRunSystem : RunSystem F H} {st again : NBodyState F}

def FindsAssumed (flags : StateFlags) (ctx : NBodyCtx F) (nbRunSystem : RunSystem F H)
    (st : NBodyState F) (i : ℕ) : Prop :=
  forwardTimeOf flags ctx nbRunSystem st i = assumedForwardTime ctx ∧
    forwardTimeOf flags ctx nbRunSystem st (i + 1) = forwardTimeOf flags ctx nbRunSystem st i

omit [IsStrictOrderedRing F] in
theorem FindsAssumed.sameReport (bar : ctx.pot.disk2.type = .orbitingBar)
    (bodies : W.B.ndebug ∨ 0 < st.bodytab.length)
    (bodies' : W.B.ndebug ∨ 0 < again.bodytab.length) {i : ℕ} (calibrationRuns : ℕ)
    (finds : FindsAssumed flags ctx nbRunSystem st i)
    (exact_ : ExactRuns flags ctx st again (forwardTimeOf flags ctx nbRunSystem st i)
      nbRunSystem) : SameReport W flags ctx nbf nbRunSystem calibrationRuns st again := by
  obtain ⟨assumed, found⟩ := finds
  have resuming := exact_.resuming
  rw [assumed] at resuming
  have fixed : foundTime (runWith flags ctx nbRunSystem st (assumedForwardTime ctx)) =
      assumedForwardTime ctx := by
    have found := found.trans assumed
    rw [forwardTimeOf, feedbackValue, feedback_eq] at found
    rw [forwardTimeOf] at assumed
    rwa [assumed] at found
  have fixed' : foundTime (runWith flags ctx nbRunSystem again (assumedForwardTime ctx)) =
      assumedForwardTime ctx := by
    rw [resuming]
    exact fixed
  rw [SameReport, nbMain_eq bar exact_.copying bodies, nbMain_eq bar exact_.copying bodies',
    feedback_fixed fixed, feedback_fixed fixed', resuming]

/-- The runs of `nbRunSystem`, except that states at the step `step` lead to `e` unless
they have the forward time `t`. -/
def diverted (nbRunSystem : RunSystem F H) (step : ℕ) (t : F)
    (e : NBodyState F × Option (HistogramFile F H)) : RunSystem F H := fun st =>
  if st.step = step ∧ st.previousForwardTime ≠ t then e else nbRunSystem st

omit [Field F] [IsStrictOrderedRing F] in
theorem runWith_diverted {step : ℕ} {t s : F} {e : NBodyState F × Option (HistogramFile F H)} :
    runWith flags ctx (diverted nbRunSystem step t e) st s =
      if st.step = step ∧ s ≠ t then e else runWith flags ctx nbRunSystem st s := rfl

omit [IsStrictOrderedRing F] in
theorem ExactRuns.diverted {t : F} {e : NBodyState F × Option (HistogramFile F H)}
    (exact_ : ExactRuns flags ctx st again t nbRunSystem) (later : st.step < again.step) :
    ExactRuns flags ctx st again t (diverted nbRunSystem again.step t e) := by
  refine ⟨fun s => ?_, ?_⟩
  · unfold NBody.diverted
    rw [exact_.copying s]
    rfl
  · rw [runWith_diverted, runWith_diverted, if_neg fun h => h.2 rfl,
      if_neg fun h => Nat.ne_of_lt later h.1]
    exact exact_.resuming

theorem exists_headerTime_ne (ctx : NBodyCtx F) (t u : F) :
    ∃ x, x ≠ t ∧ headerTime ctx x ≠ u := by
  obtain ⟨x, fresh⟩ := Infinite.exists_notMem_finset ({t, u, 0.0} : Finset F)
  simp only [Finset.mem_insert, Finset.mem_singleton, not_or] at fresh
  obtain ⟨away, differs, nonzero⟩ := fresh
  refine ⟨x, away, ?_⟩
  rw [headerTime, if_neg fun zero => nonzero (eq_of_beq zero)]
  exact differs

omit [LinearOrder F] [IsStrictOrderedRing F] in
theorem FindsAssumed.congr {nbRunSystem' : RunSystem F H} {n i : ℕ} (within : i ≤ n)
    (same : ∀ j ≤ n, runWith flags ctx nbRunSystem' st (forwardTimeOf flags ctx nbRunSystem st j) =
      runWith flags ctx nbRunSystem st (forwardTimeOf flags ctx nbRunSystem st j))
    (finds : FindsAssumed flags ctx nbRunSystem st i) :
    forwardTimeOf flags ctx nbRunSystem' st i = forwardTimeOf flags ctx nbRunSystem st i ∧
      FindsAssumed flags ctx nbRunSystem' st i := by
  have times : ∀ j ≤ n + 1, forwardTimeOf flags ctx nbRunSystem' st j =
      forwardTimeOf flags ctx nbRunSystem st j := fun j le =>
    feedbackValue_congr fun k lt => same k (by omega)
  refine ⟨times i (by omega), ?_, ?_⟩
  · rw [times i (by omega)]
    exact finds.1
  · rw [times i (by omega), times (i + 1) (by omega)]
    exact finds.2

omit [IsStrictOrderedRing F] in
theorem feedback_diverted {n i : ℕ} {e : NBodyState F × Option (HistogramFile F H)}
    (calibrates : 0 < n) (other : ¬FindsAssumed flags ctx nbRunSystem st i)
    (away : foundTime e ≠ forwardTimeOf flags ctx nbRunSystem st i)
    (resuming : runWith flags ctx nbRunSystem again (forwardTimeOf flags ctx nbRunSystem st i) =
      runWith flags ctx nbRunSystem st (forwardTimeOf flags ctx nbRunSystem st i)) :
    feedback (runWith flags ctx (diverted nbRunSystem again.step
      (forwardTimeOf flags ctx nbRunSystem st i) e) again) foundTime (assumedForwardTime ctx) n =
      e := by
  have rest : ∀ s, s ≠ forwardTimeOf flags ctx nbRunSystem st i →
      runWith flags ctx (diverted nbRunSystem again.step
        (forwardTimeOf flags ctx nbRunSystem st i) e) again s = e := fun s differs => by
    rw [runWith_diverted]
    exact if_pos ⟨rfl, differs⟩
  by_cases assumed : assumedForwardTime ctx = forwardTimeOf flags ctx nbRunSystem st i
  · obtain ⟨m, rfl⟩ := Nat.exists_eq_succ_of_ne_zero calibrates.ne'
    rw [feedback_succ]
    refine feedback_absorbed rest away ?_ m
    rw [assumed, runWith_diverted, if_neg fun h => h.2 rfl, resuming]
    intro found
    refine other ⟨assumed.symm, ?_⟩
    rw [← found]
    exact congrArg foundTime (feedback_eq _ _ _ i)
  · exact feedback_absorbed rest away assumed n

/-- Whatever the runs do apart from those of the invocation itself, an invocation that
is resumed from a checkpoint in run `i` reports what the uninterrupted one does if and
only if that run was given the forward time that is assumed at the start and finds it
again. -/
theorem nbMain_resume_iff (W : World F I H) (flags : StateFlags) (ctx : NBodyCtx F)
    (nbf : NBodyFlags) (nbRunSystem : RunSystem F H) (st c new : NBodyState F)
    (bar : ctx.pot.disk2.type = .orbitingBar) (bodies : W.B.ndebug ∨ 0 < st.bodytab.length)
    (bodies' : W.B.ndebug ∨ 0 < c.bodytab.length) (later : st.step < c.step)
    (calibrationRuns i : ℕ) (calibrates : 0 < calibrationRuns) (within : i ≤ calibrationRuns)
    (exact_ : ExactRuns flags ctx st (resumed ctx (assumedForwardTime ctx) new c)
      (forwardTimeOf flags ctx nbRunSystem st i) nbRunSystem) :
    (∀ nbRunSystem' : RunSystem F H,
      ExactRuns flags ctx st (resumed ctx (assumedForwardTime ctx) new c)
        (forwardTimeOf flags ctx nbRunSystem st i) nbRunSystem' →
      (∀ j ≤ calibrationRuns,
        runWith flags ctx nbRunSystem' st (forwardTimeOf flags ctx nbRunSystem st j) =
          runWith flags ctx nbRunSystem st (forwardTimeOf flags ctx nbRunSystem st j)) →
      SameReport W flags ctx nbf nbRunSystem' calibrationRuns st
        (resumed ctx (assumedForwardTime ctx) new c)) ↔
      forwardTimeOf flags ctx nbRunSystem st i = assumedForwardTime ctx ∧
        forwardTimeOf flags ctx nbRunSystem st (i + 1) =
          forwardTimeOf flags ctx nbRunSystem st i := by
  set again := resumed ctx (assumedForwardTime ctx) new c with again_eq
  have later : st.step < again.step := later
  have bodies' : W.B.ndebug ∨ 0 < again.bodytab.length := bodies'
  constructor
  · intro all
    by_contra other
    obtain ⟨x, away, differs⟩ := exists_headerTime_ne ctx
      (forwardTimeOf flags ctx nbRunSystem st i)
      (reported W ctx nbf (feedback (runWith flags ctx nbRunSystem st) foundTime
        (assumedForwardTime ctx) calibrationRuns)).forwardTime
    let e : NBodyState F × Option (HistogramFile F H) :=
      ({ st with best := { st.best with bestLikelihood_time := x } }, none)
    have diverts := exact_.diverted (e := e) later
    have agrees : ∀ t, runWith flags ctx (diverted nbRunSystem again.step
        (forwardTimeOf flags ctx nbRunSystem st i) e) st t =
        runWith flags ctx nbRunSystem st t := fun t => by
      rw [runWith_diverted, if_neg fun h => Nat.ne_of_lt later h.1]
    have same := all _ diverts fun j _ => agrees _
    rw [SameReport, nbMain_eq bar diverts.copying bodies', nbMain_eq bar diverts.copying bodies,
      feedback_diverted (e := e) calibrates other away exact_.resuming,
      feedback_congr (g := runWith flags ctx (diverted _ _ _ _) st) fun j _ => agrees _,
      Option.map_some, Option.map_some, Option.some.injEq] at same
    exact differs (congrArg Reported.forwardTime same)
  · intro finds nbRunSystem' exact' agrees
    obtain ⟨time, finds'⟩ := FindsAssumed.congr within agrees finds
    rw [← time] at exact'
    exact finds'.sameReport bar bodies bodies' calibrationRuns exact'

end

/-! ## A body that the clock of the bar moves -/

def driftMoved (nStep : ℕ) (st : NBodyState ℚ) : List (Body ℚ) :=
  let move := fun (bodies : List (Body ℚ)) (k : ℕ) => bodies.map fun b =>
    { b with pos := { b.pos with x := b.pos.x + (k - st.previousForwardTime) } }
  (List.range' st.step (nStep - st.step)).foldl move st.bodytab

def driftEnd (nStep : ℕ) (bodies : List (Body ℚ)) :
    NBodyState ℚ × Option (HistogramFile ℚ (List (Body ℚ))) :=
  ({ emptyNBodyState with
      bodytab := bodies
      step := nStep
      best := { (emptyNBodyState : NBodyState ℚ).best with
        bestLikelihood := DEFAULT_WORST_CASE, bestLikelihood_time := nStep } }, none)

def driftRun (nStep : ℕ) : RunSystem ℚ (List (Body ℚ)) := fun st =>
  driftEnd nStep (driftMoved nStep st)

/-- A world that compares the places of the bodies. -/
def driftWorld : World ℚ Unit (List (Body ℚ)) where
  B := rowBuild
  L := barLibm
  K := barWorld.K
  fuel := 0
  nbGetLikelihoodInfo _ := some ()
  nbCreateHistogram _ _ bodies _ _ := some bodies
  nbReadHistogram _ _ := some []
  nbSystemLikelihood _ _ _ histogram _ :=
    ⟨(histogram.map (·.pos.x)).sum, 0, 0, 0, 0, 0, 0, 0⟩

def driftCtx : NBodyCtx ℚ := { barCtx with useBestLike := true, BestLikeStart := 0 }

/-- The state before the first step and that of the checkpoint after it. -/
def driftState (x : ℚ) (step : ℕ) : NBodyState ℚ :=
  { quietState [{ pos := ⟨x, 0, 0⟩, mass := 1, vel := 0 }] with step }

def driftAgain : NBodyState ℚ :=
  resumed driftCtx (assumedForwardTime driftCtx) (quietState []) (driftState (-1) 1)

theorem driftRun_exact : ExactRuns {} driftCtx (driftState 0 0) driftAgain
    (forwardTimeOf {} driftCtx (driftRun 2) (driftState 0 0) 0) (driftRun 2) where
  copying _ := rfl
  resuming := by
    have moved : driftMoved 2 (prepareRun {} driftCtx { driftAgain with
          previousForwardTime := assumedForwardTime driftCtx }) =
        driftMoved 2 (prepareRun {} driftCtx { driftState 0 0 with
          previousForwardTime := assumedForwardTime driftCtx }) := by decide +kernel
    exact congrArg (driftEnd 2) moved

theorem nbMain_resume_iff_drift : (∀ nbRunSystem' : RunSystem ℚ (List (Body ℚ)),
      ExactRuns {} driftCtx (driftState 0 0) driftAgain
        (forwardTimeOf {} driftCtx (driftRun 2) (driftState 0 0) 0) nbRunSystem' →
      (∀ j ≤ 1, runWith {} driftCtx nbRunSystem' (driftState 0 0)
          (forwardTimeOf {} driftCtx (driftRun 2) (driftState 0 0) j) =
        runWith {} driftCtx (driftRun 2) (driftState 0 0)
          (forwardTimeOf {} driftCtx (driftRun 2) (driftState 0 0) j)) →
      SameReport driftWorld {} driftCtx reportFlags nbRunSystem' 1 (driftState 0 0) driftAgain) ↔
    forwardTimeOf {} driftCtx (driftRun 2) (driftState 0 0) 0 = assumedForwardTime driftCtx ∧
      forwardTimeOf {} driftCtx (driftRun 2) (driftState 0 0) (0 + 1) =
        forwardTimeOf {} driftCtx (driftRun 2) (driftState 0 0) 0 :=
  nbMain_resume_iff driftWorld {} driftCtx reportFlags (driftRun 2) (driftState 0 0)
    (driftState (-1) 1) (quietState []) rfl (by decide) (by decide) (by decide) 1 0 (by decide)
    (by decide) driftRun_exact

/-- The second run of the resumed invocation ends elsewhere. -/
theorem nbMain_resume_differs : ExactRuns {} driftCtx (driftState 0 0) driftAgain
      (forwardTimeOf {} driftCtx (driftRun 2) (driftState 0 0) 0) (driftRun 2) ∧
    driftCtx.pot.disk2.type = .orbitingBar ∧
    ¬SameReport driftWorld {} driftCtx reportFlags (driftRun 2) 1 (driftState 0 0) driftAgain := by
  refine ⟨driftRun_exact, rfl, fun same => ?_⟩
  have likelihoods := congrArg (Option.map Reported.searchLikelihood) same
  revert likelihoods
  decide +kernel

end MilkyWay.NBody
