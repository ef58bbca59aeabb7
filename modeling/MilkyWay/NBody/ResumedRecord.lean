import MilkyWay.NBody.Resume

/-! The record of the best likelihood after a run is resumed. A resumed run starts its
record anew, so `nbRunSystemPlain_resume_best` asks that the best step comes after the
checkpoint. -/

namespace MilkyWay.NBody

open Foundation

section
variable {R I H : Type} [Zero R] [Add R] [Neg R] [Sub R] [Mul R] [Div R] [OfScientific R] [BEq R]
  [LT R] [DecidableLT R] [LE R] [DecidableLE R] [NatCast R]
  {W : World R I H} {S S' : Session R} {ctx : NBodyCtx R} {nbf : NBodyFlags}

/-! ## Points of a session -/

theorem Passed.turns {start : BitVec 32 × NBodyState R} {hist : List (Evaluation R)}
    {x : (BitVec 32 × NBodyState R) ⊕ (BitVec 32 × NBodyState R)}
    (passed : Passed W S ctx nbf start hist x) :
    x.elim ((nbRunTurn W S ctx nbf).Reaches start)
      (fun r => ∃ n, (nbRunTurn W S ctx nbf).run n start = some r) := by
  have next : ∀ p y, (nbRunTurn W S ctx nbf).Reaches start p → nbRunTurn W S ctx nbf p = some y →
      y.elim ((nbRunTurn W S ctx nbf).Reaches start)
        (fun r => ∃ n, (nbRunTurn W S ctx nbf).run n start = some r) := by
    intro p y reaches turn
    cases y with
    | inl p' => exact reaches.tail turn
    | inr r => exact Turn.run_from reaches (Turn.run_ends turn 0)
  induction passed with
  | start => exact .refl
  | step hist p acc_i acc_i1 rc s x before more shift stepped turn ih => exact next p x ih turn
  | stop hist p x before ended turn ih => exact next p x ih turn

theorem Passed.trans {start p : BitVec 32 × NBodyState R} {hist hist' : List (Evaluation R)}
    {x : (BitVec 32 × NBodyState R) ⊕ (BitVec 32 × NBodyState R)}
    (before : Passed W S ctx nbf start hist (.inl p)) (after : Passed W S ctx nbf p hist' x) :
    Passed W S ctx nbf start (hist ++ hist') x := by
  induction after with
  | start =>
      rw [List.append_nil]
      exact before
  | step hist' q acc_i acc_i1 rc s x _ more shift stepped turn ih =>
      rw [← List.append_assoc]
      exact ih.step _ q acc_i acc_i1 rc s x more shift stepped turn
  | stop hist' q x _ ended turn ih => exact ih.stop _ q x ended turn

def passedAfter (W : World R I H) (S : Session R) (ctx : NBodyCtx R) (nbf : NBodyFlags)
    (start : BitVec 32 × NBodyState R) : ℕ →
    Option (List (Evaluation R) × ((BitVec 32 × NBodyState R) ⊕ (BitVec 32 × NBodyState R)))
  | 0 => some ([], .inl start)
  | n + 1 => do
      let (hist, x) ← passedAfter W S ctx nbf start n
      let p ← x.getLeft?
      let y ← nbRunTurn W S ctx nbf p
      if p.2.step < ctx.nStep then
        let (acc_i, acc_i1) ← shiftAt ctx p.2
        let (_, s) ← nbStepSystemPlain W ctx p.2 acc_i acc_i1
        return (hist ++ (evaluationAt W ctx nbf s).toList, y)
      else return (hist, y)

theorem passed_passedAfter {start : BitVec 32 × NBodyState R} {hist : List (Evaluation R)}
    {x : (BitVec 32 × NBodyState R) ⊕ (BitVec 32 × NBodyState R)} {n : ℕ}
    (run : passedAfter W S ctx nbf start n = some (hist, x)) :
    Passed W S ctx nbf start hist x := by
  induction n generalizing hist x with
  | zero =>
      cases run
      exact .start
  | succ n ih =>
      simp only [passedAfter, Option.bind_eq_bind, Option.bind_eq_some_iff,
        Sum.getLeft?_eq_some_iff, Prod.exists] at run
      obtain ⟨hist', x', before, rc, st, rfl, y, turn, run⟩ := run
      split at run
      · rename_i more
        simp only [Option.bind_eq_some_iff, Option.pure_def, Option.some.injEq, Prod.mk.injEq,
          Prod.exists] at run
        obtain ⟨acc_i, acc_i1, shift, stepped, s, step, rfl, rfl⟩ := run
        exact (ih before).step hist' (rc, st) acc_i acc_i1 stepped s y more shift step turn
      · rename_i ended
        rw [Option.pure_def, Option.some.injEq, Prod.mk.injEq] at run
        obtain ⟨rfl, rfl⟩ := run
        exact (ih before).stop hist' (rc, st) y ended turn

theorem nbRunTurn_use {p : BitVec 32 × NBodyState R}
    {x : (BitVec 32 × NBodyState R) ⊕ (BitVec 32 × NBodyState R)}
    (run : nbRunTurn W S ctx nbf p = some x) : (stateAt x).use = p.2.use := by
  obtain ⟨rc, st⟩ := p
  obtain ⟨-, rfl⟩ | ⟨-, _, _, stepped, s, -, step, rest⟩ := nbRunTurn_cases run
  · rfl
  · have kept := (nbStepSystemPlain_frame step).use
    have observed : (observe W ctx nbf s).use = s.use := by rw [observe_frame]
    obtain ⟨-, rfl⟩ | ⟨-, written, t, made, rfl⟩ := rest
    · exact observed.trans kept
    · have last : t.use = st.use := by
        rw [nbCheckpoint_frame made]
        exact observed.trans kept
      split <;> exact last

omit [Zero R] [Add R] [Neg R] [Sub R] [Mul R] [OfScientific R] [BEq R] [LT R] [DecidableLT R] in
theorem evaluationAt_congr (W : World R I H) (nbf : NBodyFlags) {s t : NBodyState R}
    (same : SameMotion ctx s t) (use : t.use = s.use) :
    evaluationAt W ctx nbf t = evaluationAt W ctx nbf s := by
  unfold evaluationAt inWindow likelihoodOf
  rw [same.step, same.bodytab, use]

theorem Passed.same {p q : BitVec 32 × NBodyState R} {hist : List (Evaluation R)}
    {x : (BitVec 32 × NBodyState R) ⊕ (BitVec 32 × NBodyState R)} (loops : SameLoop ctx p q)
    (use : q.2.use = p.2.use) (rests : ForceRests ctx) (writes : ∀ k, S'.fails k = S.fails k)
    (passed : Passed W S ctx nbf p hist x) :
    ∃ y, Passed W S' ctx nbf q hist y ∧ Sum.LiftRel (SameLoop ctx) (SameResult ctx) x y ∧
      (stateAt y).use = (stateAt x).use := by
  induction passed with
  | start => exact ⟨.inl q, .start, .inl loops, use⟩
  | step hist p' acc_i acc_i1 rc s x before more shift stepped turn ih =>
      obtain ⟨y, passed, lifted, use⟩ := ih
      cases lifted with
      | @inl _ q' same =>
          obtain ⟨z, turn', lifted'⟩ := same.turn rests writes turn
          obtain ⟨s', stepped', motion⟩ := same.2.nbStepSystemPlain rests stepped
          have more' : q'.2.step < ctx.nStep := same.2.step ▸ more
          have used : s'.use = s.use :=
            (nbStepSystemPlain_frame stepped').use.trans
              (use.trans (nbStepSystemPlain_frame stepped).use.symm)
          refine ⟨z, ?_, lifted', ?_⟩
          · rw [← evaluationAt_congr W nbf motion used]
            exact passed.step hist q' acc_i acc_i1 rc s' z more' (same.2.shiftAt.trans shift)
              stepped' turn'
          · rw [nbRunTurn_use turn', nbRunTurn_use turn]
            exact use
  | stop hist p' x before ended turn ih =>
      obtain ⟨y, passed, lifted, use⟩ := ih
      cases lifted with
      | @inl _ q' same =>
          obtain ⟨z, turn', lifted'⟩ := same.turn rests writes turn
          refine ⟨z, passed.stop hist q' z (same.2.step ▸ ended) turn', lifted', ?_⟩
          rw [nbRunTurn_use turn', nbRunTurn_use turn]
          exact use

theorem nbRunStart_best {st start : NBodyState R} {rc : NBodyStatus}
    (begins : nbRunStart W S ctx st = some (rc, start))
    (notFatal : nbStatusIsFatal rc.bits = false) : start.best = (resetBest st).best := by
  simp only [nbRunStart, Option.bind_eq_bind, Option.bind_eq_some_iff, Option.pure_def,
    Option.some.injEq, Prod.mk.injEq, Prod.exists] at begins
  obtain ⟨rc', s, force, rfl, rfl⟩ := begins
  rw [notFatal, if_neg Bool.false_ne_true, (nbGravMap_frame force).1]
  unfold fetchLMC
  split <;> rfl

theorem Carried.passed {origin : NBodyState R} {start p : BitVec 32 × NBodyState R}
    {hist : List (Evaluation R)} (carried : Carried W ctx origin start.2)
    (passed : Passed W S ctx nbf start hist (.inl p)) (progress : start.2.step < p.2.step) :
    Carried W ctx origin p.2 ∧ nbStatusIsFatal p.1 = false ∧
      (ctx.LMC = true → entries p.2.shiftByLMC ≠ 0) := by
  obtain rfl | ⟨q, reaches, next⟩ := passed.turns.cases_tail
  · exact absurd progress (Nat.lt_irrefl _)
  · have invariant : Carried W ctx origin q.2 :=
      Turn.Reaches.invariant (fun p => Carried W ctx origin p.2)
        (fun _ _ carried next => (carried.goesOn next).1) carried reaches
    exact invariant.goesOn next

end

/-! ## The record of a resumed run -/

section
variable {F I H : Type} [Zero F] [Neg F] [OfScientific F] [LinearOrder F] [Mul (Extended F)]

/-- The best step comes after the first part of a run. -/
def BestAfter (hist₁ hist₂ : List (Evaluation (Extended F))) : Prop :=
  ∃ e ∈ hist₂, e.value < mw_abs DEFAULT_WORST_CASE ∧ ∀ a ∈ hist₁, e.value < a.value

/-- No step is better than the worst case. -/
def NoneBetter (hist : List (Evaluation (Extended F))) : Prop :=
  ∀ e ∈ hist, ¬e.value < mw_abs DEFAULT_WORST_CASE

theorem BestAfter.improvements {hist₁ hist₂ : List (Evaluation (Extended F))}
    (after : BestAfter hist₁ hist₂) : ∃ e, (NBody.improvements hist₂).getLast? = some e ∧
      (NBody.improvements (hist₁ ++ hist₂)).getLast? = some e := by
  obtain ⟨a, ha, worst, earlier⟩ := after
  have below := lt_minimum Evaluation.value worst earlier
  obtain ⟨e, last⟩ := exists_lastRecord Evaluation.value ha below
  have bound := minimum_le Evaluation.value (mw_abs (DEFAULT_WORST_CASE : Extended F)) hist₁
  refine ⟨e, ?_, ?_⟩
  · rw [NBody.improvements, lastRecord_bound Evaluation.value bound (fun b _ notBelow =>
      Extended.eq_or_lt_of_not_lt b.value_ne_nan (minimum_ne_nan hist₁) notBelow) ha below]
    exact last
  · rw [NBody.improvements, records_append, List.getLast?_append, last, Option.some_or]

theorem NoneBetter.improvements {hist : List (Evaluation (Extended F))} (none : NoneBetter hist) :
    NBody.improvements hist = [] := records_eq_nil Evaluation.value none

variable [Add (Extended F)] [Sub (Extended F)] [Div (Extended F)] [NatCast (Extended F)]

/-- Where no force depends on the time, a run that is resumed from a checkpoint before the
best step, or that has no best step, ends with the record of the run that is not. -/
theorem nbRunSystemPlain_resume_best (doubling : ∀ r : Extended F, 0 < r → 0 < r * 2.0)
    (W : World (Extended F) I H) (L : Layout (Extended F)) (S S' : Session (Extended F))
    (ctx : NBodyCtx (Extended F)) (nbf : NBodyFlags)
    (st new start c fin : NBodyState (Extended F)) (time time' : Extended F) (rc₀ : NBodyStatus)
    (rc rck : BitVec 32) (hist₁ hist₂ : List (Evaluation (Extended F))) (tailAt : ℕ)
    (previous file : Bytes) (best : st.bestLikelihoodBodyTab.length = st.bodytab.length)
    (fresh : Fresh new) (noError : new.potentialEvalError = false)
    (usesCL : new.usesCL = st.usesCL)
    (begins : nbRunStart W S ctx (nbSetForRun ctx time st) = some (rc₀, start))
    (goesOn : nbStatusIsFatal rc₀.bits = false)
    (before : Passed W S ctx nbf (rc₀.bits, start) hist₁ (.inl (rck, c)))
    (progress : start.step < c.step)
    (after : Passed W S ctx nbf (rck, c) hist₂ (.inr (rc, fin)))
    (written : nbWriteCheckpoint L ctx c previous = some (file, tailAt))
    (fits : Fits L ctx c) (storable : Storable W.B c) (writes : ∀ k, S'.fails k = S.fails k)
    (rests : ForceRests ctx)
    (clock : ctx.LMC = true → ctx.pot.disk2.type ≠ .orbitingBar ∨ time' = time)
    (later : BestAfter hist₁ hist₂ ∨
      NoneBetter (hist₁ ++ hist₂) ∧ (resetBest new).best = (resetBest st).best) :
    ∃ again rc' fin', nbResume W.B L new time' file = some (ctx, again) ∧
      nbRunSystemPlain W S' ctx nbf again = some (rc', fin') ∧ fin'.best = fin.best := by
  have first : Carried W ctx (nbSetForRun ctx time st) start := .start best begins goesOn
  obtain ⟨carried, going, shifted⟩ := Carried.passed (p := (rck, c)) first before progress
  obtain ⟨rc₁, begins', notFatal, motion⟩ :=
    carried.resume new doubling S' shifted noError rests clock
  have read := nbResume_written time' fits carried.best fresh
    (usesCL.trans carried.usesCL.symm) storable written
  have loops : SameLoop ctx (rck, c) (rc₁.bits, resumedStart ctx time' new c) :=
    ⟨notFatal.trans going.symm, motion⟩
  obtain ⟨y, passed, lifted, -⟩ := after.same loops carried.use.symm rests writes
  cases lifted with
  | @inr _ r' same =>
      obtain ⟨rc', fin'⟩ := r'
      obtain ⟨n, run⟩ := passed.turns
      refine ⟨_, rc', fin', read, ?_, ?_⟩
      · rw [nbRunSystemPlain_loop begins' notFatal]
        exact nbRunTurn_enough run
      · have startBest := nbRunStart_best begins goesOn
        have worst : start.best.bestLikelihood = DEFAULT_WORST_CASE := by
          rw [startBest]
          rfl
        have whole := (before.trans after).recordOf worst
        have again : RecordOf ctx nbf (resumedStart ctx time' new c) _ _ := passed.recordOf rfl
        have best' : fin'.best = _ := again.best
        have best : fin.best = _ := whole.best
        rw [best', best]
        obtain after | ⟨none, same⟩ := later
        · obtain ⟨e, last', last⟩ := after.improvements
          rw [last', last]
          rfl
        · have none' : NoneBetter hist₂ := fun e he => none e (List.mem_append_right hist₁ he)
          rw [none.improvements, none'.improvements]
          exact same.trans startBest.symm

end

/-! ## The run of a body at rest -/

section
local instance : Add (Extended ℚ) := ⟨Extended.map₂ (· + ·)⟩
local instance : Sub (Extended ℚ) := ⟨Extended.map₂ (· - ·)⟩
local instance : Mul (Extended ℚ) := ⟨Extended.times⟩
local instance : Div (Extended ℚ) := ⟨Extended.map₂ (· / ·)⟩
local instance : NatCast (Extended ℚ) := ⟨fun n => .fin n⟩

local instance (hist₁ hist₂ : List (Evaluation (Extended ℚ))) :
    Decidable (BestAfter hist₁ hist₂) :=
  inferInstanceAs (Decidable (∃ e ∈ hist₂, _ ∧ ∀ a ∈ hist₁, _))

def restingState : NBodyState (Extended ℚ) := quietState [restingBody]

def wildWorld : World (Extended ℚ) Unit Unit := quietWorld (Extended.map ratSqrt) wildLikelihood

/-- The start of a run of four steps, the point after three of them and the end, with the
evaluations between them. -/
def wildRun : Option ((NBodyStatus × NBodyState (Extended ℚ)) × List (Evaluation (Extended ℚ)) ×
    (BitVec 32 × NBodyState (Extended ℚ)) × List (Evaluation (Extended ℚ)) ×
    (BitVec 32 × NBodyState (Extended ℚ))) := do
  let (rc₀, start) ← nbRunStart wildWorld quietSession (quietCtx 4)
    (nbSetForRun (quietCtx 4) (.fin 2) restingState)
  let (hist₁, x) ← passedAfter wildWorld quietSession (quietCtx 4) histogramFlags
    (rc₀.bits, start) 3
  let p ← x.getLeft?
  let (hist₂, y) ← passedAfter wildWorld quietSession (quietCtx 4) histogramFlags p 2
  let r ← y.getRight?
  return ((rc₀, start), hist₁, p, hist₂, r)

theorem nbRunSystemPlain_resume_best_wild :
    ∃ start hist₁ rck c hist₂ rc fin file again rc' fin',
      Passed wildWorld quietSession (quietCtx 4) histogramFlags start hist₁ (.inl (rck, c)) ∧
      Passed wildWorld quietSession (quietCtx 4) histogramFlags (rck, c) hist₂
        (.inr (rc, fin)) ∧
      (nbWriteCheckpoint (layoutOf (quietCtx 4) c) (quietCtx 4) c []).map Prod.fst = some file ∧
      nbResume wildWorld.B (layoutOf (quietCtx 4) c) (quietState []) (.fin 2) file =
        some (quietCtx 4, again) ∧
      nbRunSystemPlain wildWorld quietSession (quietCtx 4) histogramFlags again =
        some (rc', fin') ∧ fin'.best = fin.best := by
  have facts : wildRun.map (fun r => decide (nbStatusIsFatal r.1.1.bits = false ∧
      r.1.2.step < r.2.2.1.2.step ∧ BestAfter r.2.1 r.2.2.2.1 ∧ Small r.2.2.1.2)) = some true := by
    decide +kernel
  obtain ⟨⟨⟨_, _⟩, _, ⟨_, _⟩, _, ⟨_, _⟩⟩, run, facts⟩ := Option.map_eq_some_iff.mp facts
  obtain ⟨goesOn, progress, later, small⟩ := of_decide_eq_true facts
  simp only [wildRun, Option.bind_eq_bind, Option.bind_eq_some_iff, Option.pure_def,
    Option.some.injEq, Prod.mk.injEq, Prod.exists, Sum.getLeft?_eq_some_iff,
    Sum.getRight?_eq_some_iff] at run
  obtain ⟨rc₀, start, begins, hist₁, _, before, rck, c, rfl, hist₂, _, after, rc, fin, rfl,
    ⟨rfl, rfl⟩, rfl, ⟨rfl, rfl⟩, rfl, rfl, rfl⟩ := run
  have before := passed_passedAfter before
  have after := passed_passedAfter after
  obtain ⟨file, tailAt, written⟩ := Storable.writes (layoutOf (quietCtx 4) c) (quietCtx 4) []
    small.2.2.1 (small.storable (B := wildWorld.B))
  obtain ⟨again, rc', fin', read, run, same⟩ := nbRunSystemPlain_resume_best
    (fun r h => Extended.times_pos h (by norm_num)) wildWorld (layoutOf (quietCtx 4) c) quietSession
    quietSession (quietCtx 4) histogramFlags restingState (quietState []) start c fin (.fin 2)
    (.fin 2) rc₀ rc rck hist₁ hist₂ tailAt [] file rfl quietState_fresh rfl rfl begins goesOn
    before progress after written (layoutOf_fits (quietCtx 4) c) small.storable (fun _ => rfl)
    (.inl nofun) nofun (.inl later)
  exact ⟨_, hist₁, rck, c, hist₂, rc, fin, file, again, rc', fin', before, after,
    by rw [written]; rfl, read, run, same⟩

/-- A run that is resumed after its best step forgets it. -/
theorem nbRunSystemPlain_resume_best_lost :
    ∃ file again rc rck rc' c fin fin',
      nbRunSystemPlain wildWorld quietSession (quietCtx 3) histogramFlags
        (nbSetForRun (quietCtx 3) (.fin 2) restingState) = some (rc, fin) ∧
      nbRunUpTo wildWorld quietSession (quietCtx 3) histogramFlags 2
        (nbSetForRun (quietCtx 3) (.fin 2) restingState) = some (rck, c) ∧
      (nbWriteCheckpoint (layoutOf (quietCtx 3) c) (quietCtx 3) c []).map Prod.fst = some file ∧
      nbResume wildWorld.B (layoutOf (quietCtx 3) c) (quietState []) (.fin 2) file =
        some (quietCtx 3, again) ∧
      nbRunSystemPlain wildWorld quietSession (quietCtx 3) histogramFlags again =
        some (rc', fin') ∧
      fin.best.bestLikelihood = .fin (-3) ∧ fin'.best.bestLikelihood = DEFAULT_WORST_CASE :=
  exists_bothEnds (W := wildWorld) (P := fun fin fin' => fin.best.bestLikelihood = .fin (-3) ∧
    fin'.best.bestLikelihood = DEFAULT_WORST_CASE) (by decide +kernel)

end

end MilkyWay.NBody
