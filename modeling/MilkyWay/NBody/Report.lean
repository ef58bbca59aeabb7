import MilkyWay.NBody.ResumedRecord

/-! The report at the end of a run. It compares the likelihood of the end state with the
best one of the steps and prints the better. The bodies are written before that
comparison and the time of the histogram is always that of the record. -/

namespace MilkyWay.NBody

open Foundation

variable {R I H : Type} [Zero R] [Add R] [Neg R] [Sub R] [Mul R] [Div R] [OfScientific R] [BEq R]
  [LT R] [DecidableLT R] [LE R] [DecidableLE R] [NatCast R]

/-- What a histogram file says of a run, apart from its settings. -/
structure HistogramFile (R H : Type) where
  forwardTime : R
  bestLikelihood : R
  histogram : H

def headerTime (ctx : NBodyCtx R) (bestLikelihood_time : R) : R :=
  if bestLikelihood_time == 0.0 then ctx.timeEvolve else bestLikelihood_time

def nbWriteHistogram (ctx : NBodyCtx R) (st : NBodyState R) (histogram : H) :
    HistogramFile R H where
  forwardTime := headerTime ctx st.best.bestLikelihood_time
  bestLikelihood := st.best.bestLikelihood
  histogram

def writeObserved (W : World R I H) (ctx : NBodyCtx R) (nbf : NBodyFlags) (st : NBodyState R)
    (file : Option (HistogramFile R H)) : Option (HistogramFile R H) :=
  if inWindow ctx st then
    match likelihoodOf W ctx nbf st with
    | none => file
    | some l =>
        if mw_abs (clampLikelihood l.likelihood) < mw_abs st.best.bestLikelihood ∧
            nbf.histoutFileName.isSome then do
          let hp ← W.nbGetLikelihoodInfo nbf
          let histogram ← W.nbCreateHistogram st.step ctx st.bodytab st.use hp
          return nbWriteHistogram ctx (get_likelihood W ctx nbf st) histogram
        else file
  else file

/-! ## The report -/

structure Output (R H : Type) where
  bodies : Option (List (Body R)) := none
  histogramFile : Option (HistogramFile R H)
  printedHistogram : Option H := none
  searchLikelihood : Option R := none
  components : List (String × R) := []

def NBODY_LIKELIHOOD_ERROR : BitVec 32 := 1 <<< 15

/-- The bodies that are written: the saved ones, unless there are none better than the
worst case. -/
def outputTab (ctx : NBodyCtx R) (st : NBodyState R) : List (Body R) :=
  if !ctx.useBestLike || st.best.bestLikelihood == DEFAULT_WORST_CASE then st.bodytab
  else st.bestLikelihoodBodyTab

/-- Overflow counts as the worst case and a zero as the best; what is not a number stays
as it is. -/
def clampReported (likelihood : R) : R :=
  if DEFAULT_WORST_CASE < likelihood ∨ likelihood < -1.0 * DEFAULT_WORST_CASE then
    DEFAULT_WORST_CASE
  else if likelihood == 0.0 then DEFAULT_BEST_CASE else likelihood

def searchComponents (use : LikelihoodUse) (l : Likelihoods R) : List (String × R) :=
  [("search_likelihood_EMD", -l.EMD), ("search_likelihood_Mass", -l.Mass)] ++
    (if use.useBetaDisp then [("search_likelihood_Beta", -l.Beta)] else []) ++
    (if use.useVelDisp then [("search_likelihood_Vel", -l.Vel)] else []) ++
    (if use.useBetaComp then [("search_likelihood_BetaAvg", -l.BetaAvg)] else []) ++
    (if use.useVlos then [("search_likelihood_VelAvg", -l.VelAvg)] else []) ++
    (if use.useDist then [("search_likelihood_Dist", -l.Dist)] else [])

def BestLikelihood.likelihoods (best : BestLikelihood R) : Likelihoods R where
  likelihood := best.bestLikelihood
  EMD := best.bestLikelihood_EMD
  Mass := best.bestLikelihood_Mass
  Beta := best.bestLikelihood_Beta
  Vel := best.bestLikelihood_Vel
  BetaAvg := best.bestLikelihood_BetaAvg
  VelAvg := best.bestLikelihood_VelAvg
  Dist := best.bestLikelihood_Dist

def printLikelihoods (use : LikelihoodUse) (l : Likelihoods R) (out : Output R H) : Output R H :=
  if l.likelihood != l.likelihood then { out with searchLikelihood := some (-DEFAULT_WORST_CASE) }
  else { out with
    searchLikelihood := some (-l.likelihood)
    components := searchComponents use l }

def reportLikelihoods (ctx : NBodyCtx R) (nbf : NBodyFlags) (st : NBodyState R) (histogram : H)
    (l : Likelihoods R) (out : Output R H) : Output R H :=
  let likelihood := clampReported l.likelihood
  if mw_abs st.best.bestLikelihood < mw_abs likelihood ∧ ctx.useBestLike then
    printLikelihoods st.use st.best.likelihoods out
  else printLikelihoods st.use { l with likelihood } { out with
    histogramFile := if nbf.histoutFileName.isSome then some (nbWriteHistogram ctx st histogram)
      else out.histogramFile }

def nbReportResults (W : World R I H) (ctx : NBodyCtx R) (nbf : NBodyFlags) (st : NBodyState R)
    (file : Option (HistogramFile R H)) : BitVec 32 × Output R H :=
  let out : Output R H :=
    { bodies := if nbf.outFileName.isSome then some (outputTab ctx st) else none
      histogramFile := file }
  if nbf.histogramFileName.isSome ∨ nbf.histoutFileName.isSome ∨ nbf.printHistogram then
    match W.nbGetLikelihoodInfo nbf with
    | none => (NBODY_LIKELIHOOD_ERROR, out)
    | some hp =>
        match W.nbCreateHistogram st.step ctx st.bodytab st.use hp with
        | none => (NBODY_LIKELIHOOD_ERROR, out)
        | some histogram =>
            let out := { out with
              printedHistogram := if nbf.printHistogram then some histogram else none }
            match nbf.histogramFileName with
            | none => (0, { out with
                histogramFile := if nbf.histoutFileName.isSome then
                  some (nbWriteHistogram ctx st histogram) else file })
            | some name =>
                match W.nbReadHistogram st.step name with
                | none => (NBODY_LIKELIHOOD_ERROR, out)
                | some data => (0, reportLikelihoods ctx nbf st histogram
                    (W.nbSystemLikelihood st.step st.use data histogram hp) out)
  else (0, out)

/-! ## The files of a run -/

/-- The evaluations up to a point of a session and the histogram file at that point. -/
inductive Wrote (W : World R I H) (S : Session R) (ctx : NBodyCtx R) (nbf : NBodyFlags)
    (start : BitVec 32 × NBodyState R) (file₀ : Option (HistogramFile R H)) :
    List (Evaluation R) → Option (HistogramFile R H) →
    (BitVec 32 × NBodyState R) ⊕ (BitVec 32 × NBodyState R) → Prop
  | start : Wrote W S ctx nbf start file₀ [] file₀ (.inl start)
  | step (hist : List (Evaluation R)) (file : Option (HistogramFile R H))
      (p : BitVec 32 × NBodyState R) (acc_i acc_i1 : Vec3 R) (rc : NBodyStatus)
      (s : NBodyState R) (x : (BitVec 32 × NBodyState R) ⊕ (BitVec 32 × NBodyState R))
      (before : Wrote W S ctx nbf start file₀ hist file (.inl p)) (more : p.2.step < ctx.nStep)
      (shift : shiftAt ctx p.2 = some (acc_i, acc_i1))
      (stepped : nbStepSystemPlain W ctx p.2 acc_i acc_i1 = some (rc, s))
      (turn : nbRunTurn W S ctx nbf p = some x) :
      Wrote W S ctx nbf start file₀ (hist ++ (evaluationAt W ctx nbf s).toList)
        (writeObserved W ctx nbf s file) x
  | stop (hist : List (Evaluation R)) (file : Option (HistogramFile R H))
      (p : BitVec 32 × NBodyState R)
      (x : (BitVec 32 × NBodyState R) ⊕ (BitVec 32 × NBodyState R))
      (before : Wrote W S ctx nbf start file₀ hist file (.inl p)) (ended : ¬p.2.step < ctx.nStep)
      (turn : nbRunTurn W S ctx nbf p = some x) :
      Wrote W S ctx nbf start file₀ hist file x

def histogramOf (W : World R I H) (ctx : NBodyCtx R) (nbf : NBodyFlags) (e : Evaluation R) :
    Option H := do
  let hp ← W.nbGetLikelihoodInfo nbf
  W.nbCreateHistogram e.step ctx e.bodies e.use hp

def Evaluation.forwardTime (ctx : NBodyCtx R) (e : Evaluation R) : R :=
  headerTime ctx (e.record ctx).bestLikelihood_time

def fileOf (W : World R I H) (ctx : NBodyCtx R) (nbf : NBodyFlags) (e : Evaluation R) :
    Option (HistogramFile R H) :=
  (histogramOf W ctx nbf e).map fun histogram =>
    ⟨e.forwardTime ctx, clampLikelihood e.likelihoods.likelihood, histogram⟩

omit [Add R] [Sub R] in
theorem writeObserved_eq (W : World R I H) (ctx : NBodyCtx R) (nbf : NBodyFlags)
    (st : NBodyState R) (file : Option (HistogramFile R H)) :
    writeObserved W ctx nbf st file = match evaluationAt W ctx nbf st with
      | none => file
      | some e =>
          if e.value < mw_abs st.best.bestLikelihood ∧ nbf.histoutFileName.isSome then
            fileOf W ctx nbf e
          else file := by
  unfold writeObserved evaluationAt
  by_cases window : inWindow ctx st
  · rw [if_pos window, if_pos window]
    cases evaluated : likelihoodOf W ctx nbf st with
    | none => rfl
    | some l =>
        dsimp only [Option.map_some]
        by_cases better : mw_abs (clampLikelihood l.likelihood) < mw_abs st.best.bestLikelihood
        · have observed : (get_likelihood W ctx nbf st).best = recordOf ctx st.step st.use l := by
            rw [get_likelihood, evaluated]
            dsimp only
            rw [if_pos better]
          by_cases out : nbf.histoutFileName.isSome = true
          · rw [if_pos ⟨better, out⟩]
            refine Eq.trans ?_ (if_pos (And.intro better out)).symm
            rw [fileOf, histogramOf]
            simp only [nbWriteHistogram, observed]
            cases W.nbGetLikelihoodInfo nbf with
            | none => rfl
            | some hp =>
                simp only [Option.bind_eq_bind, Option.bind_some]
                cases W.nbCreateHistogram st.step ctx st.bodytab st.use hp <;> rfl
          · exact (if_neg fun h => out h.2).trans (if_neg fun h => out h.2).symm
        · exact (if_neg fun h => better h.1).trans (if_neg fun h => better h.1).symm
  · rw [if_neg window, if_neg window]

namespace Wrote

variable {W : World R I H} {S : Session R} {ctx : NBodyCtx R} {nbf : NBodyFlags}
  {start : BitVec 32 × NBodyState R} {file₀ file : Option (HistogramFile R H)}
  {hist : List (Evaluation R)} {x : (BitVec 32 × NBodyState R) ⊕ (BitVec 32 × NBodyState R)}

theorem passed (wrote : Wrote W S ctx nbf start file₀ hist file x) :
    Passed W S ctx nbf start hist x := by
  induction wrote with
  | start => exact .start
  | step hist file p acc_i acc_i1 rc s x before more shift stepped turn ih =>
      exact ih.step hist p acc_i acc_i1 rc s x more shift stepped turn
  | stop hist file p x before ended turn ih => exact ih.stop hist p x ended turn

theorem file_eq (wrote : Wrote W S ctx nbf start file₀ hist file x)
    (worst : start.2.best.bestLikelihood = DEFAULT_WORST_CASE)
    (out : nbf.histoutFileName.isSome = true) :
    file = (improvements hist).getLast?.elim file₀ (fileOf W ctx nbf) := by
  induction wrote with
  | start => rfl
  | step hist file p acc_i acc_i1 rc s x before more shift stepped turn ih =>
      have best : s.best.bestLikelihood = p.2.best.bestLikelihood :=
        congrArg _ (nbStepSystemPlain_frame stepped).best
      have value := (before.passed.recordOf worst).value worst
      rw [writeObserved_eq, best]
      cases evaluationAt W ctx nbf s with
      | none =>
          rw [Option.toList_none, List.append_nil]
          exact ih
      | some e =>
          have next : improvements (hist ++ [e]) = improvements hist ++
              if e.value < mw_abs p.2.best.bestLikelihood then [e] else [] := by
            rw [show p.2 = stateAt (.inl p) from rfl, value]
            exact records_append Evaluation.value _ hist [e]
          rw [Option.toList_some, next]
          dsimp only
          by_cases better : e.value < mw_abs p.2.best.bestLikelihood
          · rw [if_pos ⟨better, out⟩, if_pos better, List.getLast?_append,
              List.getLast?_singleton, Option.some_or]
            rfl
          · rw [if_neg fun h => better h.1, if_neg better, List.append_nil]
            exact ih
  | stop hist file p x before ended turn ih => exact ih

theorem ends {p r : BitVec 32 × NBodyState R} {n : ℕ}
    (wrote : Wrote W S ctx nbf start file₀ hist file (.inl p))
    (run : (nbRunTurn W S ctx nbf).run n p = some r) :
    ∃ hist' file', Wrote W S ctx nbf start file₀ hist' file' (.inr r) := by
  induction n generalizing p hist file with
  | zero => cases run
  | succ n ih =>
      rw [Turn.run] at run
      cases turn : nbRunTurn W S ctx nbf p with
      | none => rw [turn] at run; cases run
      | some x =>
          have next : ∃ hist' file', Wrote W S ctx nbf start file₀ hist' file' x := by
            obtain ⟨ended, -⟩ | ⟨more, a, b, rc, s, shift, stepped, -⟩ := nbRunTurn_cases turn
            · exact ⟨_, _, wrote.stop hist file p x ended turn⟩
            · exact ⟨_, _, wrote.step hist file p a b rc s x more shift stepped turn⟩
          obtain ⟨hist', file', next⟩ := next
          rw [turn] at run
          cases x with
          | inl p' => exact ih next run
          | inr r' =>
              cases run
              exact ⟨hist', file', next⟩

end Wrote

theorem Passed.evaluated {W : World R I H} {S : Session R} {ctx : NBodyCtx R} {nbf : NBodyFlags}
    {start : BitVec 32 × NBodyState R} {hist : List (Evaluation R)}
    {x : (BitVec 32 × NBodyState R) ⊕ (BitVec 32 × NBodyState R)}
    (passed : Passed W S ctx nbf start hist x) :
    (stateAt x).use = start.2.use ∧
      ∀ e ∈ hist, ∃ s, s.use = start.2.use ∧ evaluationAt W ctx nbf s = some e := by
  induction passed with
  | start => exact ⟨rfl, nofun⟩
  | step hist p acc_i acc_i1 rc s x before more shift stepped turn ih =>
      refine ⟨(nbRunTurn_use turn).trans ih.1, fun e mem => ?_⟩
      obtain old | new := List.mem_append.mp mem
      · exact ih.2 e old
      · exact ⟨s, (nbStepSystemPlain_frame stepped).use.trans ih.1, Option.mem_toList.mp new⟩
  | stop hist p x before ended turn ih => exact ⟨(nbRunTurn_use turn).trans ih.1, ih.2⟩

omit [Zero R] [Add R] [Neg R] [Sub R] [Mul R] [OfScientific R] [BEq R] [LT R] [DecidableLT R] in
theorem evaluationAt_cases {W : World R I H} {ctx : NBodyCtx R} {nbf : NBodyFlags}
    {st : NBodyState R} {e : Evaluation R} (evaluated : evaluationAt W ctx nbf st = some e) :
    e.use = st.use ∧ ∃ histogram, histogramOf W ctx nbf e = some histogram := by
  unfold evaluationAt at evaluated
  split at evaluated
  · obtain ⟨l, likelihoods, rfl⟩ := Option.map_eq_some_iff.mp evaluated
    simp only [likelihoodOf, Option.bind_eq_bind, Option.bind_eq_some_iff, Option.pure_def,
      Option.some.injEq] at likelihoods
    obtain ⟨name, -, hp, info, histogram, created, -⟩ := likelihoods
    refine ⟨rfl, histogram, ?_⟩
    simp only [histogramOf, info, Option.bind_eq_bind, Option.bind_some, created]
  · cases evaluated

omit [Zero R] [Add R] [Sub R] [LE R] [DecidableLE R] in
theorem searchComponents_record (ctx : NBodyCtx R) (e : Evaluation R) :
    searchComponents e.use (e.record ctx).likelihoods = searchComponents e.use e.likelihoods := by
  unfold searchComponents BestLikelihood.likelihoods Evaluation.record recordOf
  cases e.use.useBetaDisp <;> cases e.use.useVelDisp <;> cases e.use.useBetaComp <;>
    cases e.use.useVlos <;> cases e.use.useDist <;> rfl

omit [Add R] [Sub R] [Div R] [LE R] [DecidableLE R] [NatCast R] in
theorem nbReportResults_eq {W : World R I H} {ctx : NBodyCtx R} {nbf : NBodyFlags}
    {st : NBodyState R} {l : Likelihoods R} (file : Option (HistogramFile R H))
    (evaluated : likelihoodOf W ctx nbf st = some l) :
    ∃ histogram, histogramOf W ctx nbf ⟨st.step, st.use, l, st.bodytab⟩ = some histogram ∧
      nbReportResults W ctx nbf st file = (0, reportLikelihoods ctx nbf st histogram l
        { bodies := if nbf.outFileName.isSome then some (outputTab ctx st) else none
          histogramFile := file
          printedHistogram := if nbf.printHistogram then some histogram else none }) := by
  simp only [likelihoodOf, Option.bind_eq_bind, Option.bind_eq_some_iff, Option.pure_def,
    Option.some.injEq] at evaluated
  obtain ⟨name, named, hp, info, histogram, created, data, read, rfl⟩ := evaluated
  refine ⟨histogram, ?_, ?_⟩
  · simp only [histogramOf, info, Option.bind_eq_bind, Option.bind_some, created]
  · simp only [nbReportResults, named, info, created, read, Option.isSome_some, true_or, if_true]

/-! ## The best of the states -/

/-- The states that a report may be about: the steps that were evaluated and the end,
each with its forward time. -/
def reportable (ctx : NBodyCtx R) (hist : List (Evaluation R)) (last : Evaluation R) :
    List (Evaluation R × R) :=
  hist.map (fun e => (e, e.forwardTime ctx)) ++ [(last, ctx.timeEvolve)]

/-- All that is printed and written, apart from the histogram of the end state that may
be printed besides, is that of the state `s`. -/
structure Shows (W : World R I H) (ctx : NBodyCtx R) (nbf : NBodyFlags) (out : Output R H)
    (s : Evaluation R × R) : Prop where
  likelihood : ∃ l, out.searchLikelihood = some (-l) ∧ mw_abs l = s.1.value
  components : out.components ⊆ searchComponents s.1.use s.1.likelihoods
  bodies : nbf.outFileName.isSome → out.bodies = some s.1.bodies
  file : nbf.histoutFileName.isSome → ∃ f, out.histogramFile = some f ∧ f.forwardTime = s.2 ∧
    histogramOf W ctx nbf s.1 = some f.histogram

/-- The likelihoods of a state as an evaluation. -/
def NBodyState.evaluation (st : NBodyState R) (l : Likelihoods R) : Evaluation R :=
  ⟨st.step, st.use, l, st.bodytab⟩

/-- The report is about one of the states with the least absolute likelihood. -/
def ReportsBest (W : World R I H) (ctx : NBodyCtx R) (nbf : NBodyFlags)
    (hist : List (Evaluation R)) (last : Evaluation R) (out : Output R H) : Prop :=
  ∃ s ∈ reportable ctx hist last, (∀ t ∈ reportable ctx hist last, s.1.value ≤ t.1.value) ∧
    Shows W ctx nbf out s

/-- Some state looks like the end state in its likelihoods and its histogram and like
the best step in its bodies and its time. -/
def Blends (W : World R I H) (ctx : NBodyCtx R) (nbf : NBodyFlags) (hist : List (Evaluation R))
    (last best : Evaluation R) : Prop :=
  ∃ s ∈ reportable ctx hist last, s.1.value = last.value ∧
    searchComponents last.use last.likelihoods ⊆ searchComponents s.1.use s.1.likelihoods ∧
    (nbf.outFileName.isSome → s.1.bodies = best.bodies) ∧
    (nbf.histoutFileName.isSome → s.2 = best.forwardTime ctx ∧
      histogramOf W ctx nbf s.1 = histogramOf W ctx nbf last)

section
variable {F : Type} [Field F] [LinearOrder F] [IsStrictOrderedRing F]

theorem mw_abs_fin (x : F) : mw_abs (Extended.fin x) = Extended.fin |x| := by
  unfold mw_abs
  by_cases negative : x < 0
  · have below : Extended.fin x < 0 := Extended.fin_lt_fin.mpr negative
    rw [if_pos below, abs_of_neg negative]
    rfl
  · have above : ¬Extended.fin x < 0 := fun h => negative (Extended.fin_lt_fin.mp h)
    rw [if_neg above, abs_of_nonneg (not_lt.mp negative)]

theorem mw_abs_worst : mw_abs (DEFAULT_WORST_CASE : Extended F) = DEFAULT_WORST_CASE := by
  have positive : (0 : F) ≤ 9999999.9 := by norm_num
  exact (mw_abs_fin _).trans (congrArg Extended.fin (abs_of_nonneg positive))

variable [Mul (Extended F)]

theorem mw_abs_clampLikelihood_le
    (minus : (-1.0 : Extended F) * DEFAULT_WORST_CASE = -DEFAULT_WORST_CASE) (l : Extended F) :
    mw_abs (clampLikelihood l) ≤ DEFAULT_WORST_CASE := by
  have number : (DEFAULT_WORST_CASE : Extended F) ≠ .nan := Extended.ofScientific_ne_nan _ _ _
  unfold clampLikelihood
  rw [minus]
  split
  · rw [mw_abs_worst]
    exact Extended.le_refl_of_ne_nan number
  · rename_i within
    split
    · have small : |(1.0e-9 : F)| ≤ 9999999.9 := by
        rw [abs_of_nonneg (by norm_num)]
        norm_num
      exact (mw_abs_fin (1.0e-9 : F)).symm ▸ Extended.fin_le_fin.mpr small
    · obtain ⟨below, above, isNumber⟩ :
          ¬DEFAULT_WORST_CASE < l ∧ ¬l < -DEFAULT_WORST_CASE ∧ ¬(l != l) = true := by
        simpa only [not_or] using within
      match l with
      | .nan => exact absurd ((Extended.bne_self _).mpr rfl) isNumber
      | .num none => exact absurd (WithBot.bot_lt_coe _) above
      | .num (some none) =>
          exact absurd (WithBot.coe_lt_coe.mpr (WithTop.coe_lt_top _)) below
      | .num (some (some x)) =>
          have upper : ¬(9999999.9 : F) < x := fun h => below (Extended.fin_lt_fin.mpr h)
          have lower : ¬x < -(9999999.9 : F) := fun h => above (Extended.fin_lt_fin.mpr h)
          have bound : |x| ≤ 9999999.9 := abs_le.mpr ⟨not_lt.mp lower, not_lt.mp upper⟩
          exact (mw_abs_fin x).symm ▸ Extended.fin_le_fin.mpr bound

omit [IsStrictOrderedRing F] in
theorem clampReported_nan : clampReported (.nan : Extended F) = .nan := rfl

omit [IsStrictOrderedRing F] in
theorem clampReported_eq {l : Extended F} (number : l ≠ .nan) :
    clampReported l = clampLikelihood l := by
  have same : ¬(l != l) = true := fun h => number ((Extended.bne_self l).mp h)
  unfold clampReported clampLikelihood
  simp only [same, Bool.false_eq_true, or_false]

omit [IsStrictOrderedRing F] in
theorem printLikelihoods_clamped (use : LikelihoodUse) (l : Likelihoods (Extended F))
    (out : Output (Extended F) H) :
    printLikelihoods use { l with likelihood := clampReported l.likelihood } out = { out with
      searchLikelihood := some (-clampLikelihood l.likelihood)
      components := if l.likelihood = .nan then out.components else searchComponents use l } := by
  unfold printLikelihoods
  by_cases nan : l.likelihood = .nan
  · have worst : clampLikelihood l.likelihood = DEFAULT_WORST_CASE := by
      rw [nan]
      rfl
    rw [if_pos nan, worst, nan]
    exact if_pos rfl
  · rw [if_neg nan, clampReported_eq nan]
    have same : ¬(clampLikelihood l.likelihood != clampLikelihood l.likelihood) = true :=
      fun h => clampLikelihood_ne_nan _ ((Extended.bne_self _).mp h)
    exact if_neg same

omit [IsStrictOrderedRing F] [Mul (Extended F)] in
theorem headerTime_zero (ctx : NBodyCtx (Extended F)) : headerTime ctx 0.0 = ctx.timeEvolve :=
  if_pos (decide_eq_true rfl)

omit [IsStrictOrderedRing F] in
theorem reportLikelihoods_end {ctx : NBodyCtx (Extended F)} {nbf : NBodyFlags}
    {st : NBodyState (Extended F)} {l : Likelihoods (Extended F)} (histogram : H)
    (out : Output (Extended F) H)
    (notWorse : ¬mw_abs st.best.bestLikelihood < mw_abs (clampReported l.likelihood)) :
    reportLikelihoods ctx nbf st histogram l out = { out with
      histogramFile := if nbf.histoutFileName.isSome then some (nbWriteHistogram ctx st histogram)
        else out.histogramFile
      searchLikelihood := some (-clampLikelihood l.likelihood)
      components := if l.likelihood = .nan then out.components
        else searchComponents st.use l } := by
  unfold reportLikelihoods
  rw [if_neg fun h => notWorse h.1, printLikelihoods_clamped]

omit [IsStrictOrderedRing F] in
theorem reportLikelihoods_best {ctx : NBodyCtx (Extended F)} {nbf : NBodyFlags}
    {st : NBodyState (Extended F)} {l : Likelihoods (Extended F)} (histogram : H)
    (out : Output (Extended F) H) (useBestLike : ctx.useBestLike = true)
    (number : st.best.bestLikelihood ≠ .nan)
    (worse : mw_abs st.best.bestLikelihood < mw_abs (clampReported l.likelihood)) :
    reportLikelihoods ctx nbf st histogram l out = { out with
      searchLikelihood := some (-st.best.bestLikelihood)
      components := searchComponents st.use st.best.likelihoods } := by
  have same : ¬(st.best.bestLikelihood != st.best.bestLikelihood) = true :=
    fun h => number ((Extended.bne_self _).mp h)
  unfold reportLikelihoods
  rw [if_pos ⟨worse, useBestLike⟩]
  exact if_neg same

variable [Div (Extended F)] [NatCast (Extended F)]

structure RunEnd (W : World (Extended F) I H) (ctx : NBodyCtx (Extended F)) (nbf : NBodyFlags)
    (start fin : NBodyState (Extended F)) (hist : List (Evaluation (Extended F)))
    (file : Option (HistogramFile (Extended F) H)) : Prop where
  worst : start.best.bestLikelihood = DEFAULT_WORST_CASE
  time : start.best.bestLikelihood_time = 0.0
  record : RecordOf ctx nbf start hist fin
  evaluated : ∀ e ∈ hist, e.use = fin.use ∧ ∃ histogram, histogramOf W ctx nbf e = some histogram
  file : nbf.histoutFileName.isSome →
    ∃ file₀, file = (improvements hist).getLast?.elim file₀ (fileOf W ctx nbf)

omit [Div (Extended F)] [NatCast (Extended F)] in
theorem not_worst_lt_clampReported
    (minus : (-1.0 : Extended F) * DEFAULT_WORST_CASE = -DEFAULT_WORST_CASE) (l : Extended F) :
    ¬mw_abs DEFAULT_WORST_CASE < mw_abs (clampReported l) := by
  by_cases nan : l = .nan
  · rw [nan, clampReported_nan, mw_abs_worst]
    exact id
  · rw [clampReported_eq nan, mw_abs_worst]
    exact Extended.not_lt_of_le (mw_abs_clampLikelihood_le minus l)

namespace RunEnd

variable {W : World (Extended F) I H} {ctx : NBodyCtx (Extended F)} {nbf : NBodyFlags}
  {start fin : NBodyState (Extended F)} {hist : List (Evaluation (Extended F))}
  {file : Option (HistogramFile (Extended F) H)} {l : Likelihoods (Extended F)}

theorem reportsBest (ended : RunEnd W ctx nbf start fin hist file)
    (minus : (-1.0 : Extended F) * DEFAULT_WORST_CASE = -DEFAULT_WORST_CASE)
    (evaluated : likelihoodOf W ctx nbf fin = some l)
    (noneBetter : (improvements hist).getLast? = none) :
    ReportsBest W ctx nbf hist (fin.evaluation l) (nbReportResults W ctx nbf fin file).2 := by
  have best : fin.best = start.best := by
    rw [ended.record.best, noneBetter]
    rfl
  have worst : fin.best.bestLikelihood = DEFAULT_WORST_CASE := by rw [best, ended.worst]
  have above : ∀ e ∈ hist, mw_abs DEFAULT_WORST_CASE ≤ e.value := by
    intro e mem
    refine Extended.le_of_not_lt e.value_ne_nan
      (mw_abs_ne_nan (Extended.ofScientific_ne_nan _ _ _)) fun below => ?_
    obtain ⟨b, last⟩ := exists_lastRecord Evaluation.value mem below
    have last : (improvements hist).getLast? = some b := last
    rw [noneBetter] at last
    cases last
  obtain ⟨histogram, made, report⟩ := nbReportResults_eq file evaluated
  rw [report, reportLikelihoods_end histogram _
    (by rw [worst]; exact not_worst_lt_clampReported minus _)]
  refine ⟨(fin.evaluation l, ctx.timeEvolve), List.mem_append_right _ List.mem_cons_self, ?_,
    ⟨_, rfl, rfl⟩, ?_, ?_, ?_⟩
  · intro t mem
    obtain step | last := List.mem_append.mp mem
    · obtain ⟨e, he, rfl⟩ := List.mem_map.mp step
      refine Extended.le_trans ?_ (above e he)
      rw [mw_abs_worst]
      exact mw_abs_clampLikelihood_le minus _
    · rw [List.mem_singleton.mp last]
      exact Extended.le_refl_of_ne_nan (Evaluation.value_ne_nan _)
  · dsimp only
    split
    · exact List.nil_subset _
    · exact List.Subset.refl _
  · intro out
    have same : (fin.best.bestLikelihood == DEFAULT_WORST_CASE) = true := by
      rw [worst]
      exact decide_eq_true rfl
    simp only [out, if_true, outputTab, same, Bool.or_true, NBodyState.evaluation]
  · intro out
    refine ⟨_, if_pos out, ?_, made⟩
    rw [nbWriteHistogram, best, ended.time, headerTime_zero]

variable {b : Evaluation (Extended F)}

omit [IsStrictOrderedRing F] in
theorem best_spec (ended : RunEnd W ctx nbf start fin hist file)
    (last : (improvements hist).getLast? = some b) :
    b ∈ hist ∧ fin.best = b.record ctx ∧ b.value < mw_abs DEFAULT_WORST_CASE ∧
      ∀ e ∈ hist, b.value ≤ e.value := by
  obtain ⟨before, later, split, below, attains, -⟩ := lastRecord_spec Evaluation.value last
  refine ⟨?_, ?_, below, fun e mem => ?_⟩
  · rw [split]
    exact List.mem_append_right _ List.mem_cons_self
  · rw [ended.record.best, last]
    rfl
  · refine Extended.le_of_not_lt e.value_ne_nan b.value_ne_nan ?_
    rw [attains]
    exact not_lt_minimum Evaluation.value _ hist e mem

omit [IsStrictOrderedRing F] in
theorem outputTab_best (ended : RunEnd W ctx nbf start fin hist file)
    (useBestLike : ctx.useBestLike = true) (last : (improvements hist).getLast? = some b)
    (out : nbf.outFileName.isSome = true) : outputTab ctx fin = b.bodies := by
  obtain ⟨-, best, below, -⟩ := ended.best_spec last
  have differs : (fin.best.bestLikelihood == DEFAULT_WORST_CASE) = false := by
    refine Bool.eq_false_iff.mpr fun same => ?_
    have worst : clampLikelihood b.likelihoods.likelihood = DEFAULT_WORST_CASE := by
      rw [best] at same
      cases clamped : clampLikelihood b.likelihoods.likelihood with
      | nan => exact absurd clamped (clampLikelihood_ne_nan _)
      | num x =>
          have same : (Extended.num x == (DEFAULT_WORST_CASE : Extended F)) = true :=
            clamped ▸ same
          exact congrArg Extended.num (of_decide_eq_true same)
    rw [Evaluation.value, worst] at below
    exact irrefl_of (· < ·) _ below
  rw [outputTab, useBestLike, differs, ended.record.bodies out, last]
  rfl

omit [IsStrictOrderedRing F] in
theorem reportsBest_step (ended : RunEnd W ctx nbf start fin hist file)
    (useBestLike : ctx.useBestLike = true) (evaluated : likelihoodOf W ctx nbf fin = some l)
    (last : (improvements hist).getLast? = some b) (number : l.likelihood ≠ .nan)
    (worse : b.value < (fin.evaluation l).value) :
    ReportsBest W ctx nbf hist (fin.evaluation l) (nbReportResults W ctx nbf fin file).2 := by
  obtain ⟨mem, best, -, least⟩ := ended.best_spec last
  obtain ⟨histogram, -, report⟩ := nbReportResults_eq file evaluated
  obtain ⟨use, bHistogram, made⟩ := ended.evaluated b mem
  have value : mw_abs fin.best.bestLikelihood = b.value := by rw [best]; rfl
  have likelihood : fin.best.bestLikelihood = clampLikelihood b.likelihoods.likelihood := by
    rw [best]
    rfl
  rw [report, reportLikelihoods_best histogram _ useBestLike
    (by rw [likelihood]; exact clampLikelihood_ne_nan _)
    (by rw [value, clampReported_eq number]; exact worse)]
  refine ⟨(b, b.forwardTime ctx), List.mem_append_left _ (List.mem_map_of_mem mem), ?_,
    ⟨_, rfl, value⟩, ?_, ?_, ?_⟩
  · intro t mem'
    obtain step | last' := List.mem_append.mp mem'
    · obtain ⟨e, he, rfl⟩ := List.mem_map.mp step
      exact least e he
    · rw [List.mem_singleton.mp last']
      exact Extended.le_of_not_lt (Evaluation.value_ne_nan _) (Evaluation.value_ne_nan _)
        (asymm_of (· < ·) worse)
  · dsimp only
    rw [best, ← use, searchComponents_record]
    exact List.Subset.refl _
  · intro out
    rw [ended.outputTab_best useBestLike last out]
    exact if_pos out
  · intro out
    obtain ⟨file₀, written⟩ := ended.file out
    rw [last, Option.elim_some, fileOf, made, Option.map_some] at written
    exact ⟨_, written, rfl, made⟩

omit [IsStrictOrderedRing F] in
theorem reportsBest_iff (ended : RunEnd W ctx nbf start fin hist file)
    (useBestLike : ctx.useBestLike = true) (evaluated : likelihoodOf W ctx nbf fin = some l)
    (last : (improvements hist).getLast? = some b) (number : l.likelihood ≠ .nan)
    (asGood : (fin.evaluation l).value ≤ b.value) :
    ReportsBest W ctx nbf hist (fin.evaluation l) (nbReportResults W ctx nbf fin file).2 ↔
      Blends W ctx nbf hist (fin.evaluation l) b := by
  obtain ⟨mem, best, -, least⟩ := ended.best_spec last
  obtain ⟨histogram, made, report⟩ := nbReportResults_eq file evaluated
  have value : mw_abs fin.best.bestLikelihood = b.value := by rw [best]; rfl
  have notWorse : ¬mw_abs fin.best.bestLikelihood < mw_abs (clampReported l.likelihood) := by
    rw [value, clampReported_eq number]
    exact Extended.not_lt_of_le asGood
  have time : headerTime ctx fin.best.bestLikelihood_time = b.forwardTime ctx := by
    rw [best]
    rfl
  rw [report, reportLikelihoods_end histogram _ notWorse, if_neg number]
  constructor
  · rintro ⟨s, hs, -, ⟨v, printed, attained⟩, components, bodies, file⟩
    have printed : v = clampLikelihood l.likelihood :=
      (Extended.neg_injective (Option.some.inj printed)).symm
    refine ⟨s, hs, ?_, components, fun out => ?_, fun out => ?_⟩
    · rw [← attained, printed]
      rfl
    · have written := (if_pos out).symm.trans (bodies out)
      rw [ended.outputTab_best useBestLike last out] at written
      exact (Option.some.inj written).symm
    · obtain ⟨f, written, shown, madeOf⟩ := file out
      have written := (if_pos out).symm.trans written
      cases written
      exact ⟨shown.symm.trans time, madeOf.trans made.symm⟩
  · rintro ⟨s, hs, attained, components, bodies, file⟩
    refine ⟨s, hs, fun t ht => ?_, ⟨_, rfl, attained.symm⟩, components, fun out => ?_,
      fun out => ?_⟩
    · rw [attained]
      obtain step | last' := List.mem_append.mp ht
      · obtain ⟨e, he, rfl⟩ := List.mem_map.mp step
        exact Extended.le_trans asGood (least e he)
      · rw [List.mem_singleton.mp last']
        exact Extended.le_refl_of_ne_nan (Evaluation.value_ne_nan _)
    · rw [ended.outputTab_best useBestLike last out, bodies out]
      exact if_pos out
    · obtain ⟨shown, madeOf⟩ := file out
      exact ⟨_, if_pos out, time.trans shown.symm, madeOf.trans made⟩

omit [IsStrictOrderedRing F] in
theorem not_reportsBest (ended : RunEnd W ctx nbf start fin hist file)
    (evaluated : likelihoodOf W ctx nbf fin = some l)
    (last : (improvements hist).getLast? = some b) (nan : l.likelihood = .nan) :
    ¬ReportsBest W ctx nbf hist (fin.evaluation l) (nbReportResults W ctx nbf fin file).2 := by
  obtain ⟨mem, -, below, -⟩ := ended.best_spec last
  obtain ⟨histogram, -, report⟩ := nbReportResults_eq file evaluated
  have notWorse : ¬mw_abs fin.best.bestLikelihood < mw_abs (clampReported l.likelihood) := by
    rw [nan, clampReported_nan]
    cases mw_abs fin.best.bestLikelihood <;> exact id
  rw [report, reportLikelihoods_end histogram _ notWorse]
  rintro ⟨s, -, least, ⟨v, printed, attained⟩, -⟩
  have printed : v = DEFAULT_WORST_CASE := by
    have same := Extended.neg_injective (Option.some.inj printed)
    rw [nan] at same
    exact same.symm
  have least := least (b, b.forwardTime ctx)
    (List.mem_append_left _ (List.mem_map_of_mem mem))
  rw [← attained, printed] at least
  exact Extended.not_lt_of_le least below

end RunEnd

variable [Add (Extended F)] [Sub (Extended F)]

omit [IsStrictOrderedRing F] in
theorem Wrote.runEnd {W : World (Extended F) I H} {S : Session (Extended F)}
    {ctx : NBodyCtx (Extended F)} {nbf : NBodyFlags} {st start fin : NBodyState (Extended F)}
    {rc : NBodyStatus} {rcFin : BitVec 32} {file₀ file : Option (HistogramFile (Extended F) H)}
    {hist : List (Evaluation (Extended F))} (begins : nbRunStart W S ctx st = some (rc, start))
    (goesOn : nbStatusIsFatal rc.bits = false) (fresh : st.best.bestLikelihood_time = 0.0)
    (wrote : Wrote W S ctx nbf (rc.bits, start) file₀ hist file (.inr (rcFin, fin))) :
    RunEnd W ctx nbf start fin hist file := by
  have best := nbRunStart_best begins goesOn
  have worst : start.best.bestLikelihood = DEFAULT_WORST_CASE := by
    rw [best]
    rfl
  obtain ⟨use, evaluated⟩ := wrote.passed.evaluated
  refine ⟨worst, ?_, wrote.passed.recordOf worst, ?_, ?_⟩
  · rw [best]
    exact fresh
  · intro e mem
    obtain ⟨s, used, at_⟩ := evaluated e mem
    obtain ⟨same, made⟩ := evaluationAt_cases at_
    exact ⟨same.trans (used.trans use.symm), made⟩
  · exact fun out => ⟨file₀, wrote.file_eq worst out⟩

/-- The report is about one of the best of the evaluated steps and the end state if and
only if no step has improved on the worst case, or the likelihood of the end state is a
number and, unless it is worse than the best step, some state looks like both. -/
theorem nbReportResults_iff (W : World (Extended F) I H) (S : Session (Extended F))
    (ctx : NBodyCtx (Extended F)) (nbf : NBodyFlags) (st start fin : NBodyState (Extended F))
    (rc : NBodyStatus) (rcFin : BitVec 32) (begins : nbRunStart W S ctx st = some (rc, start))
    (goesOn : nbStatusIsFatal rc.bits = false) (fresh : st.best.bestLikelihood_time = 0.0)
    (useBestLike : ctx.useBestLike = true)
    (minus : (-1.0 : Extended F) * DEFAULT_WORST_CASE = -DEFAULT_WORST_CASE)
    (file₀ file : Option (HistogramFile (Extended F) H)) (hist : List (Evaluation (Extended F)))
    (wrote : Wrote W S ctx nbf (rc.bits, start) file₀ hist file (.inr (rcFin, fin)))
    (l : Likelihoods (Extended F)) (evaluated : likelihoodOf W ctx nbf fin = some l) :
    ReportsBest W ctx nbf hist (fin.evaluation l) (nbReportResults W ctx nbf fin file).2 ↔
      ∀ b, (improvements hist).getLast? = some b → l.likelihood ≠ .nan ∧
        ((fin.evaluation l).value ≤ b.value → Blends W ctx nbf hist (fin.evaluation l) b) := by
  have ended := wrote.runEnd begins goesOn fresh
  cases improved : (improvements hist).getLast? with
  | none =>
      refine iff_of_true (ended.reportsBest minus evaluated improved) fun b none_ => ?_
      exact absurd none_ (Option.some_ne_none b).symm
  | some b =>
      by_cases nan : l.likelihood = .nan
      · exact iff_of_false (ended.not_reportsBest evaluated improved nan)
          fun h => (h b rfl).1 nan
      · by_cases worse : b.value < (fin.evaluation l).value
        · refine iff_of_true (ended.reportsBest_step useBestLike evaluated improved nan worse)
            fun b' same => ⟨nan, fun asGood => ?_⟩
          rw [← Option.some.inj same] at asGood
          exact absurd worse (Extended.not_lt_of_le asGood)
        · have asGood : (fin.evaluation l).value ≤ b.value :=
            Extended.le_of_not_lt b.value_ne_nan (Evaluation.value_ne_nan _) worse
          rw [ended.reportsBest_iff useBestLike evaluated improved nan asGood]
          refine ⟨fun blends b' same => ⟨nan, fun _ => ?_⟩, fun h => (h b rfl).2 asGood⟩
          rw [← Option.some.inj same]
          exact blends

end

/-! ## A run whose end state cannot be compared -/

section
local instance reportPlus : Add (Extended ℚ) := ⟨Extended.map₂ (· + ·)⟩
local instance reportMinus : Sub (Extended ℚ) := ⟨Extended.map₂ (· - ·)⟩
local instance reportTimes : Mul (Extended ℚ) := ⟨Extended.times⟩
local instance reportDivides : Div (Extended ℚ) := ⟨Extended.map₂ (· / ·)⟩
local instance reportOfNat : NatCast (Extended ℚ) := ⟨fun n => .fin n⟩

def lostLikelihood : ℕ → Extended ℚ
  | 1 => .fin 2
  | _ => .nan

def lostWorld : World (Extended ℚ) Unit Unit := quietWorld (Extended.map ratSqrt) lostLikelihood

def reportFlags : NBodyFlags := ⟨some "histogram", some "histogram.out", some "output", false⟩

theorem lostRun (nStep : ℕ) (status : (nbRunStart lostWorld quietSession (quietCtx nStep)
      restingState).map Prod.fst = some .success)
    (completes : ((nbRunSystemPlain lostWorld quietSession (quietCtx nStep) reportFlags
      restingState).bind fun p => likelihoodOf lostWorld (quietCtx nStep) reportFlags p.2).isSome) :
    ∃ start hist file rcFin fin l, nbRunStart lostWorld quietSession (quietCtx nStep)
        restingState = some (.success, start) ∧
      nbRunSystemPlain lostWorld quietSession (quietCtx nStep) reportFlags restingState =
        some (rcFin, fin) ∧
      Wrote lostWorld quietSession (quietCtx nStep) reportFlags (NBodyStatus.success.bits, start)
        none hist file (.inr (rcFin, fin)) ∧
      likelihoodOf lostWorld (quietCtx nStep) reportFlags fin = some l := by
  obtain ⟨start, begins⟩ := exists_of_fst status
  obtain ⟨l, found⟩ := Option.isSome_iff_exists.mp completes
  obtain ⟨⟨rcFin, fin⟩, run, evaluated⟩ := Option.bind_eq_some_iff.mp found
  have loop := run
  rw [nbRunSystemPlain, begins, Option.bind_eq_bind, Option.bind_some] at loop
  obtain ⟨hist, file, wrote⟩ := Wrote.ends .start loop
  exact ⟨start, hist, file, rcFin, fin, l, begins, run, wrote, evaluated⟩

theorem nbReportResults_iff_resting : ∃ hist fin file l,
    likelihoodOf lostWorld (quietCtx 1) reportFlags fin = some l ∧
    (ReportsBest lostWorld (quietCtx 1) reportFlags hist (fin.evaluation l)
        (nbReportResults lostWorld (quietCtx 1) reportFlags fin file).2 ↔
      ∀ b, (improvements hist).getLast? = some b → l.likelihood ≠ .nan ∧
        ((fin.evaluation l).value ≤ b.value →
          Blends lostWorld (quietCtx 1) reportFlags hist (fin.evaluation l) b)) := by
  obtain ⟨start, hist, file, rcFin, fin, l, begins, -, wrote, evaluated⟩ :=
    lostRun 1 (by decide +kernel) (by decide +kernel)
  exact ⟨hist, fin, file, l, evaluated, nbReportResults_iff _ _ _ _ _ _ _ _ _ begins rfl
    (by decide +kernel) rfl (by decide +kernel) _ _ _ wrote _ evaluated⟩

theorem nbReportResults_lost : ∃ start hist fin file rcFin l,
    nbRunStart lostWorld quietSession (quietCtx 2) restingState = some (.success, start) ∧
    Wrote lostWorld quietSession (quietCtx 2) reportFlags (NBodyStatus.success.bits, start) none
      hist file (.inr (rcFin, fin)) ∧
    nbStatusIsFatal rcFin = false ∧ (quietCtx 2 : NBodyCtx (Extended ℚ)).useBestLike = true ∧
    likelihoodOf lostWorld (quietCtx 2) reportFlags fin = some l ∧
    (∃ e ∈ hist, e.value = .fin 2) ∧
    (nbReportResults lostWorld (quietCtx 2) reportFlags fin file).2.searchLikelihood =
      some (-DEFAULT_WORST_CASE) ∧
    ¬ReportsBest lostWorld (quietCtx 2) reportFlags hist (fin.evaluation l)
      (nbReportResults lostWorld (quietCtx 2) reportFlags fin file).2 := by
  obtain ⟨start, hist, file, rcFin, fin, l, begins, run, wrote, evaluated⟩ :=
    lostRun 2 (by decide +kernel) (by decide +kernel)
  have ended := wrote.runEnd begins rfl (by decide +kernel)
  have known : (nbRunSystemPlain lostWorld quietSession (quietCtx 2) reportFlags restingState).map
      (fun p => (p.1, p.2.best.bestLikelihood,
        (likelihoodOf lostWorld (quietCtx 2) reportFlags p.2).map (·.likelihood))) =
      some (0, .fin 2, some .nan) := by decide +kernel
  rw [run, Option.map_some, Option.some.injEq, Prod.mk.injEq, Prod.mk.injEq, evaluated,
    Option.map_some, Option.some.injEq] at known
  obtain ⟨status, best, nan⟩ := known
  dsimp only at status best
  cases improved : (improvements hist).getLast? with
  | none =>
      have same : fin.best.bestLikelihood = DEFAULT_WORST_CASE := by
        rw [ended.record.best, improved]
        exact ended.worst
      rw [best] at same
      exact absurd same (by decide +kernel)
  | some b =>
      obtain ⟨mem, record, -⟩ := ended.best_spec improved
      have value : b.value = .fin 2 := by
        show mw_abs (b.record (quietCtx 2)).bestLikelihood = _
        rw [← record, best]
        decide +kernel
      obtain ⟨histogram, -, report⟩ := nbReportResults_eq file evaluated
      refine ⟨start, hist, fin, file, rcFin, l, begins, wrote, ?_, rfl, evaluated,
        ⟨b, mem, value⟩, ?_, ended.not_reportsBest evaluated improved nan⟩
      · rw [status]
        decide
      · rw [report, reportLikelihoods_end, nan]
        · rfl
        · rw [best, nan]
          decide +kernel

end

end MilkyWay.NBody
