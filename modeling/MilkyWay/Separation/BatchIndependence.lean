import MilkyWay.Separation.Worker

/-! Independence of the units of a batch. Two runs side by side, one of a batch and one of
a single unit with the same parameters: whatever is saved on the way, what is printed for
the unit is the same. -/

namespace MilkyWay.Separation

open Foundation

section
variable {R : Type}

def Alike (s t : EvaluationState R) : Prop :=
  ∃ currentWU WUPrinted last bgKept streamsKept,
    streamsKept.length = s.streamSumsCheckpoint.length ∧
      t = { s with
        currentWU := currentWU
        WUPrinted := WUPrinted
        lastCheckpointNuStep := last
        bgSumCheckpoint := bgKept
        streamSumsCheckpoint := streamsKept }

namespace Alike

theorem refl (s : EvaluationState R) : Alike s s := ⟨_, _, _, _, _, rfl, rfl⟩

theorem symm {s t : EvaluationState R} (alike : Alike s t) : Alike t s := by
  obtain ⟨_, _, _, _, _, length, rfl⟩ := alike
  exact ⟨_, _, _, _, _, length.symm, rfl⟩

theorem trans {r s t : EvaluationState R} (first : Alike r s) (second : Alike s t) :
    Alike r t := by
  obtain ⟨_, _, _, _, _, length, rfl⟩ := first
  obtain ⟨_, _, _, _, _, length', rfl⟩ := second
  exact ⟨_, _, _, _, _, length'.trans length, rfl⟩

theorem writeCheckpoint_right {s t : EvaluationState R} (alike : Alike s t) :
    Alike s (writeCheckpoint t) :=
  alike.trans ⟨_, _, t.nu_step, _, _, rfl, rfl⟩

theorem writeCheckpoint_left {s t : EvaluationState R} (alike : Alike s t) :
    Alike (writeCheckpoint s) t :=
  alike.symm.writeCheckpoint_right.symm

theorem separationIntegralGetSums {s t : EvaluationState R} (alike : Alike s t) :
    Alike (separationIntegralGetSums s) (separationIntegralGetSums t) := by
  obtain ⟨_, _, _, _, _, length, rfl⟩ := alike
  exact ⟨_, _, _, _, _, length, rfl⟩

end Alike

end

/-! ## The integrals of two runs -/

section
variable {R : Type} [Zero R] [Add R] [Sub R] {D : ProgramCL R} {ia : IntegralArea R} {may : Prop}

def AlikeCL (p q : EvaluationState R × Device R) : Prop := Alike p.1 q.1 ∧ p.2 = q.2

theorem checkpointCL_cases (D : ProgramCL R) (ia : IntegralArea R)
    (o : Oracle (EvaluationState R × Device R)) (p : EvaluationState R × Device R) :
    match checkpointCL D ia o p with
    | .ok t => AlikeCL p t
    | .error _ => o p ≠ .pass := by
  have saved : AlikeCL p (writeCheckpoint (readKernelResults D ia p.2 p.1), p.2) :=
    ⟨⟨_, _, _, _, _, List.length_mapIdx, rfl⟩, rfl⟩
  unfold checkpointCL
  by_cases time : (D.enableCheckpointing && timeToCheckpointGPU D ia p.1) = true
  · rw [if_pos time]
    by_cases fails : D.readFails ia p.1.nu_step = true
    · cases o p with
      | pass => exact ⟨.refl _, rfl⟩
      | save | stop =>
          simp only [fails, if_true]
          exact nofun
    · cases chance : o p with
      | pass => exact ⟨.refl _, rfl⟩
      | save =>
          simp only [fails, opportunity, chance]
          exact saved
      | stop =>
          simp only [fails, opportunity, chance]
          exact nofun
  · rw [if_neg time]
    exact ⟨.refl _, rfl⟩

theorem matches_checkpointCL {o o' : Oracle (EvaluationState R × Device R)}
    (disturbs : ∀ p, o' p ≠ .pass → may)
    {p p' : EvaluationState R × Device R} (alike : AlikeCL p p') :
    Matches may AlikeCL (checkpointCL D ia o p) (checkpointCL D ia o' p') := by
  have left := checkpointCL_cases D ia o p
  have right := checkpointCL_cases D ia o' p'
  match out : checkpointCL D ia o p, out' : checkpointCL D ia o' p' with
  | .ok t, .ok t' =>
      rw [out] at left
      rw [out'] at right
      exact ⟨left.1.symm.trans (alike.1.trans right.1),
        left.2.symm.trans (alike.2.trans right.2)⟩
  | .ok t, .error _ =>
      rw [out'] at right
      exact disturbs p' right
  | .error _, _ => trivial

theorem matches_nuStepCL (nStream : ℕ) {p p' : EvaluationState R × Device R}
    (alike : AlikeCL p p') :
    Matches may AlikeCL (nuStepCL D nStream ia p) (nuStepCL D nStream ia p') := by
  obtain ⟨s, dev⟩ := p
  obtain ⟨s', dev'⟩ := p'
  obtain ⟨⟨_, _, _, _, _, length, rfl⟩, rfl⟩ : Alike s s' ∧ dev = dev' := alike
  unfold nuStepCL
  dsimp only
  split
  · trivial
  · exact ⟨⟨_, _, _, _, _, length, rfl⟩, rfl⟩

theorem matches_finishCL {p p' : EvaluationState R × Device R} (alike : AlikeCL p p') :
    Matches may (fun p q => Alike p.1 q.1) (finishCL D ia p) (finishCL D ia p') := by
  obtain ⟨s, dev⟩ := p
  obtain ⟨s', dev'⟩ := p'
  obtain ⟨⟨wu, wuPrinted, last, bgKept, kept, length, rfl⟩, rfl⟩ : Alike s s' ∧ dev = dev' := alike
  have read : (kept.mapIdx fun i _ => runSummarization D ia (i + 1) dev) =
      s.streamSumsCheckpoint.mapIdx fun i _ => runSummarization D ia (i + 1) dev :=
    List.ext_getElem (by simp [length]) fun i _ _ => by simp
  unfold finishCL
  dsimp only
  split
  · trivial
  · refine ⟨wu, wuPrinted, last, 0, _, rfl, ?_⟩
    simp only [readKernelResults, addTmpCheckpointSums, read]

theorem matches_integrateCL (nStream : ℕ) {o o' : Oracle (EvaluationState R)}
    (disturbs : ∀ s, o' s ≠ .pass → may)
    {s s' : EvaluationState R} (alike : Alike s s') :
    Matches may Alike (integrateCL D nStream ia o s) (integrateCL D nStream ia o' s') := by
  refine Matches.bind (matches_within _ (Matches.bind (matches_forLoop ?_ ?_ ⟨alike, rfl⟩)
    fun t t' => matches_finishCL)) fun t t' => Alike.separationIntegralGetSums
  · rintro p p' ⟨⟨_, _, _, _, _, -, same⟩, -⟩
    rw [same]
  · intro p p' alike
    exact (matches_checkpointCL (fun p => disturbs p.1) alike).bind
      fun t t' => matches_nuStepCL nStream

end

section
variable {R : Type} [Zero R] [OfScientific R] {E : Integration R}
  {ap : AstronomyParameters R} {sc : List (StreamConstants R)} {may : Prop}

def AlikeProgress (p q : Progress R) : Prop := Alike p.1 q.1 ∧ p.2 = q.2

theorem matches_finishCut {p q : Progress R} (alike : AlikeProgress p q) :
    Matches may AlikeProgress (finishCut E sc p) (finishCut E sc q) := by
  obtain ⟨s, taken⟩ := p
  obtain ⟨s', taken'⟩ := q
  obtain ⟨⟨_, _, _, _, _, length, rfl⟩, rfl⟩ : Alike s s' ∧ taken = taken' := alike
  unfold finishCut
  dsimp only
  split
  · trivial
  · exact ⟨⟨_, _, _, _, _, length, rfl⟩, rfl⟩

theorem matches_calculateIntegrals
    {integrate : IntegralArea R → Stoppable (EvaluationState R) ℤ} {o o' : Oracle (Progress R)}
    (disturbs : ∀ p, o' p ≠ .pass → may)
    (pair : ∀ ia o o' s s', (∀ s, o' s ≠ .pass → may) → Alike s s' →
      Matches may Alike (integrate ia o s) (integrate ia o' s'))
    {p p' : Progress R} (alike : AlikeProgress p p') :
    Matches may AlikeProgress (calculateIntegrals E ap sc integrate o p)
      (calculateIntegrals E ap sc integrate o' p') := by
  have cuts : ∀ s s' : Progress R, AlikeProgress s s' → s.1.currentCut = s'.1.currentCut := by
    rintro s s' ⟨⟨_, _, _, _, _, -, same⟩, -⟩
    rw [same]
  refine matches_forLoop cuts ?_ alike
  intro q q' alike
  rw [← cuts q q' alike]
  obtain ⟨s, taken⟩ := q
  obtain ⟨s', taken'⟩ := q'
  obtain ⟨alike, rfl⟩ : Alike s s' ∧ taken = taken' := alike
  exact (matches_beside taken (pair _ _ _ s s' (fun s => disturbs (s, taken)) alike)).bind
    fun t t' => matches_finishCut

end

section
variable {R : Type} [Zero R] [Add R] [Neg R] [Sub R] [Mul R] [Div R] [OfScientific R] [NatCast R]
  [IntCast R] [BEq R] [LT R] [DecidableLT R] [LE R] [DecidableLE R]
variable {E : Integration R} {ap : AstronomyParameters R} {sc : List (StreamConstants R)}
  {may : Prop}

omit [BEq R] in
theorem matches_mu_sum (ia : IntegralArea R) (nuid : NuId R) {o o' : Oracle (EvaluationState R)}
    (disturbs : ∀ s, o' s ≠ .pass → may) {s s' : EvaluationState R} (alike : Alike s s') :
    Matches may Alike (mu_sum E ap sc ia nuid o s) (mu_sum E ap sc ia nuid o' s') := by
  refine Matches.bind (matches_forLoop ?_ ?_ alike) ?_
  · rintro s - ⟨_, _, _, _, _, -, rfl⟩
    rfl
  · intro s s' alike
    refine (matches_opportunity alike (fun _ _ => Alike.writeCheckpoint_left)
      (fun _ _ => Alike.writeCheckpoint_right)
      fun s stop => disturbs s (by rw [stop]; nofun)).bind ?_
    rintro t - ⟨_, _, _, _, _, length, rfl⟩
    exact ⟨_, _, _, _, _, length, rfl⟩
  · rintro t - ⟨_, _, _, _, _, length, rfl⟩
    exact ⟨_, _, _, _, _, length, rfl⟩

omit [BEq R] in
theorem matches_nuSum (ia : IntegralArea R) {o o' : Oracle (EvaluationState R)}
    (disturbs : ∀ s, o' s ≠ .pass → may) {s s' : EvaluationState R} (alike : Alike s s') :
    Matches may Alike (nuSum E ap sc ia o s) (nuSum E ap sc ia o' s') := by
  refine Matches.bind (matches_forLoop ?_ ?_ alike) ?_
  · rintro s - ⟨_, _, _, _, _, -, rfl⟩
    rfl
  · intro s s' alike
    have nu : s'.nu_step = s.nu_step := by
      obtain ⟨_, _, _, _, _, -, rfl⟩ := alike
      rfl
    rw [nu]
    refine (matches_mu_sum ia _ disturbs alike).bind ?_
    rintro t - ⟨_, _, _, _, _, length, rfl⟩
    exact ⟨_, _, _, _, _, length, rfl⟩
  · rintro t - ⟨_, _, _, _, _, length, rfl⟩
    exact ⟨_, _, _, _, _, length, rfl⟩

theorem matches_integrate (ia : IntegralArea R) {o o' : Oracle (EvaluationState R)}
    (disturbs : ∀ s, o' s ≠ .pass → may) {s s' : EvaluationState R} (alike : Alike s s') :
    Matches may Alike (integrate E ap sc ia o s) (integrate E ap sc ia o' s') := by
  unfold integrate
  by_cases flat : ap.q == 0.0
  · rw [if_pos flat]
    trivial
  · rw [if_neg flat, if_neg flat]
    exact (matches_nuSum ia disturbs alike).bind fun t t' => Alike.separationIntegralGetSums

end

/-! ## What a unit's parameters come to -/

section
variable {R : Type} [Zero R] [Add R] [Neg R] [Sub R] [Mul R] [Div R] [OfScientific R] [NatCast R]
  [IntCast R] [BEq R] [LT R] [DecidableLT R] [LE R] [DecidableLE R]
variable (P : Program R)

/-- The results that come of what is set up for a unit when nothing is saved on the way. -/
def Program.results (s : Shared R) (sc : List (StreamConstants R)) :
    Option (SeparationResults R) := do
  let probabilityFunc ← P.probabilityFunc s.ap
  match P.calculateIntegrals probabilityFunc s.ap sc quiet (newProgress s.ap) with
  | .ok (es, _) => some (P.likelihood probabilityFunc s.ap s.streams sc true es).2
  | .error _ => none

def Program.atUnit (prepared : Shared R) (unit : ℕ) : Shared R :=
  { P.prepare prepared with
    ap := (P.prepare prepared).ap.forUnit unit (P.prepare prepared).ap.totalWUs }

def Program.unitResults (prepared : Shared R) (unit : ℕ) : Option (SeparationResults R) := do
  let (s, sc) ← setUp P.L P.numArgs (P.atUnit prepared unit)
  P.results s sc

/-- The same program with the parameters of one unit. -/
def Program.only (params_per_workunit unit : ℕ) : Program R :=
  { P with
    numArgs := P.numArgs.map fun args =>
      (args.drop (params_per_workunit * unit)).take params_per_workunit
    nForwardedArgs := params_per_workunit }

variable {P}

theorem matches_program (probabilityFunc : ProbabilityFunc R) (ap : AstronomyParameters R)
    (sc : List (StreamConstants R)) {may : Prop} {o o' : Oracle (Progress R)}
    (disturbs : ∀ p, o' p ≠ .pass → may) {p p' : Progress R} (alike : AlikeProgress p p') :
    Matches may AlikeProgress (P.calculateIntegrals probabilityFunc ap sc o p)
      (P.calculateIntegrals probabilityFunc ap sc o' p') := by
  unfold Program.calculateIntegrals
  refine matches_calculateIntegrals disturbs ?_ alike
  intro ia o o' s s' disturbs alike
  cases P.device with
  | none => exact matches_integrate ia disturbs alike
  | some D => exact matches_integrateCL ap.number_streams disturbs alike

omit [IntCast R] in
theorem likelihood_alike (probabilityFunc : ProbabilityFunc R) (ap : AstronomyParameters R)
    (streams : Streams R) (sc : List (StreamConstants R)) (opens : Bool)
    {es es' : EvaluationState R} (alike : Alike es es') :
    P.likelihood probabilityFunc ap streams sc opens es =
      P.likelihood probabilityFunc ap streams sc opens es' := by
  obtain ⟨_, _, _, _, _, -, rfl⟩ := alike
  rfl

theorem results_of_run {s : Shared R} {sc : List (StreamConstants R)}
    {probabilityFunc : ProbabilityFunc R} {o : Oracle (Progress R)} {p t : Progress R}
    (func : P.probabilityFunc s.ap = some probabilityFunc)
    (start : AlikeProgress p (newProgress s.ap))
    (run : P.calculateIntegrals probabilityFunc s.ap sc o p = .ok t) :
    P.results s sc = some (P.likelihood probabilityFunc s.ap s.streams sc true t.1).2 := by
  have pair : Matches False AlikeProgress (P.calculateIntegrals probabilityFunc s.ap sc o p)
      (P.calculateIntegrals probabilityFunc s.ap sc quiet (newProgress s.ap)) :=
    matches_program probabilityFunc s.ap sc (fun p pass => pass rfl) start
  unfold Program.results
  rw [func, Option.bind_eq_bind, Option.bind_some]
  rw [run] at pair
  match out : P.calculateIntegrals probabilityFunc s.ap sc quiet (newProgress s.ap) with
  | .ok (es, _) =>
      rw [out] at pair
      rw [likelihood_alike probabilityFunc s.ap s.streams sc true pair.1]
  | .error _ =>
      rw [out] at pair
      exact pair.elim

theorem forUnit_of_probabilityFunc {ap : AstronomyParameters R}
    {probabilityFunc : ProbabilityFunc R} (func : P.probabilityFunc ap = some probabilityFunc)
    (sc : List (StreamConstants R)) (currentWU totalWUs : ℕ) :
    P.calculateIntegrals probabilityFunc (ap.forUnit currentWU totalWUs) sc =
        P.calculateIntegrals probabilityFunc ap sc ∧
      P.likelihood probabilityFunc (ap.forUnit currentWU totalWUs) =
        P.likelihood probabilityFunc ap := by
  unfold Program.probabilityFunc at func
  match chosen : probabilityFunctionDispatch P.dispatch ap with
  | none =>
      rw [chosen] at func
      cases func
  | some (.intrinsics level) =>
      rw [chosen] at func
      cases func
      exact ⟨rfl, rfl⟩
  | some .standard =>
      rw [chosen] at func
      cases func
      unfold selectStandardFunction
      cases ap.background_profile with
      | slowHernquist => exact ⟨rfl, rfl⟩
      | fastHernquist => exact ⟨rfl, rfl⟩
      | brokenPowerLaw => exact ⟨rfl, rfl⟩

theorem results_forUnit {s : Shared R} {sc : List (StreamConstants R)}
    {r : SeparationResults R} (currentWU totalWUs : ℕ) (results : P.results s sc = some r) :
    P.results { s with ap := s.ap.forUnit currentWU totalWUs } sc = some r := by
  unfold Program.results at results
  rw [Option.bind_eq_bind, Option.bind_eq_some_iff] at results
  obtain ⟨probabilityFunc, func, results⟩ := results
  have func' : P.probabilityFunc (s.ap.forUnit currentWU totalWUs) = some probabilityFunc := func
  obtain ⟨integrals, likelihood⟩ := forUnit_of_probabilityFunc func sc currentWU totalWUs
  match out : P.calculateIntegrals probabilityFunc s.ap sc quiet (newProgress s.ap) with
  | .error _ =>
      rw [out] at results
      cases results
  | .ok t =>
      rw [out] at results
      have run := results_of_run (s := { s with ap := s.ap.forUnit currentWU totalWUs }) func'
        (o := quiet) (p := newProgress s.ap) (t := t) ⟨⟨_, _, _, _, _, rfl, rfl⟩, rfl⟩
        ((congrFun (congrFun integrals quiet) _).trans out)
      rw [run, likelihood]
      exact results

/-! ## What is printed in a batch -/

def Prints (P : Program R) (prepared : Shared R) (w : World R) : Prop :=
  ∀ k r, (k, r) ∈ w.printed →
    k < (P.prepare prepared).ap.totalWUs ∧ P.unitResults prepared k = some r

def Undisturbed (P : Program R) (prepared : Shared R) : Machine R → Prop
  | .running s ignoreCheckpoint _ w =>
      (Frame (P.prepare prepared) s ∧ s.ap.totalWUs = (P.prepare prepared).ap.totalWUs) ∧
        (ignoreCheckpoint = false → w.file = .absent) ∧ Prints P prepared w
  | .interrupted _ => False
  | .finished _ w => Prints P prepared w

theorem results_congr {s t : Shared R} {sc : List (StreamConstants R)} (ap : s.ap = t.ap)
    (streams : s.streams = t.streams) : P.results s sc = P.results t sc := by
  unfold Program.results
  rw [ap, streams]

variable {prepared s s' : Shared R} {sc : List (StreamConstants R)} {args : List R}

theorem unitResults_of_setUp (given : P.numArgs = some args) (frame : Frame (P.prepare prepared) s)
    (total : s.ap.totalWUs = (P.prepare prepared).ap.totalWUs)
    (set : setUp P.L P.numArgs s = some (s', sc)) :
    (Frame (P.prepare prepared) s' ∧ s'.ap.totalWUs = (P.prepare prepared).ap.totalWUs) ∧
      s'.ap.currentWU = s.ap.currentWU ∧
      ∀ r, P.results s' sc = some r → P.unitResults prepared s.ap.currentWU = some r := by
  rw [given] at set
  have self : Frame s s := ⟨rfl, rfl, frame.places', frame.places'⟩
  have back : Frame s (P.atUnit prepared s.ap.currentWU) :=
    ⟨frame.ap.symm, frame.bgp.symm, frame.places', frame.places⟩
  obtain ⟨t, set', -, ap, after⟩ := setUp_frame P.L args self (fun _ _ => rfl) set
  obtain ⟨rfl, -⟩ := Prod.mk.inj (Option.some.inj (set.symm.trans set'))
  have numbers : s'.ap.currentWU = s.ap.currentWU ∧ s'.ap.totalWUs = s.ap.totalWUs := by
    constructor
    · rw [ap]
      rfl
    · rw [ap]
      rfl
  have params : (P.atUnit prepared s.ap.currentWU).ap.params_per_workunit =
      s.ap.params_per_workunit := congrArg (·.params_per_workunit) frame.ap
  obtain ⟨t, set', streams, ap', -⟩ := setUp_frame P.L args back
    (fun i _ => by rw [params]; rfl) set
  refine ⟨⟨⟨frame.ap.trans after.ap, frame.bgp.trans after.bgp, frame.places, after.places'⟩,
    numbers.2.trans total⟩, numbers.1, fun r results => ?_⟩
  unfold Program.unitResults
  rw [given, set', Option.bind_eq_bind, Option.bind_some]
  have numbered := results_forUnit s.ap.currentWU (P.prepare prepared).ap.totalWUs results
  exact (results_congr (t := { s' with ap := s'.ap.forUnit s.ap.currentWU _ }) ap' streams).trans
    numbered

theorem calculateIntegrals_of_none {probabilityFunc : ProbabilityFunc R}
    (none : s.ap.number_integrals = 0) (o : Oracle (Progress R)) (p : Progress R) :
    P.calculateIntegrals probabilityFunc s.ap sc o p = .ok p := by
  unfold Program.calculateIntegrals calculateIntegrals forLoop
  rw [none, Nat.zero_sub]
  rfl

theorem results_of_integrated {fate : Fate R} {ignoreCheckpoint : Bool} {w w₁ w' : World R}
    {probabilityFunc : ProbabilityFunc R} {es t : EvaluationState R} {done : Bool}
    (absent : ignoreCheckpoint = false → w.file = .absent)
    (func : P.probabilityFunc s.ap = some probabilityFunc)
    (enters : Enters s.ap ignoreCheckpoint w es done)
    (integrated : Integrated P fate s.ap sc w₁ probabilityFunc es done t w') :
    P.results s sc = some (P.likelihood probabilityFunc s.ap s.streams sc true t).2 := by
  have fresh : es = newEvaluationState s.ap ∧ (done = true → s.ap.number_integrals = 0) := by
    cases enters with
    | anew ignores => exact ⟨rfl, nofun⟩
    | first looks absent =>
        refine ⟨rfl, fun done => ?_⟩
        simpa [integralsAreDone, newEvaluationState] using done
    | resumes looks found unit unprinted => cases (absent looks).symm.trans found
  obtain ⟨rfl, empty⟩ := fresh
  cases integrated with
  | @now _ taken _ run saved =>
      exact results_of_run (o := fate.integrals) (t := (t, taken)) func ⟨.refl _, rfl⟩ run
  | already =>
      exact results_of_run (o := quiet) (p := newProgress s.ap) (t := newProgress s.ap) func
        ⟨.refl _, rfl⟩ (calculateIntegrals_of_none (empty rfl) quiet _)

theorem undisturbed_exit {w : World R} (rc : ℤ) (prints : Prints P prepared w) :
    Undisturbed P prepared (P.exit rc w) := by
  obtain ⟨w', exit, printed, -⟩ := exit_finished P rc w
  rw [exit]
  exact fun k r mem => prints k r (printed ▸ mem)

theorem prints_evaluation {fate : Fate R} {ignoreCheckpoint : Bool} {w : World R}
    {e : Evaluated R} (opens : fate.opensOutfile = true)
    (absent : ignoreCheckpoint = false → w.file = .absent)
    (inside : s.ap.currentWU < (P.prepare prepared).ap.totalWUs)
    (own : ∀ r, P.results s sc = some r → P.unitResults prepared s.ap.currentWU = some r)
    (prints : Prints P prepared w) :
    Evaluation P fate s.ap s.streams sc ignoreCheckpoint w e →
    match e with
    | .error _ => True
    | .ok (_, _, ignoreCheckpoint, w) =>
        (ignoreCheckpoint = false → w.file = .absent) ∧ Prints P prepared w := by
  intro evaluation
  have integrated : ∀ {w₁ w' : World R} {f es done t},
      Integrated P fate s.ap sc w₁ f es done t w' → w₁.printed = w.printed →
        w'.printed = w.printed := by
    intro w₁ w' f es done t integrated same
    cases integrated with
    | already => exact same
    | now run saved => exact (file_checkpoint saved).1.trans same
  cases evaluation with
  | refused nonzero => exact ⟨absent, prints⟩
  | unreadable looks damaged => exact ⟨fun _ => rfl, prints⟩
  | leaves looks found ahead => cases (absent looks).symm.trans found
  | skips looks found unit printed => cases (absent looks).symm.trans found
  | fails enters => exact ⟨nofun, prints⟩
  | stopped enters run => trivial
  | complete enters run saved => trivial
  | starless enters made =>
      refine ⟨nofun, fun k r mem => prints k r ?_⟩
      rwa [← integrated made rfl]
  | @prints f es t done w' func enters made =>
      have result := results_of_integrated absent func enters made
      have same := integrated made rfl
      rw [← opens] at result
      match saved : (w'.print s.ap.currentWU
        (P.likelihood f s.ap s.streams sc fate.opensOutfile t)).checkpoint fate.printed
          { t with WUPrinted := true } with
      | .error _ => trivial
      | .ok w'' =>
          refine ⟨nofun, fun k r mem => ?_⟩
          rw [(file_checkpoint saved).1, World.printed_print, same] at mem
          obtain old | new := List.mem_append.mp mem
          · exact prints k r old
          · obtain ⟨rfl, rfl⟩ := Prod.mk.inj (List.mem_singleton.mp new)
            exact ⟨inside, own _ result⟩

theorem undisturbed_worker {fate : Fate R} {m : Machine R} (given : P.numArgs = some args)
    (opens : fate.opensOutfile = true) (goes : ¬ (worker P prepared fate m).Interrupted)
    (undisturbed : Undisturbed P prepared m) :
    Undisturbed P prepared (worker P prepared fate m) := by
  match m with
  | .interrupted w => exact undisturbed.elim
  | .finished rc w => exact undisturbed
  | .running s ignoreCheckpoint rc w =>
      obtain ⟨⟨frame, total⟩, absent, prints⟩ := undisturbed
      rw [worker] at goes ⊢
      by_cases last : s.ap.totalWUs ≤ s.ap.currentWU
      · rw [if_pos last]
        exact undisturbed_exit rc prints
      rw [if_neg last] at goes ⊢
      match set : setUp P.L P.numArgs s with
      | none => exact undisturbed_exit 1 prints
      | some (s', sc) =>
          rw [set] at goes
          obtain ⟨⟨frame', total'⟩, unit, own⟩ := unitResults_of_setUp given frame total set
          rw [← unit] at own
          have inside : s'.ap.currentWU < (P.prepare prepared).ap.totalWUs := by omega
          have printed := prints_evaluation opens absent inside own prints
            (evaluation_evaluate P fate s'.ap s'.streams sc ignoreCheckpoint w)
          dsimp only at goes ⊢
          match out : evaluate P fate s'.ap s'.streams sc ignoreCheckpoint w with
          | .error w' =>
              rw [out] at goes
              exact goes trivial
          | .ok (rc', currentWU, ignoreCheckpoint', w') =>
              rw [out] at printed
              exact ⟨⟨⟨frame'.ap, frame'.bgp, frame'.places, frame'.places'⟩, total'⟩, printed⟩

theorem undisturbed_run {fates : List (Fate R)} {m : Machine R} (given : P.numArgs = some args)
    (opens : ∀ fate ∈ fates, fate.opensOutfile = true)
    (goes : Uninterrupted P prepared fates m) (undisturbed : Undisturbed P prepared m) :
    Undisturbed P prepared (run P prepared fates m) := by
  induction fates generalizing m with
  | nil => exact undisturbed
  | cons fate fates ih =>
      obtain ⟨opened, opens⟩ := List.forall_mem_cons.mp opens
      exact ih opens goes.2 (undisturbed_worker given opened goes.1 undisturbed)

theorem undisturbed_start (places : prepared.streams.parameters.length = prepared.ap.number_streams)
    (rc : ℤ) : Undisturbed P prepared (P.start prepared rc .start) :=
  ⟨⟨⟨rfl, rfl, places, places⟩, rfl⟩, fun _ => rfl, nofun⟩

theorem prints_of_undisturbed {m : Machine R} (undisturbed : Undisturbed P prepared m) :
    Prints P prepared m.world := by
  match m with
  | .running s ignoreCheckpoint rc w => exact undisturbed.2.2
  | .interrupted w => exact undisturbed.elim
  | .finished rc w => exact undisturbed

theorem prints_run {fates : List (Fate R)} (given : P.numArgs = some args)
    (places : prepared.streams.parameters.length = prepared.ap.number_streams) (rc : ℤ)
    (opens : ∀ fate ∈ fates, fate.opensOutfile = true)
    (goes : Uninterrupted P prepared fates (P.start prepared rc .start)) :
    Prints P prepared (run P prepared fates (P.start prepared rc .start)).world :=
  prints_of_undisturbed (undisturbed_run given opens goes (undisturbed_start places rc))

/-! ## The run of a single unit -/

theorem unitResults_only {k : ℕ} {r : SeparationResults R} (given : P.numArgs = some args)
    (places : prepared.streams.parameters.length = prepared.ap.number_streams)
    (results : P.unitResults prepared k = some r) :
    (P.only prepared.ap.params_per_workunit k).unitResults prepared 0 = some r := by
  let Q := P.only prepared.ap.params_per_workunit k
  unfold Program.unitResults at results ⊢
  rw [Option.bind_eq_bind, Option.bind_eq_some_iff] at results
  obtain ⟨⟨s, sc⟩, set, results⟩ := results
  have alone : Q.numArgs = some ((args.drop (prepared.ap.params_per_workunit * k)).take
      prepared.ap.params_per_workunit) := congrArg (Option.map _) given
  have frame : Frame (P.atUnit prepared k) (Q.atUnit prepared 0) := ⟨rfl, rfl, places, places⟩
  rw [given] at set
  obtain ⟨t, set', streams, ap, -⟩ := setUp_frame P.L
    ((args.drop (prepared.ap.params_per_workunit * k)).take prepared.ap.params_per_workunit) frame
    (fun i lt => by
      change i < prepared.ap.params_per_workunit at lt
      change (args.drop (prepared.ap.params_per_workunit * k)).getD i 0 =
        (((args.drop (prepared.ap.params_per_workunit * k)).take
          prepared.ap.params_per_workunit).drop (prepared.ap.params_per_workunit * 0)).getD i 0
      rw [Nat.mul_zero, List.drop_zero, List.getD_eq_getElem?_getD, List.getD_eq_getElem?_getD,
        List.getElem?_take_of_lt lt]) set
  change (setUp P.L Q.numArgs (Q.atUnit prepared 0)).bind _ = some r
  rw [alone, set', Option.bind_some]
  have numbered := results_forUnit (P := P) 0 (Q.prepare prepared).ap.totalWUs results
  exact (results_congr (P := P) (t := { s with ap := s.ap.forUnit 0 _ }) ap streams).trans numbered

omit [IntCast R] in
theorem finish_calm (probabilityFunc : ProbabilityFunc R) (es : EvaluationState R) (w : World R) :
    P.finish .calm probabilityFunc s.ap s.streams sc es w =
      .ok (0, s.ap.currentWU, true, w.print s.ap.currentWU
        (0, (P.likelihood probabilityFunc s.ap s.streams sc true es).2)) :=
  rfl

theorem evaluate_calm (ignoreCheckpoint : Bool) {w : World R} {r : SeparationResults R}
    (absent : ignoreCheckpoint = false → w.file = .absent) (results : P.results s sc = some r) :
    ∃ w', evaluate P .calm s.ap s.streams sc ignoreCheckpoint w =
        .ok (0, s.ap.currentWU, true, w') ∧
      w'.printed = w.printed ++ [(s.ap.currentWU, r)] := by
  unfold Program.results at results
  rw [Option.bind_eq_bind, Option.bind_eq_some_iff] at results
  obtain ⟨probabilityFunc, func, results⟩ := results
  have goes : ∀ done, (done = true → s.ap.number_integrals = 0) →
      ∃ w', P.goOn .calm probabilityFunc s.ap s.streams sc (newEvaluationState s.ap) done w =
          .ok (0, s.ap.currentWU, true, w') ∧
        w'.printed = w.printed ++ [(s.ap.currentWU, r)] := by
    intro done empty
    refine ⟨(w.enter s.ap.currentWU (newEvaluationState s.ap)).print s.ap.currentWU (0, r), ?_,
      World.printed_print _ _ _⟩
    match out : P.calculateIntegrals probabilityFunc s.ap sc quiet (newProgress s.ap) with
    | .error _ =>
        rw [out] at results
        cases results
    | .ok (es, taken) =>
        rw [out] at results
        have result := Option.some.inj results
        unfold Program.goOn
        cases done with
        | true =>
            rw [calculateIntegrals_of_none (empty rfl)] at out
            obtain ⟨rfl, -⟩ := Prod.mk.inj (Except.ok.inj out)
            rw [if_pos rfl, finish_calm, result]
            rfl
        | false =>
            have setsUp : ¬ ((P.device.isSome && !(Fate.calm : Fate R).setsUpCL) = true) := by
              simp [Fate.calm]
            have run : P.calculateIntegrals probabilityFunc s.ap sc (Fate.calm : Fate R).integrals
                (newEvaluationState s.ap, []) = .ok (es, taken) := out
            rw [if_neg Bool.false_ne_true, if_neg setsUp, run, ← result]
            rfl
  unfold evaluate
  rw [func]
  dsimp only
  have resolved : ¬ (Fate.calm : Fate R).resolved ≠ 0 := not_not.mpr rfl
  rw [if_neg resolved]
  cases ignoreCheckpoint with
  | true => exact goes false nofun
  | false =>
      rw [absent rfl, if_neg Bool.false_ne_true]
      dsimp only [maybeResume, newEvaluationState]
      rw [if_neg (lt_irrefl _), if_neg Bool.false_ne_true]
      exact goes _ fun done => by simpa [integralsAreDone] using done

theorem run_calm {r : SeparationResults R} (given : P.numArgs = some args)
    (places : prepared.streams.parameters.length = prepared.ap.number_streams)
    (one : (P.prepare prepared).ap.totalWUs = 1) (results : P.unitResults prepared 0 = some r)
    (rc : ℤ) :
    ∃ w, run P prepared [.calm, .calm] (P.start prepared rc .start) = .finished 0 w ∧
      w.printed = [(0, r)] := by
  unfold Program.unitResults at results
  rw [Option.bind_eq_bind, Option.bind_eq_some_iff] at results
  obtain ⟨⟨s, sc⟩, set, results⟩ := results
  have frame : Frame (P.prepare prepared) (P.prepare prepared) := ⟨rfl, rfl, places, places⟩
  obtain ⟨⟨-, total⟩, unit, -⟩ := unitResults_of_setUp given frame rfl set
  obtain ⟨w, evaluated, printed⟩ := evaluate_calm P.ignoreCheckpoint
    (w := .start) (fun _ => rfl) results
  have first : worker P prepared .calm (P.start prepared rc .start) =
      .running { s with ap := { s.ap with currentWU := s.ap.currentWU + 1 } } true 0 w := by
    have more : ¬ (P.prepare prepared).ap.totalWUs ≤ (P.prepare prepared).ap.currentWU := by
      rw [one]
      exact Nat.not_succ_le_zero 0
    rw [Program.start, worker, if_neg more]
    change setUp P.L P.numArgs (P.prepare prepared) = some (s, sc) at set
    rw [set]
    dsimp only
    rw [evaluated]
  have second : worker P prepared .calm
      (.running { s with ap := { s.ap with currentWU := s.ap.currentWU + 1 } } true 0 w) =
      P.exit 0 w := by
    rw [worker, if_pos]
    exact (total.trans one).trans_le (Nat.succ_pos _)
  obtain ⟨w', exit, same, -⟩ := exit_finished P 0 w
  refine ⟨w', ?_, ?_⟩
  · rw [run, List.foldl_cons, first, List.foldl_cons, second, exit]
    rfl
  · rw [same, printed, unit]
    rfl

theorem params_pos {k : ℕ} {r : SeparationResults R} (given : P.numArgs = some args)
    (results : P.unitResults prepared k = some r) : 0 < prepared.ap.params_per_workunit := by
  unfold Program.unitResults at results
  rw [Option.bind_eq_bind, Option.bind_eq_some_iff] at results
  obtain ⟨⟨s, sc⟩, set, -⟩ := results
  rw [given] at set
  simp only [setUp, Option.bind_eq_bind, Option.bind_eq_some_iff] at set
  obtain ⟨s₁, written, -⟩ := set
  have enough := (enough_parameters written).1
  exact lt_of_lt_of_le (Nat.succ_pos _) enough

/-- What a batch prints for a unit is what the unit prints when it runs alone, and alone it
prints nothing else. -/
theorem run_batch_eq_run_only {fates fates' : List (Fate R)} {rc rc' : ℤ} {k : ℕ}
    {r : SeparationResults R} (given : P.numArgs = some args)
    (places : prepared.streams.parameters.length = prepared.ap.number_streams)
    (opens : ∀ fate ∈ fates, fate.opensOutfile = true)
    (goes : Uninterrupted P prepared fates (P.start prepared rc .start))
    (opens' : ∀ fate ∈ fates', fate.opensOutfile = true)
    (goes' : Uninterrupted (P.only prepared.ap.params_per_workunit k) prepared fates'
      ((P.only prepared.ap.params_per_workunit k).start prepared rc' .start))
    (printed : (k, r) ∈ (run P prepared fates (P.start prepared rc .start)).world.printed) :
    (∃ w, run (P.only prepared.ap.params_per_workunit k) prepared [.calm, .calm]
          ((P.only prepared.ap.params_per_workunit k).start prepared rc' .start) = .finished 0 w ∧
        w.printed = [(0, r)]) ∧
      ∀ out ∈ (run (P.only prepared.ap.params_per_workunit k) prepared fates'
          ((P.only prepared.ap.params_per_workunit k).start prepared rc' .start)).world.printed,
        out = (0, r) := by
  have results := (prints_run given places rc opens goes k r printed).2
  have alone := unitResults_only given places results
  have given' : (P.only prepared.ap.params_per_workunit k).numArgs = some _ :=
    congrArg (Option.map _) given
  have one : ((P.only prepared.ap.params_per_workunit k).prepare prepared).ap.totalWUs = 1 := by
    have positive := params_pos given results
    dsimp only [Program.prepare, Program.only]
    rw [if_pos positive.ne', Nat.div_self positive]
  refine ⟨run_calm given' places one alone rc', fun out mem => ?_⟩
  obtain ⟨i, r'⟩ := out
  obtain ⟨inside, result⟩ := prints_run given' places rc' opens' goes' i r' mem
  obtain rfl : i = 0 := by omega
  rw [Option.some.inj (alone.symm.trans result)]

end

/-- The second of two units alone. -/
abbrev secondUnit : Program ℚ := twoUnits.only withoutStreams.ap.params_per_workunit 1

theorem run_batch_eq_run_only_twoUnits :
    ∃ r, (1, r) ∈ (run twoUnits withoutStreams [.calm, .calm, .calm]
        (twoUnits.start withoutStreams 0 .start)).world.printed ∧
      (∃ w, run secondUnit withoutStreams [.calm, .calm]
          (secondUnit.start withoutStreams 0 .start) = .finished 0 w ∧ w.printed = [(0, r)]) ∧
      ∀ out ∈ (run secondUnit withoutStreams [.calm, .calm]
          (secondUnit.start withoutStreams 0 .start)).world.printed, out = (0, r) := by
  have second : (1, ((run twoUnits withoutStreams [.calm, .calm, .calm]
      (twoUnits.start withoutStreams 0 .start)).world.printed.getD 1
        (0, newSeparationResults 0 0)).2) ∈
      (run twoUnits withoutStreams [.calm, .calm, .calm]
        (twoUnits.start withoutStreams 0 .start)).world.printed := by
    decide +kernel
  have alone : Uninterrupted secondUnit withoutStreams [.calm, .calm]
      (secondUnit.start withoutStreams 0 .start) := by
    decide +kernel
  exact ⟨_, second, run_batch_eq_run_only rfl rfl (by decide) (by decide +kernel) (by decide)
    alone second⟩

end MilkyWay.Separation
