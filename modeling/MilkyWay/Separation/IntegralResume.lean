import MilkyWay.Separation.Integrals

/-! Interrupted integrals. A run of the integrals that is stopped at steps in mu and goes
on from its checkpoints takes each integral from the sums of the run that is never
stopped, as long as the sums that are saved absorb their corrections: to read a
checkpoint back adds an empty sum to each of its sums. -/

namespace MilkyWay.Separation

open Foundation

section
variable {R : Type}

def Same (s t : EvaluationState R) : Prop := ∃ last, t = { s with lastCheckpointNuStep := last }

theorem Same.refl (s : EvaluationState R) : Same s s := ⟨s.lastCheckpointNuStep, rfl⟩

theorem Same.symm {s t : EvaluationState R} (same : Same s t) : Same t s := by
  obtain ⟨last, rfl⟩ := same
  exact ⟨s.lastCheckpointNuStep, rfl⟩

theorem Same.trans {r s t : EvaluationState R} (first : Same r s) (second : Same s t) :
    Same r t := by
  obtain ⟨last, rfl⟩ := first
  obtain ⟨last', rfl⟩ := second
  exact ⟨last', rfl⟩

theorem same_writeCheckpoint (es : EvaluationState R) : Same es (writeCheckpoint es) :=
  ⟨es.nu_step, rfl⟩

structure Untouched (s t : EvaluationState R) : Prop where
  currentWU : t.currentWU = s.currentWU
  WUPrinted : t.WUPrinted = s.WUPrinted
  cuts : t.cuts = s.cuts
  currentCut : t.currentCut = s.currentCut
  bgSumCheckpoint : t.bgSumCheckpoint = s.bgSumCheckpoint
  streamSumsCheckpoint : t.streamSumsCheckpoint = s.streamSumsCheckpoint

namespace Untouched

theorem refl (s : EvaluationState R) : Untouched s s := ⟨rfl, rfl, rfl, rfl, rfl, rfl⟩

theorem trans {r s t : EvaluationState R} (first : Untouched r s) (second : Untouched s t) :
    Untouched r t where
  currentWU := second.currentWU.trans first.currentWU
  WUPrinted := second.WUPrinted.trans first.WUPrinted
  cuts := second.cuts.trans first.cuts
  currentCut := second.currentCut.trans first.currentCut
  bgSumCheckpoint := second.bgSumCheckpoint.trans first.bgSumCheckpoint
  streamSumsCheckpoint := second.streamSumsCheckpoint.trans first.streamSumsCheckpoint

theorem noneKept [Zero R] {s t : EvaluationState R} (untouched : Untouched s t)
    (none : s.NoneKept) : t.NoneKept := by
  obtain ⟨bg, streams⟩ := none
  constructor
  · rw [untouched.bgSumCheckpoint, bg]
  · rw [untouched.streamSumsCheckpoint]
    exact streams

end Untouched

end

section
variable {R : Type} [Zero R] [Add R] [Neg R] [Sub R] [Mul R] [Div R] [OfScientific R] [NatCast R]
  [IntCast R] [BEq R] [LT R] [DecidableLT R] [LE R] [DecidableLE R]
variable {E : Integration R} {ap : AstronomyParameters R} {sc : List (StreamConstants R)}
  {ia : IntegralArea R}

/-! ## What the loops leave alone -/

omit [BEq R] in
theorem ends_muTurn (nuid : NuId R) (o : Oracle (EvaluationState R)) (es : EvaluationState R) :
    Ends (fun t => (Untouched es t ∧ t.nu_step = es.nu_step) ∧ t.mu_step = es.mu_step + 1)
      (fun c => (Untouched es c ∧ c.nu_step = es.nu_step) ∧ c.mu_step = es.mu_step)
      (fun _ => True)
      (((opportunity writeCheckpoint).andThen fun es => .ok (muStep E ap sc ia nuid es)) o es :
        Except (Halt _ ℤ) _) := by
  refine Ends.bind (Q := fun t => (Untouched es t ∧ t.nu_step = es.nu_step) ∧
    t.mu_step = es.mu_step) (ends_opportunity o ?_ ?_ ?_) ?_
  · exact ⟨⟨.refl es, rfl⟩, rfl⟩
  · exact ⟨⟨⟨rfl, rfl, rfl, rfl, rfl, rfl⟩, rfl⟩, rfl⟩
  · exact ⟨⟨⟨rfl, rfl, rfl, rfl, rfl, rfl⟩, rfl⟩, rfl⟩
  · rintro t ⟨⟨untouched, nu⟩, mu⟩
    refine ⟨⟨untouched.trans ⟨rfl, rfl, rfl, rfl, rfl, rfl⟩, nu⟩, ?_⟩
    exact congrArg (· + 1) mu

omit [BEq R] in
theorem ends_mu_sum (nuid : NuId R) (o : Oracle (EvaluationState R)) (es : EvaluationState R) :
    Ends (fun t => Untouched es t ∧ t.nu_step = es.nu_step)
      (fun c => Untouched es c ∧ c.nu_step = es.nu_step)
      (fun _ => True) (mu_sum E ap sc ia nuid o es) := by
  refine Ends.bind (ends_forLoop (I := fun t => Untouched es t ∧ t.nu_step = es.nu_step)
    (S := fun c => Untouched es c ∧ c.nu_step = es.nu_step) ?_ ⟨.refl es, rfl⟩) ?_
  · rintro s ⟨untouched, nu⟩ -
    refine (ends_muTurn nuid o s).mono ?_ ?_ fun _ _ => trivial
    · rintro t ⟨⟨untouched', nu'⟩, mu⟩
      exact ⟨⟨untouched.trans untouched', nu'.trans nu⟩, mu⟩
    · rintro c ⟨⟨untouched', nu'⟩, -⟩
      exact ⟨untouched.trans untouched', nu'.trans nu⟩
  · rintro t ⟨⟨untouched, nu⟩, -⟩
    exact ⟨untouched.trans ⟨rfl, rfl, rfl, rfl, rfl, rfl⟩, nu⟩

omit [BEq R] in
theorem ends_nuTurn (o : Oracle (EvaluationState R)) (es : EvaluationState R) :
    Ends (fun t => Untouched es t ∧ t.nu_step = es.nu_step + 1)
      (fun c => Untouched es c ∧ c.nu_step = es.nu_step) (fun _ => True)
      ((mu_sum E ap sc ia (calcNuStep E.L ia es.nu_step)).andThen
        (fun es => .ok { es with nu_step := es.nu_step + 1 }) o es) := by
  refine (ends_mu_sum _ o es).bind ?_
  rintro t ⟨untouched, nu⟩
  exact ⟨untouched.trans ⟨rfl, rfl, rfl, rfl, rfl, rfl⟩, congrArg (· + 1) nu⟩

omit [BEq R] in
theorem ends_nuSum (o : Oracle (EvaluationState R)) (es : EvaluationState R) :
    Ends (Untouched es) (Untouched es) (fun _ => True) (nuSum E ap sc ia o es) := by
  refine Ends.bind (ends_forLoop (I := Untouched es) (S := Untouched es) ?_ (.refl es)) ?_
  · intro s untouched _
    refine (ends_nuTurn o s).mono ?_ ?_ fun _ _ => trivial
    · exact fun t ends => ⟨untouched.trans ends.1, ends.2⟩
    · exact fun c ends => untouched.trans ends.1
  · rintro t ⟨untouched, -⟩
    exact untouched.trans ⟨rfl, rfl, rfl, rfl, rfl, rfl⟩

theorem ends_integrate (o : Oracle (EvaluationState R)) (es : EvaluationState R) :
    Ends (fun t => t.currentCut = es.currentCut ∧ (es.NoneKept → t.NoneKept))
      (fun c => c.currentCut = es.currentCut ∧ (es.NoneKept → c.NoneKept))
      (fun _ => True) (integrate E ap sc ia o es) := by
  unfold integrate
  by_cases flat : ap.q == 0.0
  · rw [if_pos flat]
    trivial
  · rw [if_neg flat]
    refine ((ends_nuSum o es).mono (fun _ => id) ?_ fun _ => id).bind ?_
    · exact fun c untouched => ⟨untouched.currentCut, untouched.noneKept⟩
    · exact fun t untouched => ⟨untouched.currentCut, untouched.noneKept⟩

theorem ends_cutTurn (o : Oracle (Progress R)) (p : Progress R) :
    Ends (fun t => t.1.currentCut = p.1.currentCut + 1 ∧ (p.1.NoneKept → t.1.NoneKept))
      (fun c => c.1.currentCut = p.1.currentCut ∧ (p.1.NoneKept → c.1.NoneKept))
      (fun _ => True)
      ((integrate E ap sc (E.ias p.1.currentCut)).beside.andThen (finishCut E sc) o p) := by
  refine ((ends_beside (ends_integrate _ p.1)).mono (fun _ => id) (fun _ => And.left)
    fun _ _ => trivial).bind ?_
  rintro t ⟨⟨cut, none⟩, -⟩
  unfold finishCut
  dsimp only
  split
  · trivial
  · exact ⟨congrArg (· + 1) cut, none⟩

theorem ends_calculateOnCPU (o : Oracle (Progress R)) (p : Progress R) (none : p.1.NoneKept) :
    Ends (fun _ => True) (fun c => c.1.NoneKept) (fun _ => True)
      (calculateOnCPU E ap sc o p) := by
  unfold calculateOnCPU calculateIntegrals
  refine (ends_forLoop (I := fun t : Progress R => t.1.NoneKept) ?_ none).mono
    (fun _ _ => trivial) (fun _ => id) fun _ => id
  intro s none _
  exact (ends_cutTurn o s).mono (fun t ends => ⟨ends.2 none, ends.1⟩)
    (fun c ends => ends.2 none) fun _ => id

/-! ## The loops resume -/

omit [BEq R] in
theorem resumable_mu_sum (nuid : NuId R) : Resumable Same (mu_sum E ap sc ia nuid) := by
  refine Resumable.andThen (resumable_forLoop (Resumable.andThen (resumable_opportunity ?_)
    nofun ?_) ?_ ?_) nofun ?_
  · exact fun s s' same => (same_writeCheckpoint s).symm.trans same
  · rintro t - ⟨last, rfl⟩
    exact ⟨last, rfl⟩
  · rintro s - ⟨last, rfl⟩
    rfl
  · exact fun o s => (ends_muTurn nuid o s).mono (fun _ ends => ends.2) (fun _ ends => ends.2)
      fun _ => id
  · rintro t - ⟨last, rfl⟩
    exact ⟨last, rfl⟩

omit [BEq R] in
theorem resumable_nuSum : Resumable Same (nuSum E ap sc ia) := by
  refine Resumable.andThen (resumable_forLoop (resumable_at (·.nu_step)
    (fun nu => (mu_sum E ap sc ia (calcNuStep E.L ia nu)).andThen
      fun es => .ok { es with nu_step := es.nu_step + 1 })
    (fun nu => (resumable_mu_sum _).andThen nofun ?_) ?_ ?_) ?_ ?_) nofun ?_
  · rintro t - ⟨last, rfl⟩
    exact ⟨last, rfl⟩
  · rintro s - ⟨last, rfl⟩
    rfl
  · exact fun o s => (ends_nuTurn o s).mono (fun _ _ => trivial) (fun _ ends => ends.2)
      fun _ => id
  · rintro s - ⟨last, rfl⟩
    rfl
  · exact fun o s => (ends_nuTurn o s).mono (fun _ ends => ends.2) (fun _ ends => ends.2)
      fun _ => id
  · rintro t - ⟨last, rfl⟩
    exact ⟨last, rfl⟩

theorem resumable_integrate : Resumable Same (integrate E ap sc ia) := by
  by_cases flat : ap.q == 0.0
  · have fails : integrate E ap sc ia = fun _ _ => .error (.failed 1) := by
      funext o es
      rw [integrate, if_pos flat]
    rw [fails]
    exact ⟨nofun, fun _ _ _ _ => rfl⟩
  · have goes : integrate E ap sc ia = (nuSum E ap sc ia).andThen
        fun es => .ok (separationIntegralGetSums es) := by
      funext o es
      rw [integrate, if_neg flat]
    rw [goes]
    refine resumable_nuSum.andThen nofun ?_
    rintro t - ⟨last, rfl⟩
    exact ⟨last, rfl⟩

abbrev SameProgress (p q : Progress R) : Prop := Same p.1 q.1 ∧ p.2 = q.2

theorem resumable_calculateOnCPU : Resumable SameProgress (calculateOnCPU E ap sc) := by
  refine resumable_forLoop (resumable_at (fun p : Progress R => p.1.currentCut)
    (fun cut => (integrate E ap sc (E.ias cut)).beside.andThen (finishCut E sc))
    (fun cut => resumable_integrate.beside.andThen ?_ ?_) ?_ ?_) ?_ ?_
  · intro s c stopped
    unfold finishCut at stopped
    dsimp only at stopped
    split at stopped <;> cases stopped
  · rintro ⟨t, taken⟩ ⟨-, -⟩ ⟨⟨last, rfl⟩, rfl⟩
    unfold finishCut
    dsimp only
    split
    · rfl
    · exact ⟨⟨last, rfl⟩, rfl⟩
  · rintro ⟨s, taken⟩ ⟨-, -⟩ ⟨⟨last, rfl⟩, rfl⟩
    rfl
  · exact fun o s => (ends_cutTurn o s).mono (fun _ _ => trivial) (fun _ ends => ends.1)
      fun _ => id
  · rintro ⟨s, taken⟩ ⟨-, -⟩ ⟨⟨last, rfl⟩, rfl⟩
    rfl
  · exact fun o s => (ends_cutTurn o s).mono (fun _ ends => ends.1) (fun _ ends => ends.1)
      fun _ => id

/-- However often a run is stopped and goes on from its checkpoint, each integral is taken
from the sums and corrections of the run that is never stopped, if the sums that are read
back absorb their corrections. -/
theorem calculateOnCPU_sessions (os : List (Oracle (Progress R)))
    (absorbs : Restarts (calculateOnCPU E ap sc) readProgress (fun c => c.1.Absorbs) os
      (newProgress ap)) :
    (sessions (calculateOnCPU E ap sc) readProgress os (newProgress ap)).map
        (fun p => (p.2, p.1.cuts)) =
      (calculateOnCPU E ap sc quiet (newProgress ap)).map fun p => (p.2, p.1.cuts) := by
  have found : Restarts (calculateOnCPU E ap sc) readProgress
      (fun c => SameProgress (readProgress c) c) os (newProgress ap) := by
    refine absorbs.imp (I := fun p => p.1.NoneKept) (S := fun p => p.1.NoneKept)
      ends_calculateOnCPU ?_ (EvaluationState.noneKept_new ap)
    intro c none absorbs
    refine ⟨?_, EvaluationState.noneKept_read c.1⟩
    rw [readProgress, EvaluationState.readCheckpoint_eq none absorbs]
    exact ⟨.refl c.1, rfl⟩
  refine (sessions_agree ?_ resumable_calculateOnCPU ⟨.refl _, rfl⟩ found).map_eq ?_
  · exact fun first second => ⟨first.1.trans second.1, first.2.trans second.2⟩
  · rintro ⟨t, taken⟩ ⟨-, -⟩ ⟨⟨last, rfl⟩, rfl⟩
    rfl

end

/-! ## An area of three steps -/

/-- The first step of the area is worth one and each other half of the last place of one. -/
def threeSteps : Integration Double where
  L := ⟨id, fun _ => 1.0, id, id, id, fun x => if 0 < x then x else 0, id, fun y _ => y,
    fun x _ => x, fun _ => false⟩
  ias := fun _ => ⟨19.2, 5.0, 0, 90.0, 0, 1.0, 1, 3, 1⟩
  sg := ⟨fun _ => 0, fun _ => 1.0⟩
  probabilityFunc := fun _ _ _ _ _ _ _ reff_xr_rp3 =>
    (if reff_xr_rp3 < 0 then 1.0 else ⟨1 / 2 ^ 53⟩, [])

def oneIntegral : AstronomyParameters Double where
  params_per_workunit := 2
  currentWU := 0
  totalWUs := 1
  m_sun_r0 := -8.5
  q_inv := 1.0
  q_inv_sqr := 1.0
  r0 := 12.0
  convolve := 2
  number_streams := 0
  background_profile := .fastHernquist
  aux_bg_profile := false
  innerPower := 1.0
  outerPower := 1.0
  alpha_delta3 := 3.0
  bg_a := 0
  bg_b := 0
  bg_c := 0
  wedge := 10
  sun_r0 := 8.5
  q := 1.0
  modfit := false
  number_integrals := 1
  background_weight := 1.0
  thick_disk_weight := 0

/-- Stops a run when it comes to a step in nu. -/
def stopAt (nu_step : ℕ) : Oracle (Progress Double) := fun p =>
  if p.1.nu_step = nu_step then .stop else .pass

theorem calculateOnCPU_sessions_threeSteps :
    Restarts (calculateOnCPU threeSteps oneIntegral []) readProgress (fun c => c.1.Absorbs)
        [stopAt 1, stopAt 1] (newProgress oneIntegral) ∧
      (sessions (calculateOnCPU threeSteps oneIntegral []) readProgress [stopAt 1, stopAt 1]
          (newProgress oneIntegral)).map (fun p => (p.2, p.1.cuts)) =
        (calculateOnCPU threeSteps oneIntegral [] quiet (newProgress oneIntegral)).map
          fun p => (p.2, p.1.cuts) :=
  have absorbs : Restarts (calculateOnCPU threeSteps oneIntegral []) readProgress
      (fun c => c.1.Absorbs) [stopAt 1, stopAt 1] (newProgress oneIntegral) := by
    decide +kernel
  ⟨absorbs, calculateOnCPU_sessions _ absorbs⟩

/-- Stopped at the third step the sum comes back too small by a unit in the last place. -/
theorem calculateOnCPU_sessions_lost :
    ¬ (sessions (calculateOnCPU threeSteps oneIntegral []) readProgress [stopAt 2]
          (newProgress oneIntegral)).map (fun p => (p.2, p.1.cuts)) =
        (calculateOnCPU threeSteps oneIntegral [] quiet (newProgress oneIntegral)).map
          fun p => (p.2, p.1.cuts) := by
  intro same
  have sums := congrArg (fun e => e.toOption.map Prod.fst) same
  revert sums
  decide +kernel

end MilkyWay.Separation
