import MilkyWay.Separation.Conservation

/-! The integrals on a device over attempts and checkpoints: each integral is taken from
the contributions of all its steps in nu, each of them once. -/

namespace MilkyWay.Separation

open Foundation

section
variable {R : Type} [AddCommGroup R]

namespace Sums

def of (sums : Sums R) (which : ℕ) : Kahan R :=
  if which = 0 then sums.1 else sums.2.getD (which - 1) 0

def Exact (sums : Sums R) : Prop := sums.1.Exact ∧ ∀ sum ∈ sums.2, sum.Exact

theorem of_succ (sums : Sums R) (j : ℕ) : sums.of (j + 1) = sums.2[j]?.getD 0 := by
  rw [of, if_neg j.succ_ne_zero, Nat.add_sub_cancel, List.getD_eq_getElem?_getD]

theorem of_empty (l : List (Kahan R)) (which : ℕ) :
    of (0, l.map fun _ => (0 : Kahan R)) which = 0 := by
  cases which with
  | zero => rfl
  | succ j =>
      rw [of_succ, List.getElem?_map]
      cases l[j]? with
      | none => rfl
      | some _ => rfl

theorem Exact.of {sums : Sums R} (exact : sums.Exact) (which : ℕ) : (sums.of which).Exact := by
  unfold Sums.of
  split
  · exact exact.1
  · rw [List.getD_eq_getElem?_getD]
    cases found : sums.2[which - 1]? with
    | none => rfl
    | some sum => exact exact.2 sum (List.mem_of_getElem? found)

end Sums

namespace EvaluationState

/-- The sums kept from the device. -/
def kept (es : EvaluationState R) : Sums R := (es.bgSumCheckpoint, es.streamSumsCheckpoint)

structure Sound (nStream : ℕ) (es : EvaluationState R) : Prop where
  exact : es.sums.Exact
  streams : es.streamSums.length = nStream
  streamsKept : es.streamSumsCheckpoint.length = nStream

end EvaluationState

variable {P : ProgramCL R} {nStream : ℕ} {ia : IntegralArea R}

theorem addTmpCheckpointSums_of {es : EvaluationState R} (sound : es.Sound nStream)
    {which : ℕ} (le : which ≤ nStream) :
    (addTmpCheckpointSums es).sums.of which = (es.sums.of which).reduction (es.kept.of which) := by
  cases which with
  | zero => rfl
  | succ j =>
      have found := List.getElem?_eq_getElem (show j < es.streamSums.length by
        rw [sound.streams]
        exact le)
      rw [Sums.of_succ, Sums.of_succ, Sums.of_succ]
      change ((es.streamSums.mapIdx _)[j]?).getD 0 =
        (es.streamSums[j]?.getD 0).reduction (es.streamSumsCheckpoint[j]?.getD 0)
      rw [List.getElem?_mapIdx, found, Option.map_some, Option.getD_some, Option.getD_some,
        List.getD_eq_getElem?_getD]

theorem readKernelResults_kept_of {es : EvaluationState R} (sound : es.Sound nStream)
    (dev : Device R) {which : ℕ} (le : which ≤ nStream) :
    (readKernelResults P ia dev es).kept.of which = runSummarization P ia which dev := by
  cases which with
  | zero => rfl
  | succ j =>
      have found := List.getElem?_eq_getElem (show j < es.streamSumsCheckpoint.length by
        rw [sound.streamsKept]
        exact le)
      rw [Sums.of_succ]
      change ((es.streamSumsCheckpoint.mapIdx _)[j]?).getD 0 = _
      rw [List.getElem?_mapIdx, found, Option.map_some, Option.getD_some]

theorem addTmpCheckpointSums_sound {es : EvaluationState R} (sound : es.Sound nStream)
    (kept : es.kept.Exact) :
    (addTmpCheckpointSums es).Sound nStream ∧ (addTmpCheckpointSums es).NoneKept ∧
      ∀ which ≤ nStream, ((addTmpCheckpointSums es).sums.of which).sum =
        (es.sums.of which).sum + (es.kept.of which).sum := by
  refine ⟨⟨⟨?_, ?_⟩, ?_, ?_⟩, EvaluationState.noneKept_read es, ?_⟩
  · exact (sound.exact.1.reduction kept.1).1
  · intro sum mem
    obtain ⟨i, lt, rfl⟩ := List.mem_mapIdx.mp mem
    exact ((sound.exact.2 _ (List.getElem_mem lt)).reduction (kept.of (i + 1))).1
  · exact (List.length_mapIdx ..).trans sound.streams
  · exact (List.length_map ..).trans sound.streamsKept
  · intro which le
    rw [addTmpCheckpointSums_of sound le]
    exact ((sound.exact.of which).reduction (kept.of which)).2

theorem readKernelResults_sound {es : EvaluationState R} (sound : es.Sound nStream)
    {dev : Device R} (exact : dev.Exact) :
    (readKernelResults P ia dev es).Sound nStream ∧ (readKernelResults P ia dev es).kept.Exact ∧
      ∀ which ≤ nStream, ((readKernelResults P ia dev es).kept.of which).sum =
        readAmount P ia which dev.amount := by
  refine ⟨⟨sound.exact, sound.streams, (List.length_mapIdx ..).trans sound.streamsKept⟩,
    ⟨?_, ?_⟩, ?_⟩
  · exact (runSummarization_exact P ia 0 exact).1
  · intro sum mem
    obtain ⟨i, lt, rfl⟩ := List.mem_mapIdx.mp mem
    exact (runSummarization_exact P ia (i + 1) exact).1
  · intro which le
    rw [readKernelResults_kept_of sound dev le]
    exact (runSummarization_exact P ia which exact).2

/-! ## One integral -/

def contributed (P : ProgramCL R) (nStream : ℕ) (ia : IntegralArea R) (which steps : ℕ) : R :=
  ∑ nu_step ∈ Finset.range steps, contribution P nStream ia which nu_step

variable (P nStream ia)

structure Partial (es : EvaluationState R) : Prop where
  sound : es.Sound nStream
  none : es.NoneKept
  balance : ∀ which ≤ nStream,
    (es.sums.of which).sum = contributed P nStream ia which es.nu_step
  within : es.nu_step ≤ ia.nu_steps

structure Running (start : EvaluationState R) (p : EvaluationState R × Device R) : Prop where
  sound : p.1.Sound nStream
  exact : p.2.Exact
  balance : ∀ which ≤ nStream, (p.1.sums.of which).sum + readAmount P ia which p.2.amount =
    contributed P nStream ia which p.1.nu_step
  within : p.1.nu_step ≤ ia.nu_steps
  cuts : p.1.cuts = start.cuts
  currentCut : p.1.currentCut = start.currentCut

structure Saved (start c : EvaluationState R) : Prop where
  sound : c.Sound nStream
  kept : c.kept.Exact
  balance : ∀ which ≤ nStream, (c.sums.of which).sum + (c.kept.of which).sum =
    contributed P nStream ia which c.nu_step
  within : c.nu_step ≤ ia.nu_steps
  cuts : c.cuts = start.cuts
  currentCut : c.currentCut = start.currentCut

structure Complete (start t : EvaluationState R) : Prop where
  sound : t.Sound nStream
  none : t.NoneKept
  nu_step : t.nu_step = 0
  balance : ∀ which ≤ nStream,
    (t.sums.of which).sum = contributed P nStream ia which ia.nu_steps
  cuts : t.cuts = start.cuts
  currentCut : t.currentCut = start.currentCut

variable {P nStream ia} {start : EvaluationState R}

theorem Partial.running {es : EvaluationState R} (part : Partial P nStream ia es) :
    Running P nStream ia es (es, .zero) where
  sound := part.sound
  exact := Device.zero_exact
  balance which le := by rw [Device.zero_amount, readAmount_zero, add_zero, part.balance which le]
  within := part.within
  cuts := rfl
  currentCut := rfl

theorem Running.saved {p : EvaluationState R × Device R}
    (running : Running P nStream ia start p) :
    Saved P nStream ia start (writeCheckpoint (readKernelResults P ia p.2 p.1)) := by
  obtain ⟨sound, kept, read⟩ : (readKernelResults P ia p.2 p.1).Sound nStream ∧ _ ∧ _ :=
    readKernelResults_sound running.sound running.exact
  refine ⟨⟨sound.exact, sound.streams, sound.streamsKept⟩, kept, fun which le => ?_,
    running.within, running.cuts, running.currentCut⟩
  exact (congrArg _ (read which le)).trans (running.balance which le)

theorem Saved.read {c : EvaluationState R} (saved : Saved P nStream ia start c) :
    Partial P nStream ia (readCheckpoint c) := by
  obtain ⟨sound, none, sum⟩ := addTmpCheckpointSums_sound saved.sound saved.kept
  exact ⟨sound, none, fun which le => (sum which le).trans (saved.balance which le), saved.within⟩

theorem ends_checkpointCL (o : Oracle (EvaluationState R × Device R))
    {p : EvaluationState R × Device R} (running : Running P nStream ia start p) :
    Ends (fun t => Running P nStream ia start t ∧ t.1.nu_step = p.1.nu_step)
      (fun c => Saved P nStream ia start c.1) (fun _ => True) (checkpointCL P ia o p) := by
  have saved := running.saved
  have goes : Running P nStream ia start (writeCheckpoint (readKernelResults P ia p.2 p.1), p.2) :=
    ⟨saved.sound, running.exact, running.balance, running.within, saved.cuts, saved.currentCut⟩
  unfold checkpointCL
  split
  · split
    · exact ⟨running, rfl⟩
    · split
      · trivial
      · exact ends_opportunity o ⟨running, rfl⟩ ⟨goes, rfl⟩ saved
  · exact ⟨running, rfl⟩

theorem ends_nuStepCL {p : EvaluationState R × Device R}
    (running : Running P nStream ia start p) (less : p.1.nu_step < ia.nu_steps) :
    Ends (fun t => Running P nStream ia start t ∧ t.1.nu_step = p.1.nu_step + 1)
      (fun c => Saved P nStream ia start c.1) (fun _ => True) (nuStepCL P nStream ia p) := by
  unfold nuStepCL
  split
  · trivial
  · have step := fun which => readAmount_runNuStep P nStream ia which p.1.nu_step running.exact
    refine ⟨⟨⟨running.sound.exact, running.sound.streams, running.sound.streamsKept⟩, (step 0).1,
      fun which le => ?_, less, running.cuts, running.currentCut⟩, rfl⟩
    change (p.1.sums.of which).sum + _ = contributed P nStream ia which (p.1.nu_step + 1)
    rw [(step which).2, ← add_assoc, running.balance which le, contributed, contributed,
      Finset.sum_range_succ]

theorem ends_finishCL {p : EvaluationState R × Device R}
    (running : Running P nStream ia start p) (all : p.1.nu_step = ia.nu_steps) :
    Ends (fun t => Complete P nStream ia start t.1)
      (fun c => Saved P nStream ia start c.1) (fun _ => True) (finishCL P ia p) := by
  unfold finishCL
  split
  · trivial
  · have rewound : ({ p.1 with nu_step := 0 } : EvaluationState R).Sound nStream :=
      ⟨running.sound.exact, running.sound.streams, running.sound.streamsKept⟩
    obtain ⟨sound, kept, read⟩ : (readKernelResults P ia p.2
        { p.1 with nu_step := 0 }).Sound nStream ∧ _ ∧ _ :=
      readKernelResults_sound rewound running.exact
    obtain ⟨sound', none, sum⟩ := addTmpCheckpointSums_sound sound kept
    refine ⟨sound', none, rfl, fun which le => ?_, running.cuts, running.currentCut⟩
    calc ((addTmpCheckpointSums _).sums.of which).sum
        = (p.1.sums.of which).sum + _ := sum which le
      _ = (p.1.sums.of which).sum + readAmount P ia which p.2.amount := by rw [read which le]
      _ = contributed P nStream ia which ia.nu_steps := by rw [running.balance which le, all]

theorem ends_integrateCL (o : Oracle (EvaluationState R)) {es : EvaluationState R}
    (part : Partial P nStream ia es) :
    Ends (fun t => ∃ t', Complete P nStream ia es t' ∧ t = separationIntegralGetSums t')
      (Saved P nStream ia es) (fun _ => True) (integrateCL P nStream ia o es) := by
  refine Ends.bind (ends_within (Q := fun t => Complete P nStream ia es t)
    (S := Saved P nStream ia es) ?_) fun t complete => ⟨t, complete, rfl⟩
  refine Ends.bind (ends_forLoop (I := Running P nStream ia es)
    (S := fun c => Saved P nStream ia es c.1) ?_ part.running) ?_
  · intro p running less
    refine (ends_checkpointCL _ running).bind ?_
    rintro t ⟨running', same⟩
    rw [← same] at less ⊢
    exact ends_nuStepCL running' less
  · rintro t ⟨running, all⟩
    exact ends_finishCL running (Nat.le_antisymm running.within all)

/-! ## All integrals -/

/-- Each integral is taken from what all the steps of its area contribute. -/
def Conserved (P : ProgramCL R) (nStream : ℕ) (E : Integration R) (taken : List (Sums R)) : Prop :=
  ∀ (i : ℕ) (sums : Sums R), taken[i]? = some sums → ∀ which ≤ nStream,
    (sums.of which).sum = contributed P nStream (E.ias i) which (E.ias i).nu_steps

/-- The integrals in the state are the sums taken, without those of insignificant streams. -/
def Stored [OfScientific R] (sc : List (StreamConstants R)) (p : Progress R) : Prop :=
  ∀ (i : ℕ) (sums : Sums R), p.2[i]? = some sums →
    p.1.cuts[i]? =
      some (Cut.mk sums.1.sum (cleanStreamIntegrals sc (sums.2.map Kahan.sum)))

variable [OfScientific R] {E : Integration R} {sc : List (StreamConstants R)} {n : ℕ}

structure Course (P : ProgramCL R) (nStream : ℕ) (E : Integration R)
    (sc : List (StreamConstants R)) (n : ℕ) (cond : IntegralArea R → EvaluationState R → Prop)
    (p : Progress R) : Prop where
  taken : p.2.length = p.1.currentCut
  conserved : Conserved P nStream E p.2
  stored : Stored sc p
  cuts : p.1.cuts.length = n
  within : p.1.currentCut ≤ n
  state : cond (E.ias p.1.currentCut) p.1

omit [OfScientific R] in
theorem getElem?_append_one {α : Type*} {l : List α} {a b : α} {i : ℕ}
    (found : (l ++ [a])[i]? = some b) : i < l.length ∧ l[i]? = some b ∨ i = l.length ∧ b = a := by
  rcases Nat.lt_trichotomy i l.length with old | rfl | beyond
  · rw [List.getElem?_append_left old] at found
    exact .inl ⟨old, found⟩
  · rw [List.getElem?_concat_length, Option.some.injEq] at found
    exact .inr ⟨rfl, found.symm⟩
  · rw [List.getElem?_eq_none (by rw [List.length_append]; exact beyond)] at found
    cases found

omit [OfScientific R] in
theorem conserved_append {taken : List (Sums R)} {sums : Sums R}
    (conserved : Conserved P nStream E taken)
    (new : ∀ which ≤ nStream, (sums.of which).sum = contributed P nStream (E.ias taken.length)
      which (E.ias taken.length).nu_steps) : Conserved P nStream E (taken ++ [sums]) := by
  intro i other found
  rcases getElem?_append_one found with ⟨-, old⟩ | ⟨rfl, rfl⟩
  · exact conserved i other old
  · exact new

theorem finishCut_getSums (t : EvaluationState R) (taken : List (Sums R))
    (lt : t.currentCut < t.cuts.length) :
    finishCut E sc (separationIntegralGetSums t, taken) =
      if E.L.isnan t.bgSum.sum then .error (.failed (1, taken ++ [t.sums]))
      else .ok ({ t with
        cuts := t.cuts.set t.currentCut ⟨t.bgSum.sum,
          cleanStreamIntegrals sc (t.streamSums.map Kahan.sum)⟩
        bgSum := 0
        streamSums := t.streamSums.map fun _ => 0
        currentCut := t.currentCut + 1 }, taken ++ [t.sums]) := by
  have cut : (t.cuts.set t.currentCut ⟨t.bgSum.sum, t.streamSums.map Kahan.sum⟩).getD
      t.currentCut ⟨0, []⟩ = ⟨t.bgSum.sum, t.streamSums.map Kahan.sum⟩ := by
    rw [List.getD_eq_getElem?_getD, List.getElem?_set_self lt, Option.getD_some]
  unfold finishCut separationIntegralGetSums
  dsimp only
  rw [cut, List.set_set]
  rfl

theorem ends_cutTurnCL (o : Oracle (Progress R)) {p : Progress R}
    (course : Course P nStream E sc n (Partial P nStream) p) (less : p.1.currentCut < n) :
    Ends (fun t => Course P nStream E sc n (Partial P nStream) t ∧
        t.1.currentCut = p.1.currentCut + 1)
      (Course P nStream E sc n fun ia c => ∃ start, Saved P nStream ia start c)
      (fun f => Conserved P nStream E f.2)
      ((integrateCL P nStream (E.ias p.1.currentCut)).beside.andThen (finishCut E sc) o p) := by
  refine ((ends_beside (ends_integrateCL _ course.state)).mono (fun _ => id) ?_ ?_).bind ?_
  · rintro ⟨c, taken⟩ ⟨saved, rfl⟩
    refine ⟨course.taken.trans saved.currentCut.symm, course.conserved, fun i sums found => ?_,
      ?_, ?_, p.1, ?_⟩
    · change c.cuts[i]? = _
      rw [saved.cuts]
      exact course.stored i sums found
    · change c.cuts.length = n
      rw [saved.cuts, course.cuts]
    · exact saved.currentCut.le.trans course.within
    · change Saved P nStream (E.ias c.currentCut) p.1 c
      rw [saved.currentCut]
      exact saved
  · rintro ⟨rc, taken⟩ ⟨-, rfl⟩
    exact course.conserved
  · rintro ⟨-, taken⟩ ⟨⟨t, complete, rfl⟩, rfl⟩
    have lt : t.currentCut < t.cuts.length := by
      rw [complete.cuts, complete.currentCut, course.cuts]
      exact less
    have conserved : Conserved P nStream E (p.2 ++ [t.sums]) := by
      refine conserved_append course.conserved ?_
      rw [course.taken]
      exact complete.balance
    rw [finishCut_getSums t p.2 lt]
    split
    · exact conserved
    · refine ⟨⟨?_, conserved, ?_, ?_, ?_, ?_⟩, congrArg (· + 1) complete.currentCut⟩
      · rw [List.length_append, course.taken, ← complete.currentCut]
        rfl
      · intro i sums found
        dsimp only
        rcases getElem?_append_one found with ⟨old, found⟩ | ⟨rfl, rfl⟩
        · rw [List.getElem?_set_ne, complete.cuts]
          · exact course.stored i sums found
          · rw [complete.currentCut, ← course.taken]
            exact old.ne'
        · rw [course.taken, ← complete.currentCut, List.getElem?_set_self lt]
          rfl
      · rw [List.length_set, complete.cuts, course.cuts]
      · exact (congrArg (· + 1) complete.currentCut).le.trans less
      · refine ⟨⟨⟨rfl, ?_⟩, ?_, complete.sound.streamsKept⟩, complete.none, fun which le => ?_, ?_⟩
        · intro sum mem
          obtain ⟨_, -, rfl⟩ := List.mem_map.mp mem
          rfl
        · exact (List.length_map ..).trans complete.sound.streams
        · refine (congrArg Kahan.sum (Sums.of_empty t.streamSums which)).trans ?_
          change 0 = contributed P nStream _ which t.nu_step
          rw [complete.nu_step, contributed, Finset.sum_range_zero]
        · exact (Nat.le_of_eq complete.nu_step).trans (Nat.zero_le _)

theorem course_new (ap : AstronomyParameters R) :
    Course P ap.number_streams E sc ap.number_integrals (Partial P ap.number_streams)
      (newProgress ap) where
  taken := rfl
  conserved i sums found := by cases found
  stored i sums found := by cases found
  cuts := List.length_replicate
  within := Nat.zero_le _
  state := by
    have sums : (newEvaluationState ap).sums =
        (0, (List.replicate ap.number_streams (0 : Kahan R)).map fun _ => 0) := by
      rw [List.map_replicate]
      rfl
    refine ⟨⟨⟨rfl, fun sum mem => ?_⟩, List.length_replicate, List.length_replicate⟩,
      EvaluationState.noneKept_new ap, fun which le => ?_, Nat.zero_le _⟩
    · rw [List.eq_of_mem_replicate mem]
      rfl
    · change ((newEvaluationState ap).sums.of which).sum = _
      rw [sums, Sums.of_empty]
      exact (Finset.sum_range_zero _).symm

theorem Course.read {c : Progress R}
    (course : Course P nStream E sc n (fun ia c => ∃ start, Saved P nStream ia start c) c) :
    Course P nStream E sc n (Partial P nStream) (readProgress c) := by
  obtain ⟨start, saved⟩ := course.state
  exact ⟨course.taken, course.conserved, course.stored, course.cuts, course.within, saved.read⟩

/-- Whatever attempts and checkpoints there are, each integral on a device is the sum of
what its steps in nu contribute, for the background and for each stream. In work-groups of a
power of two a step contributes the sum over all items of the area. -/
theorem calculateOnCL_sessions (P : ProgramCL R) (E : Integration R) (ap : AstronomyParameters R)
    (sc : List (StreamConstants R)) (os : List (Oracle (Progress R))) :
    Ends (fun p => p.2.length = ap.number_integrals ∧ Conserved P ap.number_streams E p.2 ∧
        Stored sc p)
      (fun c => Conserved P ap.number_streams E c.2)
      (fun f => Conserved P ap.number_streams E f.2)
      (sessions (calculateIntegrals E ap sc (integrateCL P ap.number_streams)) readProgress os
        (newProgress ap)) ∧
    ∀ m, 0 < m → P.summarizationWorkgroupSize = 2 ^ m → ∀ ia which nu_step,
      contribution P ap.number_streams ia which nu_step =
        ∑ i ∈ Finset.range (ia.r_steps * ia.mu_steps),
          itemAmount ia which (runNuStep P ap.number_streams ia nu_step .zero).amount i := by
  constructor
  · have attempt : ∀ o p, Course P ap.number_streams E sc ap.number_integrals
        (Partial P ap.number_streams) p → Ends _ _ _ (calculateIntegrals E ap sc
          (integrateCL P ap.number_streams) o p) :=
      fun o p course => ends_forLoop (fun p course less => ends_cutTurnCL o course less) course
    have ends := ends_sessions attempt (fun c course _ => course.read) (course_new ap)
      (restarts_of_forall (P := fun _ => True) (fun _ => trivial) os _)
    refine ends.mono ?_ (fun c course => course.conserved) fun f => id
    rintro p ⟨course, all⟩
    exact ⟨course.taken.trans (Nat.le_antisymm course.within all), course.conserved,
      course.stored⟩
  · intro m grouped size ia which nu_step
    obtain ⟨δ, adds⟩ := runNuStep_adds P ap.number_streams ia nu_step
    rw [contribution, (runSummarization_exact P ia which (adds .zero Device.zero_exact).1).2,
      readAmount_sum P ia grouped size]

end

end MilkyWay.Separation
