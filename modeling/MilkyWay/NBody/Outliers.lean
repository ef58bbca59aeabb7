import MilkyWay.Foundation.Clipping
import MilkyWay.NBody.NormalizedHistogram

/-! The books of the outliers. Each pass over the bodies cuts with what the one before
left in a bin; a bin that is left with few bodies keeps the dispersion of more. -/

namespace MilkyWay.NBody

open Foundation

section
variable {F : Type} [Field F] [LinearOrder F]

def entryBin : Fin 6 → WorkEntry F → Option ℕ :=
  ![fun _ => none, (·.use_betabody), (·.use_velbody), (·.use_velbody), (·.use_betabody),
    (·.use_distbody)]

def entryVar : Fin 6 → WorkEntry F → F :=
  ![fun _ => 0, (·.betas), (·.vlos), (·.vlos), (·.betas), (·.distances)]

def bodyValue (lib : TrigLib F) (ctx : HistogramCtx F) (hp : HistogramParams F) (b : Body F) :
    Fin 6 → F :=
  let beta := (nbXYZToLambdaBeta lib hp b.pos ctx.sunGCDist).2
  let v_line_of_sight := calc_vLOS lib b.vel b.pos ctx.sunGCDist
  ![0, beta, v_line_of_sight, v_line_of_sight, beta, calc_distance lib b.pos ctx.sunGCDist]

/-- What a histogram is about, of the bodies in a bin. -/
def binValues (lib : TrigLib F) (ctx : HistogramCtx F) (hp : HistogramParams F) (k : Fin 6)
    (bodies : List (Body F)) (n : ℕ) : List F :=
  (bodies.filter fun b => histSlot lib ctx hp b = some n).map fun b => bodyValue lib ctx hp b k

/-- A pass over the bins of a histogram. -/
inductive OutlierPass (F : Type) where
  | remove (sigma_cutoff : F)
  | disp (initial : Bool) (correction_factor : F)

def runPass (lib : TrigLib F) (bodies : List (Body F)) (work : List (WorkEntry F)) (k : Fin 6)
    (nBin : ℕ) (h : CountedHistogram F) : OutlierPass F → Option (CountedHistogram F)
  | .remove sigma_cutoff =>
      nbRemoveOutliers bodies work (entryBin k) (entryVar k) sigma_cutoff nBin h
  | .disp initial correction_factor => nbCalcDisp lib initial correction_factor h

/-- What a pass does to a bin: the bodies outside the cut are left out, or the dispersion
is that of the bodies left, if they are more than ten. -/
def OutlierPass.clip (lib : TrigLib F) (values : List F) (c : Clipped F) :
    OutlierPass F → Clipped F
  | .remove sigma_cutoff => c.cut values sigma_cutoff
  | .disp initial correction_factor =>
      c.measure lib.sqrt 10 (if initial then 1 else correction_factor)

/-- A bin holds the sums of the bodies that are kept, and how many are not. -/
structure Books (values : List F) (bin : CountedBin F) (c : Clipped F) : Prop where
  rawCount : bin.rawCount = values.length
  whole : c.kept.length + c.removed = values.length
  outliersRemoved : bin.outliersRemoved = (c.removed : F)
  sum : bin.sum = c.kept.sum
  sq_sum : bin.sq_sum = (c.kept.map fun x => x * x).sum
  variable_ : bin.variable_ = c.disp
  err : bin.err = c.err

/-- What the root is taken of, but for the correction. -/
def dispsq (bin : CountedBin F) : F :=
  let count := (bin.rawCount : F) - bin.outliersRemoved
  let n_new := count - 1.0
  bin.sq_sum / n_new - count / n_new * sqr (bin.sum / count)

variable {lib : TrigLib F} {ctx : HistogramCtx F} {hp : HistogramParams F} {k : Fin 6}
  {bodies done : List (Body F)} {b : Body F} {n : ℕ} {values : List F} {bin : CountedBin F}
  {c : Clipped F}

/-! ## What the pass over the bodies gathers -/

omit [LinearOrder F] in
theorem entryBin_entryOf (counts : k ≠ 0) (b : Body F) :
    entryBin k (entryOf lib ctx hp b) = histSlot lib ctx hp b := by
  unfold entryOf
  cases slot : histSlot lib ctx hp b <;> fin_cases k <;> first | rfl | exact absurd rfl counts

omit [LinearOrder F] in
theorem entryVar_entryOf (slot : histSlot lib ctx hp b = some n) (k : Fin 6) :
    entryVar k (entryOf lib ctx hp b) = bodyValue lib ctx hp b k := by
  rw [entryOf, slot]
  fin_cases k <;> rfl

omit [LinearOrder F] in
theorem bodyVariables_eq (counts : k ≠ 0) (b : Body F) :
    bodyVariables lib ctx hp b k = some (bodyValue lib ctx hp b k) := by
  fin_cases k <;> first | rfl | exact absurd rfl counts

omit [LinearOrder F] in
theorem binValues_snoc (done : List (Body F)) (b : Body F) (n : ℕ) :
    binValues lib ctx hp k (done ++ [b]) n = binValues lib ctx hp k done n ++
      if histSlot lib ctx hp b = some n then [bodyValue lib ctx hp b k] else [] := by
  rw [binValues, List.filter_append, List.map_append, binValues]
  by_cases here : histSlot lib ctx hp b = some n <;> simp [here]

omit [LinearOrder F] in
theorem binValues_skip (done : List (Body F)) {b : Body F} (none_ : histSlot lib ctx hp b = none) :
    binValues lib ctx hp k (done ++ [b]) = binValues lib ctx hp k done := by
  funext n
  rw [binValues_snoc, none_, if_neg (Option.some_ne_none n).symm, List.append_nil]

structure PassGathered (lib : TrigLib F) (ctx : HistogramCtx F) (hp : HistogramParams F) (k : Fin 6)
    (done : List (Body F)) (s : CountState F) : Prop where
  work : ∃ rest, s.work = (done.filter (!ignoreBody ·)).map (entryOf lib ctx hp) ++ rest
  counter : s.ub_counter = (done.filter (!ignoreBody ·)).length
  bins : ∀ h, s.all k = some h → ∀ n, Books (binValues lib ctx hp k done n) (h.data n)
    ⟨binValues lib ctx hp k done n, 0, 0, 0⟩

omit [Field F] [LinearOrder F] in
theorem set_next {done : List (WorkEntry F)} {work rest : List (WorkEntry F)}
    (split : work = done ++ rest) (room : done.length < work.length) (entry : WorkEntry F) :
    ∃ rest', work.set done.length entry = (done ++ [entry]) ++ rest' := by
  subst split
  cases rest with
  | nil => simp at room
  | cons old rest => exact ⟨rest, by simp⟩

omit [LinearOrder F] in
theorem Books.count {h : CountedHistogram F}
    (books : ∀ n, Books (binValues lib ctx hp k done n) (h.data n)
      ⟨binValues lib ctx hp k done n, 0, 0, 0⟩) (counts : k ≠ 0) {m : ℕ}
    (slot : histSlot lib ctx hp b = some m) (n : ℕ) :
    Books (binValues lib ctx hp k (done ++ [b]) n)
      ((h.count m (bodyVariables lib ctx hp b k)).data n)
      ⟨binValues lib ctx hp k (done ++ [b]) n, 0, 0, 0⟩ := by
  have before := books n
  rw [binValues_snoc, bodyVariables_eq counts]
  by_cases own : n = m
  · subst own
    rw [if_pos slot]
    have here : (h.count n (some (bodyValue lib ctx hp b k))).data n =
        { h.data n with
          rawCount := (h.data n).rawCount + 1
          sum := (h.data n).sum + bodyValue lib ctx hp b k
          sq_sum := (h.data n).sq_sum + sqr (bodyValue lib ctx hp b k) } :=
      Function.update_self _ _ _
    rw [here]
    refine ⟨?_, by simp, before.outliersRemoved, ?_, ?_, before.variable_, before.err⟩
    · simp [before.rawCount]
    · simp [before.sum]
    · simp [before.sq_sum, sqr]
  · have other : histSlot lib ctx hp b ≠ some n := by
      rw [slot]
      exact fun same => own (Option.some.inj same).symm
    rw [if_neg other, List.append_nil]
    have there : (h.count m (some (bodyValue lib ctx hp b k))).data n = h.data n :=
      Function.update_of_ne own _ _
    rw [there]
    exact before

omit [LinearOrder F] in
theorem PassGathered.step {s s' : CountState F} (inv : PassGathered lib ctx hp k done s)
    (counts : k ≠ 0) (turn : countBody lib ctx hp s b = some s') :
    PassGathered lib ctx hp k (done ++ [b]) s' := by
  cases ignored : ignoreBody b with
  | true =>
      rw [countBody, if_pos ignored, Option.some.injEq] at turn
      subst turn
      have none_ : histSlot lib ctx hp b = none := histSlot_ignored ignored
      refine ⟨by simpa [ignored] using inv.work, by simpa [ignored] using inv.counter, ?_⟩
      intro h used n
      rw [binValues_snoc, none_, if_neg (Option.some_ne_none n).symm, List.append_nil]
      exact inv.bins h used n
  | false =>
      obtain ⟨rest, work⟩ := inv.work
      have room := room_of_countBody turn ignored
      have kept : (done ++ [b]).filter (!ignoreBody ·) = done.filter (!ignoreBody ·) ++ [b] := by
        simp [ignored]
      have counter : s.ub_counter + 1 = ((done ++ [b]).filter (!ignoreBody ·)).length := by
        rw [kept, List.length_append, inv.counter]
        rfl
      have stored : ∃ rest', s.work.set s.ub_counter (entryOf lib ctx hp b) =
          ((done ++ [b]).filter (!ignoreBody ·)).map (entryOf lib ctx hp) ++ rest' := by
        rw [kept, List.map_append, inv.counter, ← List.length_map (entryOf lib ctx hp)]
        refine set_next work ?_ _
        rw [List.length_map, ← inv.counter]
        exact room
      rw [@countBody_eq F _ lib ctx hp s b ignored room] at turn
      cases slot : histSlot lib ctx hp b with
      | none =>
          rw [slot, Option.some.injEq] at turn
          subst turn
          refine ⟨stored, counter, fun h used n => ?_⟩
          rw [binValues_snoc, slot, if_neg (Option.some_ne_none n).symm, List.append_nil]
          exact inv.bins h used n
      | some m =>
          rw [slot] at turn
          dsimp only at turn
          split at turn
          · rw [Option.some.injEq] at turn
            subst turn
            refine ⟨stored, counter, fun h used n => ?_⟩
            obtain ⟨h₀, before, rfl⟩ := Option.map_eq_some_iff.mp used
            exact Books.count (inv.bins h₀ before) counts slot n
          · cases turn

variable [IsStrictOrderedRing F]

theorem PassGathered.start (st : LikelihoodUse) (simulated : ℕ) (mass : F) (room : ℕ) :
    PassGathered lib ctx hp k [] ⟨startHistograms st hp simulated mass,
      List.replicate room ⟨some 0, some 0, some 0, 0.0, 0.0, 0.0⟩, 0, 0⟩ := by
  refine ⟨⟨_, (List.nil_append _).symm⟩, rfl, fun h used n => ?_⟩
  have zero : (0.0 : F) = 0 := by norm_num
  have fresh : h.data n = clearBin := by
    have start : startHistograms st hp simulated mass k = some h := used
    rw [startHistograms] at start
    split at start
    · rw [← Option.some.inj start]
    · cases start
  rw [fresh]
  exact ⟨rfl, rfl, by simp [clearBin, zero], by simp [clearBin, binValues, zero],
    by simp [clearBin, binValues, zero], zero, zero⟩

theorem gathered_of_pass (st : LikelihoodUse) {simulated room : ℕ} {mass : F}
    {s : CountState F} (counts : k ≠ 0)
    (pass : bodies.foldlM (countBody lib ctx hp) ⟨startHistograms st hp simulated mass,
      List.replicate room ⟨some 0, some 0, some 0, 0.0, 0.0, 0.0⟩, 0, 0⟩ = some s) :
    PassGathered lib ctx hp k bodies s :=
  foldlM_invariant (PassGathered lib ctx hp k) (.start st simulated mass room)
    (fun _ _ _ _ _ _ inv turn => inv.step counts turn) pass

/-! ## What a pass leaves -/

omit [LinearOrder F] [IsStrictOrderedRing F] in
theorem Books.left (books : Books values bin c) :
    (bin.rawCount : F) - bin.outliersRemoved = (c.kept.length : F) := by
  rw [books.rawCount, books.outliersRemoved, ← books.whole, Nat.cast_add, add_sub_cancel_right]

theorem Books.dispsq_eq (books : Books values bin c) (some_ : 1 ≤ c.kept.length) :
    dispsq bin = sampleVariance c.kept := by
  have one : (1.0 : F) = 1 := by norm_num
  have nonzero : (c.kept.length : F) ≠ 0 := Nat.cast_ne_zero.mpr (by omega)
  rw [sampleVariance_eq c.kept nonzero, dispsq]
  simp only [books.left, books.sum, books.sq_sum, one]
  rfl

theorem Books.disp {initial : Bool} {factor : F} (books : Books values bin c) :
    Books values
      (let count := (bin.rawCount : F) - bin.outliersRemoved
        if 10.0 < count then
          let n_new := count - 1.0
          let n_ratio := count / n_new
          let dispsq := bin.sq_sum / n_new - n_ratio * sqr (bin.sum / count)
          let dispsq := if initial then dispsq else dispsq * factor
          let variable_ := lib.sqrt dispsq
          { bin with
            variable_
            err := lib.sqrt ((count + 1) / (count * n_new)) * variable_ }
        else bin)
      (OutlierPass.clip lib values c (.disp initial factor)) := by
  have one : (1.0 : F) = 1 := by norm_num
  have more : (10.0 : F) < (c.kept.length : F) ↔ 10 < c.kept.length := by
    rw [show (10.0 : F) = (10 : ℕ) by norm_num, Nat.cast_lt]
  rw [OutlierPass.clip, Clipped.measure, books.left]
  dsimp only
  by_cases enough : 10 < c.kept.length
  · have variance := books.dispsq_eq (by omega)
    have root : (if initial then dispsq bin else dispsq bin * factor) =
        sampleVariance c.kept * if initial then 1 else factor := by
      rw [variance]
      cases initial <;> simp
    rw [if_pos (more.mpr enough), if_pos enough]
    refine ⟨books.rawCount, books.whole, books.outliersRemoved, books.sum, books.sq_sum, ?_, ?_⟩
    · rw [← root, dispsq, books.left]
    · rw [← root, dispsq, books.left, one]
  · rw [if_neg (more.not.mpr enough), if_neg enough]
    exact books

/-- What passes the cut in a bin. -/
def passes (bin : CountedBin F) (sigma_cutoff : F) (x : F) : Bool :=
  let new_count := (bin.rawCount : F) - bin.outliersRemoved
  decide (new_count ≠ 0 ∧ mw_abs (bin.sum / new_count - x) < sigma_cutoff * bin.variable_)

theorem Books.passes_eq (books : Books values bin c) (sigma_cutoff : F) :
    passes bin sigma_cutoff = c.near sigma_cutoff := by
  funext x
  have some_ : (c.kept.length : F) ≠ 0 ↔ c.kept ≠ [] := by
    rw [Nat.cast_ne_zero, ne_eq, List.length_eq_zero_iff]
  rw [passes, Clipped.near, books.left, books.sum, books.variable_, mw_abs_eq]
  exact decide_eq_decide.mpr (and_congr some_ Iff.rfl)

structure Removing (lib : TrigLib F) (ctx : HistogramCtx F) (hp : HistogramParams F) (k : Fin 6)
    (h : CountedHistogram F) (sigma_cutoff : F) (done : List (Body F)) (s : Removal F) : Prop where
  counter : s.counter = (done.filter (!ignoreBody ·)).length
  temp_sum : ∀ n, s.temp_sum n =
    ((binValues lib ctx hp k done n).filter (passes (h.data n) sigma_cutoff)).sum
  temp_sqr : ∀ n, s.temp_sqr n =
    (((binValues lib ctx hp k done n).filter (passes (h.data n) sigma_cutoff)).map
      fun x => x * x).sum
  temp_removed : ∀ n, s.temp_removed n =
    ((binValues lib ctx hp k done n).countP (!passes (h.data n) sigma_cutoff ·) : F)

omit [LinearOrder F] [IsStrictOrderedRing F] in
theorem tally_update (g : ℕ → List F → F) {t : ℕ → F} {m : ℕ} {a : F}
    (slot : histSlot lib ctx hp b = some m) (tally : ∀ n, t n = g n (binValues lib ctx hp k done n))
    (grows : ∀ l, g m (l ++ [bodyValue lib ctx hp b k]) = g m l + a) (n : ℕ) :
    Function.update t m (t m + a) n = g n (binValues lib ctx hp k (done ++ [b]) n) := by
  rw [binValues_snoc, slot]
  by_cases own : n = m
  · subst own
    rw [Function.update_self, if_pos rfl, grows, tally]
  · rw [Function.update_of_ne own, if_neg fun same => own (Option.some.inj same).symm,
      List.append_nil, tally]

omit [LinearOrder F] [IsStrictOrderedRing F] in
theorem tally_kept (g : ℕ → List F → F) {t : ℕ → F} {m : ℕ}
    (slot : histSlot lib ctx hp b = some m) (tally : ∀ n, t n = g n (binValues lib ctx hp k done n))
    (same : ∀ l, g m (l ++ [bodyValue lib ctx hp b k]) = g m l) (n : ℕ) :
    t n = g n (binValues lib ctx hp k (done ++ [b]) n) := by
  have update := tally_update (a := 0) g slot tally (fun l => (same l).trans (add_zero _).symm) n
  rwa [add_zero, Function.update_eq_self] at update

theorem Removing.step {h : CountedHistogram F} {sigma_cutoff : F} {histBins : ℕ}
    {work rest : List (WorkEntry F)} {after : List (Body F)} {s s' : Removal F} (counts : k ≠ 0)
    (entries : work =
      ((done ++ b :: after).filter (!ignoreBody ·)).map (entryOf lib ctx hp) ++ rest)
    (inv : Removing lib ctx hp k h sigma_cutoff done s)
    (turn : removeBody h work (entryBin k) (entryVar k) sigma_cutoff histBins s b = some s') :
    Removing lib ctx hp k h sigma_cutoff (done ++ [b]) s' := by
  rw [removeBody] at turn
  cases ignored : ignoreBody b with
  | true =>
      rw [if_pos ignored, Option.some.injEq] at turn
      subst turn
      have none_ : histSlot lib ctx hp b = none := histSlot_ignored ignored
      have same := binValues_skip (k := k) done none_
      refine ⟨by simpa [ignored] using inv.counter, ?_, ?_, ?_⟩
      · exact same ▸ inv.temp_sum
      · exact same ▸ inv.temp_sqr
      · exact same ▸ inv.temp_removed
  | false =>
      have counter : s.counter + 1 = ((done ++ [b]).filter (!ignoreBody ·)).length := by
        simp [ignored, inv.counter]
      have here : work[s.counter]? = some (entryOf lib ctx hp b) := by
        rw [entries, inv.counter]
        simp [ignored]
      rw [if_neg (by rw [ignored]; decide), here] at turn
      dsimp only at turn
      rw [entryBin_entryOf counts] at turn
      cases slot : histSlot lib ctx hp b with
      | none =>
          rw [slot, Option.some.injEq] at turn
          subst turn
          have same := binValues_skip (k := k) done slot
          refine ⟨counter, ?_, ?_, ?_⟩
          · exact same ▸ inv.temp_sum
          · exact same ▸ inv.temp_sqr
          · exact same ▸ inv.temp_removed
      | some m =>
          rw [slot] at turn
          dsimp only at turn
          rw [entryVar_entryOf slot] at turn
          let sum := fun n (l : List F) => (l.filter (passes (h.data n) sigma_cutoff)).sum
          let sqr_ := fun n (l : List F) =>
            ((l.filter (passes (h.data n) sigma_cutoff)).map fun x => x * x).sum
          let removed := fun n (l : List F) => (l.countP (!passes (h.data n) sigma_cutoff ·) : F)
          split at turn
          · split at turn
            · rename_i near
              have pass : passes (h.data m) sigma_cutoff (bodyValue lib ctx hp b k) = true :=
                decide_eq_true near
              rw [Option.some.injEq] at turn
              subst turn
              refine ⟨counter, ?_, ?_, ?_⟩
              · exact tally_update sum slot inv.temp_sum fun l => by simp [sum, pass]
              · exact tally_update sqr_ slot inv.temp_sqr fun l => by simp [sqr_, pass]
              · exact tally_kept removed slot inv.temp_removed fun l => by simp [removed, pass]
            · rename_i far
              have fail : passes (h.data m) sigma_cutoff (bodyValue lib ctx hp b k) = false :=
                decide_eq_false far
              have one : (1.0 : F) = 1 := by norm_num
              rw [Option.some.injEq] at turn
              subst turn
              refine ⟨counter, ?_, ?_, ?_⟩
              · exact tally_kept sum slot inv.temp_sum fun l => by simp [sum, fail]
              · exact tally_kept sqr_ slot inv.temp_sqr fun l => by simp [sqr_, fail]
              · exact tally_update removed slot inv.temp_removed fun l => by
                  simp [removed, fail, one]
          · cases turn

theorem Books.remove {h h' : CountedHistogram F} {sigma_cutoff : F} {histBins : ℕ}
    {work rest : List (WorkEntry F)} (counts : k ≠ 0)
    (entries : work = (bodies.filter (!ignoreBody ·)).map (entryOf lib ctx hp) ++ rest)
    (run : nbRemoveOutliers bodies work (entryBin k) (entryVar k) sigma_cutoff histBins h = some h')
    (lt : n < histBins) (books : Books (binValues lib ctx hp k bodies n) (h.data n) c) :
    Books (binValues lib ctx hp k bodies n) (h'.data n)
      (c.cut (binValues lib ctx hp k bodies n) sigma_cutoff) := by
  rw [nbRemoveOutliers] at run
  split at run
  · cases run
  · simp only [Option.bind_eq_bind, Option.bind_eq_some_iff, Option.pure_def,
      Option.some.injEq] at run
    obtain ⟨s, removed, rfl⟩ := run
    have zero : (0.0 : F) = 0 := by norm_num
    have inv : Removing lib ctx hp k h sigma_cutoff bodies s := by
      refine foldlM_invariant (Removing lib ctx hp k h sigma_cutoff) ?_ ?_ removed
      · exact ⟨rfl, fun _ => by simp [binValues, zero], fun _ => by simp [binValues, zero],
          fun _ => by simp [binValues, zero]⟩
      · rintro done b after s s' rfl inv turn
        exact inv.step counts entries turn
    have near := books.passes_eq sigma_cutoff
    simp only [if_pos lt]
    refine ⟨books.rawCount, c.cut_length _ _, ?_, ?_, ?_, books.variable_, books.err⟩
    · rw [inv.temp_removed, near]
      rfl
    · rw [inv.temp_sum, near]
      rfl
    · rw [inv.temp_sqr, near]
      rfl

def KeptBooks (lib : TrigLib F) (ctx : HistogramCtx F) (hp : HistogramParams F) (k : Fin 6)
    (bodies : List (Body F)) (passes : List (OutlierPass F)) (h : CountedHistogram F) : Prop :=
  Shaped hp h ∧ ∀ n < hp.nBin, Books (binValues lib ctx hp k bodies n) (h.data n)
    (passes.foldl (OutlierPass.clip lib (binValues lib ctx hp k bodies n))
      ⟨binValues lib ctx hp k bodies n, 0, 0, 0⟩)

theorem KeptBooks.step {h h' : CountedHistogram F} {work rest : List (WorkEntry F)}
    {before : List (OutlierPass F)} (counts : k ≠ 0)
    (entries : work = (bodies.filter (!ignoreBody ·)).map (entryOf lib ctx hp) ++ rest)
    (kept : KeptBooks lib ctx hp k bodies before h) (p : OutlierPass F)
    (run : runPass lib bodies work k hp.nBin h p = some h') :
    KeptBooks lib ctx hp k bodies (before ++ [p]) h' := by
  obtain ⟨shaped, books⟩ := kept
  cases p with
  | remove sigma_cutoff =>
      refine ⟨shaped.same (nbRemoveOutliers_same run), fun n lt => ?_⟩
      rw [List.foldl_append]
      exact (books n lt).remove counts entries run lt
  | disp initial factor =>
      have fits : h.lambdaBins * h.betaBins < 2 ^ 32 := by
        by_contra wraps
        have stuck : nbCalcDisp lib initial factor h = none := forBins_none (not_lt.mp wraps)
        exact absurd (stuck.symm.trans run) (by simp)
      have bins := run
      rw [runPass, nbCalcDisp, forBins_eq ⟨fun _ _ bin => ?_, fun _ _ _ _ _ => rfl⟩ fits,
        Option.some.injEq] at bins
      · refine ⟨shaped.same (nbCalcDisp_same run), fun n lt => ?_⟩
        have inside : n < h.lambdaBins * h.betaBins := by
          rw [HistogramParams.nBin, ← shaped.1, ← shaped.2, Nat.mod_eq_of_lt fits] at lt
          exact lt
        rw [List.foldl_append, ← bins]
        simp only [treatedBins, if_pos inside]
        exact (books n lt).disp
      · dsimp only
        split <;> rfl

theorem KeptBooks.run {h h' : CountedHistogram F} {work rest : List (WorkEntry F)}
    {before passes : List (OutlierPass F)} (counts : k ≠ 0)
    (entries : work = (bodies.filter (!ignoreBody ·)).map (entryOf lib ctx hp) ++ rest)
    (kept : KeptBooks lib ctx hp k bodies before h)
    (run : passes.foldlM (runPass lib bodies work k hp.nBin) h = some h') :
    KeptBooks lib ctx hp k bodies (before ++ passes) h' := by
  induction passes generalizing before h with
  | nil =>
      rw [List.foldlM_nil, Option.pure_def, Option.some.injEq] at run
      rw [List.append_nil, ← run]
      exact kept
  | cons p passes ih =>
      rw [List.foldlM_cons, Option.bind_eq_bind, Option.bind_eq_some_iff] at run
      obtain ⟨next, turn, run⟩ := run
      have rest := ih (kept.step counts entries p turn) run
      rwa [List.append_assoc] at rest

theorem KeptBooks.start (st : LikelihoodUse) {simulated room : ℕ} {mass : F} {s : CountState F}
    (counts : k ≠ 0)
    (pass : bodies.foldlM (countBody lib ctx hp) ⟨startHistograms st hp simulated mass,
      List.replicate room ⟨some 0, some 0, some 0, 0.0, 0.0, 0.0⟩, 0, 0⟩ = some s)
    {h : CountedHistogram F} (used : totalled s k = some h) :
    KeptBooks lib ctx hp k bodies [] h := by
  have counting : Counting lib ctx hp (startHistograms st hp simulated mass) room bodies s :=
    foldlM_invariant (Counting lib ctx hp (startHistograms st hp simulated mass) room)
      (.start st simulated mass room) (fun done b rest s s' _ inv turn => inv.step turn) pass
  refine ⟨(counting.totalled st used).1, fun n _ => ?_⟩
  rw [totalled, Option.map_eq_some_iff] at used
  obtain ⟨h₁, gathered, rfl⟩ := used
  exact (gathered_of_pass st counts pass).bins h₁ gathered n

/-! ## The passes of a run -/

def sigmaOf (ctx : HistogramCtx F) : Fin 6 → F :=
  ![0, ctx.BetaSigma, ctx.VelSigma, ctx.VelSigma, ctx.BetaSigma, ctx.DistSigma]

def correctOf (ctx : HistogramCtx F) : Fin 6 → F :=
  ![0, ctx.BetaCorrect, ctx.VelCorrect, ctx.VelCorrect, ctx.BetaCorrect, ctx.DistCorrect]

/-- The passes over a histogram: the dispersion first, and then again each time outliers
have been removed. -/
def passesOf (ctx : HistogramCtx F) (k : Fin 6) : List (OutlierPass F) :=
  .disp true (correctOf ctx k) :: (List.replicate ctx.IterMax
    [.remove (sigmaOf ctx k), .disp false (correctOf ctx k)]).flatten

omit [IsStrictOrderedRing F] in
theorem refine_eq (work : List (WorkEntry F)) (sigma correct : F) (nBin : ℕ)
    (h : CountedHistogram F) :
    refine_ lib ctx bodies work (entryBin k) (entryVar k) sigma correct nBin h =
      (List.replicate ctx.IterMax [.remove sigma, .disp false correct]).flatten.foldlM
        (runPass lib bodies work k nBin) h := by
  rw [refine_]
  induction ctx.IterMax with
  | zero => rfl
  | succ m ih =>
      rw [List.range_succ, List.foldlM_append, ih, List.replicate_succ', List.flatten_append,
        List.foldlM_append]
      congr 1
      funext h
      simp only [List.foldlM_cons, List.foldlM_nil, bind_pure, List.flatten_singleton]
      rfl

omit [IsStrictOrderedRing F] in
theorem histogramSteps_at (counts : k ≠ 0) (work : List (WorkEntry F)) (nBin : ℕ) :
    (histogramSteps lib ctx bodies work nBin).filter (·.1 = k) =
      [(k, nbCalcDisp lib true (correctOf ctx k)),
        (k, refine_ lib ctx bodies work (entryBin k) (entryVar k) (sigmaOf ctx k)
          (correctOf ctx k) nBin)] ++ if 3 ≤ k.val then [(k, averageBins lib nBin)] else [] := by
  fin_cases k <;> first | rfl | exact absurd rfl counts

/-- The books of the dispersions that are made, and of those that the averages stand in the
place of. -/
theorem nbCreateHistogramIn_kept {st : LikelihoodUse} {room : ℕ} {all : CountedMain F}
    (made : nbCreateHistogramIn lib ctx st room bodies hp = some all) (counts : k ≠ 0)
    {h' : CountedHistogram F} (used : all k = some h') :
    ∃ h, KeptBooks lib ctx hp k bodies (passesOf ctx k) h ∧
      if 3 ≤ k.val then averageBins lib hp.nBin h = some h' else h = h' := by
  rw [nbCreateHistogramIn, Option.bind_eq_bind, Option.bind_eq_some_iff] at made
  obtain ⟨s, pass, run⟩ := made
  have gathered := gathered_of_pass st counts pass
  obtain ⟨rest, entries⟩ := gathered.work
  have rel := foldlM_applyStep histogramSteps_same run k
  cases start : totalled s k with
  | none =>
      rw [start, used] at rel
      cases rel
  | some h₀ =>
      have steps := foldlM_applyStep_at run start
      rw [histogramSteps_at counts, used] at steps
      simp only [List.cons_append, List.nil_append, List.foldlM_cons, Option.bind_eq_bind,
        Option.bind_eq_some_iff] at steps
      obtain ⟨h₁, first, h₂, removed, last⟩ := steps
      rw [refine_eq] at removed
      have passes : (passesOf ctx k).foldlM (runPass lib bodies s.work k hp.nBin) h₀ =
          some h₂ := by
        rw [passesOf, List.foldlM_cons, runPass, first]
        exact removed
      refine ⟨h₂, (KeptBooks.start st counts pass start).run counts entries passes, ?_⟩
      split at last
      · rename_i average
        rw [if_pos average]
        simpa using last
      · rename_i dispersion
        rw [if_neg dispersion]
        simpa using last

end

/-! ## Ten bodies that are left -/

/-- The roots that are met, to six digits. -/
def rootTrig : TrigLib ℚ :=
  { zeroTrig with
    sqrt := fun x => if x = 16 / 25 then 4 / 5 else if x = 27 / 650 then 203810 / 1000000 else x }

def movingBody (v : ℚ) : Body ℚ := { pos := ⟨1, 0, 0⟩, mass := 1, type := 1, vel := ⟨v, 0, 0⟩ }

/-- Ten bodies at rest among eight that come and eight that go. -/
def tenAtRest : List (Body ℚ) :=
  List.replicate 10 (movingBody 0) ++ List.replicate 8 (movingBody 1) ++
    List.replicate 8 (movingBody (-1))

def restPasses : List (OutlierPass ℚ) := [.disp true 1, .remove 1, .disp false 1]

open Foundation.Numerals in
/-- The histogram of velocities after some passes. -/
def restRun (passes : List (OutlierPass ℚ)) : Option (CountState ℚ × CountedHistogram ℚ) := do
  let s ← tenAtRest.foldlM (countBody rootTrig zeroHistCtx fourBins)
    ⟨startHistograms {} fourBins 26 1,
      List.replicate 26 ⟨some 0, some 0, some 0, 0.0, 0.0, 0.0⟩, 0, 0⟩
  let h ← totalled s 2
  let h' ← passes.foldlM (runPass rootTrig tenAtRest s.work 2 fourBins.nBin) h
  return (s, h')

theorem restRun_some {passes : List (OutlierPass ℚ)} {s : CountState ℚ} {h' : CountedHistogram ℚ}
    (run : restRun passes = some (s, h')) :
    tenAtRest.foldlM (countBody rootTrig zeroHistCtx fourBins)
        ⟨startHistograms {} fourBins 26 1,
          List.replicate 26 ⟨some 0, some 0, some 0, 0.0, 0.0, 0.0⟩, 0, 0⟩ = some s ∧
      ∃ h, totalled s 2 = some h ∧
        passes.foldlM (runPass rootTrig tenAtRest s.work 2 fourBins.nBin) h = some h' := by
  simp only [restRun, Option.bind_eq_bind, Option.bind_eq_some_iff, Option.pure_def,
    Option.some.injEq, Prod.mk.injEq] at run
  obtain ⟨s', pass, h, used, h'', passes, rfl, rfl⟩ := run
  exact ⟨pass, h, used, passes⟩

end MilkyWay.NBody
