import MilkyWay.NBody.EmdOptimal

/-! The whole search for the least cost. Each turn that goes on leads from a basis that spans a
tree to another one with the same sums, which costs no more, so the search only ends at such a
basis, and never because the values of the rows and columns were not found or a step failed. -/

namespace MilkyWay.NBody

open Foundation Function

/-! ## More fuel -/

section
variable {R : Type} {x : ℕ → EMDNode2D R} {fuel fuel' leave_x : ℕ} {head : Option ℕ}

theorem emdUnlink_mono (le : fuel ≤ fuel') {k : Fin 2} {r : (ℕ → EMDNode2D R) × Option ℕ}
    (h : emdUnlink fuel x k head leave_x = some r) : emdUnlink fuel' x k head leave_x = some r := by
  rw [emdUnlink] at h ⊢
  obtain ⟨found, walk, rfl⟩ := Option.map_eq_some_iff.mp h
  rw [predecessor_mono walk le, Option.map_some]

theorem emdLeave_mono {state next : EMDState R} (le : fuel ≤ fuel')
    (h : emdLeave fuel state leave_x = some next) : emdLeave fuel' state leave_x = some next := by
  simp only [emdLeave, Option.bind_eq_bind, Option.bind_eq_some_iff] at h ⊢
  obtain ⟨row, unlinked, col, unlinked', made⟩ := h
  exact ⟨row, emdUnlink_mono le unlinked, col, emdUnlink_mono le unlinked', made⟩

theorem emdFindLoop_mono {state : EMDState R} {loop : List ℕ} (le : fuel ≤ fuel')
    (h : emdFindLoop fuel state = some loop) : emdFindLoop fuel' state = some loop :=
  Turn.run_mono (Turn.run_of_le (fun _ _ turn => emdFindLoopTurn_mono le turn) h) le

end

section
variable {F : Type} [Field F] [LinearOrder F] {state next : EMDState F} {fuel fuel' : ℕ}

theorem emdNewSolution_mono {made : Bool} (le : fuel ≤ fuel')
    (h : emdNewSolution fuel state = some (made, next)) :
    emdNewSolution fuel' state = some (made, next) := by
  simp only [emdNewSolution, Option.bind_eq_bind, Option.bind_eq_some_iff] at h ⊢
  obtain ⟨loop, found, step⟩ := h
  refine ⟨loop, emdFindLoop_mono le found, ?_⟩
  split at step
  · exact step
  · obtain ⟨after, left, made⟩ := Option.bind_eq_some_iff.mp step
    exact Option.bind_eq_some_iff.mpr ⟨after, emdLeave_mono le left, made⟩

end

/-! ## One turn -/

theorem smallest_none {ι F : Type} [LinearOrder F] [OfScientific F] {f : ι → F} {l : List ι}
    (nothing : (smallest f l).1 = none) : (smallest f l).2 = EMD_INF := by
  rw [smallest_eq] at nothing ⊢
  dsimp only at nothing ⊢
  rw [minimum, nothing, Option.elim_none]

namespace EMDState

structure LeadsTo {F : Type} [Field F] [LinearOrder F] (state next : EMDState F) : Prop where
  spanning : next.SpanningBasis
  problem : next.toEMDProblem = state.toEMDProblem
  rowSum : ∀ i, next.rowSum i = state.rowSum i
  colSum : ∀ j, next.colSum j = state.colSum j
  totalCost : next.totalCost ≤ state.totalCost

section
variable {F : Type} [Field F] [LinearOrder F] {state next last : EMDState F}

theorem LeadsTo.trans (first : state.LeadsTo next) (second : next.LeadsTo last) :
    state.LeadsTo last where
  spanning := second.spanning
  problem := second.problem.trans first.problem
  rowSum i := (second.rowSum i).trans (first.rowSum i)
  colSum j := (second.colSum j).trans (first.colSum j)
  totalCost := second.totalCost.trans first.totalCost

theorem SpanningBasis.refl (spanning : state.SpanningBasis) : state.LeadsTo state :=
  ⟨spanning, rfl, fun _ => rfl, fun _ => rfl, le_rfl⟩

theorem tested_next (k : ℕ) : (state.tested.x k).next = (state.x k).next := by
  by_cases free : k = state.enter_x
  · rw [free]
    exact (congrArg EMDNode2D.next (update_self state.enter_x _ state.x)).trans rfl
  · exact congrArg EMDNode2D.next (update_of_ne free _ state.x)

theorem SpanningBasis.tested (spanning : state.SpanningBasis) : state.LeadsTo state.tested := by
  obtain ⟨row, col, listed⟩ := spanning.listed
  refine ⟨⟨spanning.toBasis.tested, spanning.tree, ⟨row, col, ?_⟩, fun k used => ?_⟩, rfl,
    tested_rowSum, tested_colSum, tested_totalCost.le⟩
  · refine ⟨fun i hi => ?_, fun j hj => ?_, fun i hi k => ?_, fun j hj k => ?_⟩
    · exact (listed.rows i hi).congr fun k _ => congrFun (tested_next k) 0
    · exact (listed.cols j hj).congr fun k _ => congrFun (tested_next k) 1
    · refine (listed.mem_row i hi k).trans (and_congr_right fun used => ?_)
      rw [tested_x state used]
    · refine (listed.mem_col j hj k).trans (and_congr_right fun used => ?_)
      rw [tested_x state used]
  · rw [tested_x state used]
    exact spanning.values k used

theorem SpanningBasis.found (spanning : state.SpanningBasis) (cols : 0 < state.dsize) :
    (emdFindBasicVariables state).1 = true :=
  (emdFindBasicVariables_iff cols).mpr (cellGraph_isTree_iff.mp spanning.tree).1

theorem tested_enters
    (below : (emdIsOptimal (emdFindBasicVariables state).2).1 < EMD_INF) :
    ((state.tested.x state.enter_x).i < state.ssize ∧
      (state.tested.x state.enter_x).j < state.dsize ∧
      state.is_x (state.tested.x state.enter_x).i (state.tested.x state.enter_x).j = false) ∧
      state.cost (state.tested.x state.enter_x).i (state.tested.x state.enter_x).j -
        state.tested.u (state.tested.x state.enter_x).i -
        state.tested.v (state.tested.x state.enter_x).j =
      (emdIsOptimal (emdFindBasicVariables state).2).1 := by
  let cells := (cellsOf (List.range state.ssize) (List.range state.dsize)).filter fun c =>
    !state.is_x c.1 c.2
  let least := smallest (fun c : ℕ × ℕ => state.cost c.1 c.2 - state.tested.u c.1 -
    state.tested.v c.2) cells
  have entering : state.tested.x state.enter_x = { state.x state.enter_x with
      i := (least.1.getD (0, 0)).1, j := (least.1.getD (0, 0)).2 } :=
    update_self state.enter_x _ state.x
  have value : (emdIsOptimal (emdFindBasicVariables state).2).1 = least.2 := rfl
  rw [value] at below ⊢
  rw [entering]
  dsimp only
  cases found : least.1 with
  | none => exact absurd (smallest_none found) below.ne
  | some c =>
      obtain ⟨mem, same, -⟩ := smallest_some found
      obtain ⟨inside, off⟩ := List.mem_filter.mp mem
      obtain ⟨row, col⟩ := mem_cellsOf.mp inside
      refine ⟨⟨List.mem_range.mp row, List.mem_range.mp col, ?_⟩, same⟩
      exact (Bool.not_eq_true' _).mp off

variable [IsStrictOrderedRing F]

theorem SpanningBasis.val_le (spanning : state.SpanningBasis) {k : ℕ} (used : k ∈ state.basics) :
    (state.x k).val ≤ state.rowSum (state.x k).i :=
  Finset.single_le_sum
    (fun k' mem => spanning.values k' (Finset.mem_filter.mp mem).1)
    (Finset.mem_filter.mpr ⟨used, rfl⟩)

theorem SpanningBasis.turn (spanning : state.SpanningBasis) (cols : 0 < state.dsize)
    (max_cost : 0 ≤ state.max_cost) (small : ∀ i, state.rowSum i < EMD_INF) :
    ∃ n r, (∀ fuel, n ≤ fuel → emdIterateTurn fuel state = some r) ∧
      r.elim (state.LeadsTo ·) fun stopped => state.LeadsTo stopped.1 ∧
        (stopped.2 = .noEntering ∨ stopped.2 = .optimal) := by
  have found := spanning.found cols
  have kept := spanning.tested
  have turn : ∀ fuel, emdIterateTurn fuel state =
      if (emdIsOptimal (emdFindBasicVariables state).2).1 == EMD_INF then
        some (.inr (state.tested, .noEntering))
      else if -(EMD_EPS * state.max_cost) ≤ (emdIsOptimal (emdFindBasicVariables state).2).1 then
        some (.inr (state.tested, .optimal))
      else (emdNewSolution fuel state.tested).map fun made =>
        if made.1 then .inl made.2 else .inr (made.2, .failedStep) := by
    intro fuel
    rw [emdIterateTurn]
    dsimp only
    rw [if_pos found]
    rfl
  by_cases sentinel : ((emdIsOptimal (emdFindBasicVariables state).2).1 == EMD_INF) = true
  · refine ⟨0, .inr (state.tested, .noEntering), fun fuel _ => ?_, kept, .inl rfl⟩
    rw [turn, if_pos sentinel]
  by_cases optimal : -(EMD_EPS * state.max_cost) ≤ (emdIsOptimal (emdFindBasicVariables state).2).1
  · refine ⟨0, .inr (state.tested, .optimal), fun fuel _ => ?_, kept, .inr rfl⟩
    rw [turn, if_neg sentinel, if_pos optimal]
  have tolerance : 0 ≤ EMD_EPS * state.max_cost := mul_nonneg (by norm_num [EMD_EPS]) max_cost
  have negative : (emdIsOptimal (emdFindBasicVariables state).2).1 < 0 :=
    (not_le.mp optimal).trans_le (neg_nonpos.mpr tolerance)
  have positive : (0 : F) < EMD_INF := by norm_num [EMD_INF]
  obtain ⟨⟨hi, hj, off⟩, reduced⟩ := tested_enters (negative.trans positive)
  obtain ⟨loop, n, isLoop, runs⟩ := emdNewSolution_spec kept.spanning hi hj off
  have below : ∃ k ∈ oddPlaces loop, (state.tested.x k).val < EMD_INF := by
    obtain ⟨b, rest, rfl⟩ := isLoop.shape
    have odd : b ∈ oddPlaces (state.tested.enter_x :: b :: rest) := List.mem_cons_self
    have used : b ∈ state.tested.basics :=
      mem_basics.mpr ⟨isLoop.nodes b (mem_of_odd odd), isLoop.ne_enter odd⟩
    refine ⟨b, odd, (kept.spanning.val_le used).trans_lt ?_⟩
    rw [kept.rowSum]
    exact small _
  have step := (runs n le_rfl).2
  rw [if_pos below] at step
  obtain ⟨next, step, pivots⟩ := step
  refine ⟨n, .inl next, fun fuel le => ?_, kept.trans ⟨pivots.spanning, pivots.problem,
    pivots.rowSum, pivots.colSum, ?_⟩⟩
  · rw [turn, if_neg sentinel, if_neg optimal, emdNewSolution_mono le step]
    rfl
  · refine pivots.totalCost state.tested.u state.tested.v
      (tested_prices kept.spanning.toBasis cols found) ?_
    exact reduced.trans_lt negative

theorem SpanningBasis.iterate (n : ℕ) (spanning : state.SpanningBasis) (cols : 0 < state.dsize)
    (max_cost : 0 ≤ state.max_cost) (small : ∀ i, state.rowSum i < EMD_INF) :
    ∃ m final stop, (∀ fuel, m ≤ fuel → emdIterate fuel n state = some (final, stop)) ∧
      state.LeadsTo final ∧ (stop = .noEntering ∨ stop = .optimal ∨ stop = .limit) := by
  induction n generalizing state with
  | zero => exact ⟨0, state, .limit, fun _ _ => rfl, spanning.refl, .inr (.inr rfl)⟩
  | succ n ih =>
      obtain ⟨m, r, turn, leads⟩ := spanning.turn cols max_cost small
      rcases r with next | ⟨final, stop⟩
      · have leads : state.LeadsTo next := leads
        obtain ⟨m', final, stop, run, further, kind⟩ := ih leads.spanning
          (by rw [leads.problem]; exact cols) (by rw [leads.problem]; exact max_cost)
          fun i => by rw [leads.rowSum]; exact small i
        refine ⟨max m m', final, stop, fun fuel le => ?_, leads.trans further, kind⟩
        rw [emdIterate, turn fuel ((Nat.le_max_left _ _).trans le)]
        exact run fuel ((Nat.le_max_right _ _).trans le)
      · refine ⟨m, final, stop, fun fuel le => ?_, leads.1, leads.2.imp_right .inl⟩
        rw [emdIterate, turn fuel le]

end

end EMDState

/-- The search ends. From a basis that spans a tree it leads to such a basis with the same sums
that costs no more, and it never stops because the values of the rows and columns were not found
or a step failed. -/
theorem emdIterateSolution_leadsTo {F : Type} [Field F] [LinearOrder F] [IsStrictOrderedRing F]
    {state : EMDState F} (spanning : state.SpanningBasis) (max_cost : 0 ≤ state.max_cost)
    (small : ∀ i, state.rowSum i < EMD_INF) :
    ∃ n final stop, (∀ fuel, n ≤ fuel → emdIterateSolution fuel state = some (final, stop)) ∧
      state.LeadsTo final ∧ stop ≠ .noBasicVariables ∧ stop ≠ .failedStep := by
  by_cases several : 1 < state.ssize ∧ 1 < state.dsize
  · obtain ⟨n, final, stop, run, leads, kind⟩ :=
      spanning.iterate (MAX_ITERATIONS - 1) (Nat.zero_lt_of_lt several.2) max_cost small
    refine ⟨n, final, stop, fun fuel le => ?_, leads, ?_⟩
    · rw [emdIterateSolution, if_pos several]
      exact run fuel le
    · rcases kind with rfl | rfl | rfl <;> decide
  · refine ⟨0, state, .single, fun fuel _ => ?_, spanning.refl, by decide, by decide⟩
    rw [emdIterateSolution, if_neg several]

/-! ## From the first basis to the distance -/

theorem EMDState.FirstBasis.spanning {F : Type} [Field F] [LinearOrder F] {state : EMDState F}
    {s d : ℕ → F} (first : state.FirstBasis s d)
    (values : ∀ k ∈ state.withFree.basics, 0 ≤ (state.withFree.x k).val) :
    state.withFree.SpanningBasis := by
  have used : ∀ {k : ℕ}, k ∈ state.withFree.basics ↔ k < state.end_x :=
    EMDState.mem_basics_withFree
  obtain ⟨row, col, chained⟩ := first.listed
  refine ⟨⟨Nat.lt_succ_self _, first.count, fun k mem => first.rows k (used.mp mem),
    fun k mem => first.cols k (used.mp mem), fun k mem k' mem' =>
      first.covers.distinct k (used.mp mem) k' (used.mp mem'), fun i hi j hj => ?_⟩, first.tree,
    ⟨row, col, chained.rows, chained.cols, fun i hi k => ?_, fun j hj k => ?_⟩, values⟩
  · exact (first.covers.marked i hi j hj).trans
      (exists_congr fun k => and_congr_left' used.symm)
  · exact (chained.mem_row i hi k).trans (and_congr_left' used.symm)
  · exact (chained.mem_col j hj k).trans (and_congr_left' used.symm)

section
variable {F : Type} [Field F] [LinearOrder F] [IsStrictOrderedRing F] {mw_sqrt : F → F}
  {signature signature1 signature2 : List (WeightPos F)} {start : EMDState F} {weight : F}

omit [IsStrictOrderedRing F] in
theorem fst_clusters {place : Fin (clusters signature).length → Fin signature.length}
    (placed : Placed signature place) (i : Fin (clusters signature).length) :
    ((clusters signature)[i.1]?.map Prod.fst).getD 0 = (signature.get (place i)).weight := by
  rw [List.getElem?_eq_getElem i.2]
  exact congrArg Prod.fst (placed.here i)

omit [IsStrictOrderedRing F] in
theorem sum_clusters (nonneg : ∀ p ∈ signature, 0 ≤ p.weight) :
    ∑ i ∈ Finset.range (clusters signature).length,
      ((clusters signature)[i]?.map Prod.fst).getD 0 = (signature.map WeightPos.weight).sum := by
  obtain ⟨place, placed⟩ := exists_places nonneg
  rw [Finset.sum_range]
  rw [Finset.sum_congr rfl fun i _ => fst_clusters placed i]
  refine (sum_comp_of_zero_off (g := fun k => (signature.get k).weight) placed.injective
    placed.off).trans ?_
  exact Fin.sum_univ_fun_getElem signature WeightPos.weight

omit [IsStrictOrderedRing F] in
theorem fst_clusters_nonneg (nonneg : ∀ p ∈ signature, 0 ≤ p.weight) (i : ℕ)
    (lt : i < (clusters signature).length) :
    0 ≤ ((clusters signature)[i]?.map Prod.fst).getD 0 := by
  obtain ⟨place, placed⟩ := exists_places nonneg
  rw [fst_clusters placed ⟨i, lt⟩]
  exact nonneg _ (List.get_mem _ _)

theorem balancedProblem_costed (root : ∀ x, 0 ≤ mw_sqrt x) :
    (balancedProblem mw_sqrt signature1 signature2).Costed := by
  intro i _ j _ lowest
  have nonneg : 0 ≤ (balancedProblem mw_sqrt signature1 signature2).cost i j := by
    rw [balancedProblem]
    dsimp only
    split
    · exact root _
    · exact le_rfl
  rw [lowest] at nonneg
  exact absurd nonneg (not_le.mpr (by norm_num [EMD_INF]))

theorem emdInitEMD_between (root : ∀ x, 0 ≤ mw_sqrt x)
    (nonneg1 : ∀ p ∈ signature1, 0 ≤ p.weight) (nonneg2 : ∀ q ∈ signature2, 0 ≤ q.weight)
    (total1 : (signature1.map WeightPos.weight).sum = weight)
    (total2 : (signature2.map WeightPos.weight).sum = weight) (positive : 0 < weight)
    (init : emdInitEMD mw_sqrt signature1 signature2 = some start)
    (values : ∀ k ∈ start.basics, 0 ≤ (start.x k).val)
    (colSums : ∀ j < start.dsize, start.colSum j = weightOf signature2 (start.idx2 j)) :
    start.SpanningBasis ∧ start.Between mw_sqrt signature1 signature2 := by
  have problem := emdInitEMD_problem nonneg1 nonneg2 (total1.trans total2.symm)
    (total1 ▸ positive) init
  have heavy : 0 < (balancedProblem mw_sqrt signature1 signature2).weight * EMD_EPS :=
    mul_pos (show 0 < (signature1.map WeightPos.weight).sum from total1 ▸ positive)
      (by norm_num [EMD_EPS])
  obtain ⟨rows, forest, shares, kept⟩ := emdRusselLoop_spec _ _
    (EMDState.Forest.start (balancedProblem mw_sqrt signature1 signature2)
      (fun i => ((clusters signature1)[i]?.map Prod.fst).getD 0)
      (fun j => ((clusters signature2)[j]?.map Prod.fst).getD 0) _ _ _)
    (EMDState.Shares.start (fst_clusters_nonneg nonneg1) (fst_clusters_nonneg nonneg2)
      ((sum_clusters nonneg1).trans (total1.trans (total2.symm.trans (sum_clusters nonneg2).symm)))
      (((sum_clusters nonneg1).trans total1).symm ▸ positive) heavy _ _ _)
    (EMDState.Maxima.start (emdStart _ _ _) (balancedProblem_costed root)) heavy
    (by rw [List.length_range, List.length_range]; exact Nat.le_succ _)
  have first := forest.firstBasis shares (by rw [kept]; exact heavy)
  rw [emdInitEMD, emdProblem_balanced mw_sqrt nonneg1 nonneg2 (total1.trans total2.symm)
    (total1 ▸ positive), Option.map_some] at init
  have same : start = (emdRussel (emdStart (balancedProblem mw_sqrt signature1 signature2)
      (fun i => ((clusters signature1)[i]?.map Prod.fst).getD 0)
      fun j => ((clusters signature2)[j]?.map Prod.fst).getD 0)).withFree :=
    (Option.some.inj init).symm
  obtain ⟨place, placed⟩ := exists_places nonneg1
  have spanning : start.SpanningBasis := by
    rw [same] at values ⊢
    exact first.spanning values
  refine ⟨spanning, spanning.toBasis, values, problem, fun i hi => ?_, colSums⟩
  rw [problem] at hi
  have sum : start.rowSum i = ((clusters signature1)[i]?.map Prod.fst).getD 0 := by
    rw [same, EMDState.withFree_rowSum]
    exact first.supply i (by rw [kept]; exact hi)
  rw [sum, problem]
  refine (fst_clusters placed ⟨i, hi⟩).trans ?_
  exact ((congrArg (weightOf signature1) (placed.idx ⟨i, hi⟩)).trans (weightOf_some _)).symm

omit [IsStrictOrderedRing F] in
theorem EMDState.Between.leadsTo {final : EMDState F}
    (flow : start.Between mw_sqrt signature1 signature2) (leads : start.LeadsTo final) :
    final.Between mw_sqrt signature1 signature2 where
  basis := leads.spanning.toBasis
  values := leads.spanning.values
  problem := leads.problem.trans flow.problem
  rowSums i hi := by
    rw [leads.problem] at hi ⊢
    rw [leads.rowSum]
    exact flow.rowSums i hi
  colSums j hj := by
    rw [leads.problem] at hj ⊢
    rw [leads.colSum]
    exact flow.colSums j hj

theorem EMDState.Between.rowSum_le (flow : start.Between mw_sqrt signature1 signature2)
    (nonneg1 : ∀ p ∈ signature1, 0 ≤ p.weight) (i : ℕ) :
    start.rowSum i ≤ (signature1.map WeightPos.weight).sum := by
  obtain ⟨place, placed⟩ := exists_places nonneg1
  by_cases hi : i < start.ssize
  · rw [flow.problem] at hi
    rw [flow.supply placed ⟨i, hi⟩]
    refine List.single_le_sum (fun w mem => ?_) _ (List.mem_map_of_mem (List.get_mem _ _))
    obtain ⟨p, inside, rfl⟩ := List.mem_map.mp mem
    exact nonneg1 p inside
  · have empty : start.rowSum i = 0 := Finset.sum_eq_zero fun k mem => by
      obtain ⟨used, here⟩ := Finset.mem_filter.mp mem
      exact absurd (here ▸ flow.basis.rows k used) hi
    rw [empty]
    refine List.sum_nonneg fun w mem => ?_
    obtain ⟨p, inside, rfl⟩ := List.mem_map.mp mem
    exact nonneg1 p inside

/-- Whichever way the search stops, what `emdCalc` returns is no distance at all, or for each unit
of weight what some way to move one signature to the other costs, so that it is never below the
least; it is never above what the first basis costs either. -/
theorem emdCalcStop_feasible {EMD_INVALID : F} (root : ∀ x, 0 ≤ mw_sqrt x)
    (nonneg1 : ∀ p ∈ signature1, 0 ≤ p.weight) (nonneg2 : ∀ q ∈ signature2, 0 ≤ q.weight)
    (total1 : (signature1.map WeightPos.weight).sum = weight)
    (total2 : (signature2.map WeightPos.weight).sum = weight) (positive : 0 < weight)
    (small : weight < EMD_INF) (init : emdInitEMD mw_sqrt signature1 signature2 = some start)
    (values : ∀ k ∈ start.basics, 0 ≤ (start.x k).val)
    (colSums : ∀ j < start.dsize, start.colSum j = weightOf signature2 (start.idx2 j)) :
    ∃ n r stop, (∀ fuel, n ≤ fuel →
      emdCalcStop fuel mw_sqrt EMD_INVALID signature1 signature2 = some (r, some stop)) ∧
      (stop = .noEntering ∧ r = EMD_INVALID ∨
        (∃ c ∈ emdCosts mw_sqrt signature1 signature2, r = c / weight) ∧
          r ≤ start.totalCost / weight ∧
          (stop = .optimal → ∀ c ∈ emdCosts mw_sqrt signature1 signature2,
            r ≤ c / weight + EMD_EPS * start.max_cost)) := by
  obtain ⟨spanning, between⟩ := emdInitEMD_between root nonneg1 nonneg2 total1 total2 positive init
    values colSums
  have max_cost : 0 ≤ start.max_cost := by
    rw [between.problem]
    exact (le_largest _ _ _).1
  obtain ⟨n, final, stop, run, leads, found, made⟩ := emdIterateSolution_leadsTo spanning max_cost
    fun i => (between.rowSum_le nonneg1 i).trans_lt (total1 ▸ small)
  have between' := between.leadsTo leads
  have heavy : final.weight = weight := by
    rw [between'.problem]
    exact total1
  refine ⟨n, if stop.result = 0 then final.totalCost / weight else EMD_INVALID, stop,
    fun fuel le => ?_, ?_⟩
  · rw [emdCalcStop, init]
    simp only [run fuel le, Option.map_some, between'.flow_eq nonneg1 nonneg2, heavy]
  by_cases entering : stop = .noEntering
  · left
    rw [entering]
    exact ⟨rfl, if_neg (by decide)⟩
  · right
    have returns : stop.result = 0 := by
      cases stop with
      | noEntering => exact absurd rfl entering
      | failedStep => exact absurd rfl made
      | _ => rfl
    rw [if_pos returns]
    refine ⟨⟨_, between'.mem_costs nonneg1 nonneg2, rfl⟩,
      div_le_div_of_nonneg_right leads.totalCost positive.le, fun optimal c mem => ?_⟩
    rw [optimal] at run
    obtain ⟨several, before, test, -⟩ := emdIterateSolution_optimal (run n le_rfl)
    have cols : 0 < final.dsize := by
      rw [leads.problem]
      exact Nat.zero_lt_of_lt several
    have most := test.le_costs between' nonneg1 nonneg2 cols c mem
    rw [total1, leads.problem] at most
    rw [div_add' _ _ _ positive.ne', div_le_div_iff_of_pos_right positive]
    exact most

end

theorem emdCalcStop_twoPoints :
    ∃ n r stop, (∀ fuel, n ≤ fuel →
      emdCalcStop fuel Real.sqrt (-1) twoPoints twoPoints = some (r, some stop)) ∧
      (stop = .noEntering ∧ r = -1 ∨
        (∃ c ∈ emdCosts Real.sqrt twoPoints twoPoints, r = c / 2) ∧
          r ≤ twoPointsEnd.withFree.totalCost / 2 ∧
          (stop = .optimal → ∀ c ∈ emdCosts Real.sqrt twoPoints twoPoints,
            r ≤ c / 2 + EMD_EPS * twoPointsEnd.withFree.max_cost)) := by
  have nonneg : ∀ p ∈ twoPoints, 0 ≤ p.weight := by simp [twoPoints]
  have total : (twoPoints.map WeightPos.weight).sum = 2 := by norm_num [twoPoints]
  obtain ⟨-, cols, -⟩ := twoPointsProblem_size
  refine emdCalcStop_feasible Real.sqrt_nonneg nonneg nonneg total total two_pos
    (by norm_num [EMD_INF]) emdInitEMD_twoPoints (fun k used => ?_) fun j hj => ?_
  · exact twoPointsEnd_values k (EMDState.mem_basics_withFree.mp used)
  · rw [EMDState.withFree_colSum, (twoPointsEnd_sums j (cols ▸ hj)).2]
    exact (weightOf_twoPoints j (cols ▸ hj)).2.symm

end MilkyWay.NBody
