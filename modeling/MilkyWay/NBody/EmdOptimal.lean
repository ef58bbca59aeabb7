import MilkyWay.NBody.EmdRussel
import MilkyWay.NBody.EmdValues

/-! The distance where the test for the optimum succeeds: the values of the rows and columns
are prices that no flow can undercut by more than the tolerance. -/

namespace MilkyWay.NBody

open Foundation Function

/-! ## What the search keeps -/

theorem emdLeave_problem {R : Type} {state next : EMDState R} {fuel leave_x : ℕ}
    (left : emdLeave fuel state leave_x = some next) :
    next.toEMDProblem = state.toEMDProblem := by
  simp only [emdLeave, Option.bind_eq_bind, Option.bind_eq_some_iff] at left
  obtain ⟨row, -, col, -, made⟩ := left
  rw [← Option.some.inj made]

section
variable {F : Type} [Field F] [LinearOrder F] {state next final : EMDState F}

theorem emdAddBasicVariable_problem (state : EMDState F) (rows cols : List ℕ) (i j : ℕ) :
    (emdAddBasicVariable state rows cols i j).1.toEMDProblem = state.toEMDProblem := by
  rw [emdAddBasicVariable]
  split_ifs <;> rfl

theorem emdRusselLoop_problem (eps : F) (n : ℕ) (rows cols : List ℕ) :
    (emdRusselLoop eps n state rows cols).toEMDProblem = state.toEMDProblem := by
  induction n generalizing state rows cols with
  | zero => rfl
  | succ n ih =>
      rw [emdRusselLoop]
      cases (smallest (fun c : ℕ × ℕ => state.delta c.1 c.2) (cellsOf rows cols)).1 with
      | none => rfl
      | some c =>
        have kept := emdAddBasicVariable_problem state rows cols c.1 c.2
        dsimp only
        split_ifs
        · exact kept
        · exact kept
        · exact (ih _ _).trans kept
        · exact (ih _ _).trans kept

theorem emdRussel_problem (state : EMDState F) :
    (emdRussel state).toEMDProblem = state.toEMDProblem := emdRusselLoop_problem _ _ _ _

theorem emdNewSolution_problem {fuel : ℕ} {made : Bool}
    (step : emdNewSolution fuel state = some (made, next)) :
    next.toEMDProblem = state.toEMDProblem := by
  simp only [emdNewSolution, Option.bind_eq_bind, Option.bind_eq_some_iff] at step
  obtain ⟨loop, -, step⟩ := step
  split at step
  · rw [← (Prod.mk.inj (Option.some.inj step)).2]
    rfl
  · obtain ⟨after, left, step⟩ := Option.bind_eq_some_iff.mp step
    rw [← (Prod.mk.inj (Option.some.inj step)).2]
    exact (emdLeave_problem left).trans rfl

end

/-! ## Where the test succeeds -/

section
variable {F : Type} [Field F] [LinearOrder F] {state next final : EMDState F}

/-- The state once the values of the rows and columns are found and the test for the optimum is
made. -/
def EMDState.tested (state : EMDState F) : EMDState F :=
  (emdIsOptimal (emdFindBasicVariables state).2).2

structure EMDState.Optimal (before final : EMDState F) : Prop where
  found : (emdFindBasicVariables before).1 = true
  least : -(EMD_EPS * before.max_cost) ≤ (emdIsOptimal (emdFindBasicVariables before).2).1
  result : final = before.tested

theorem EMDState.tested_problem (state : EMDState F) :
    state.tested.toEMDProblem = state.toEMDProblem := rfl

theorem emdIterateTurn_problem {fuel : ℕ}
    (turn : emdIterateTurn fuel state = some (.inl next)) :
    next.toEMDProblem = state.toEMDProblem := by
  rw [emdIterateTurn] at turn
  dsimp only at turn
  split_ifs at turn
  · cases turn
  · cases turn
  · obtain ⟨⟨made, after⟩, step, kind⟩ := Option.map_eq_some_iff.mp turn
    dsimp only at kind
    split_ifs at kind
    rw [← Sum.inl.inj kind]
    exact (emdNewSolution_problem step).trans state.tested_problem
  · cases turn

theorem emdIterateTurn_optimal {fuel : ℕ}
    (turn : emdIterateTurn fuel state = some (.inr (final, .optimal))) :
    state.Optimal final := by
  rw [emdIterateTurn] at turn
  dsimp only at turn
  split_ifs at turn with found sentinel least
  · cases turn
  · exact ⟨found, least, (Prod.mk.inj (Sum.inr.inj (Option.some.inj turn))).1.symm⟩
  · obtain ⟨⟨made, after⟩, step, kind⟩ := Option.map_eq_some_iff.mp turn
    dsimp only at kind
    split_ifs at kind
    cases kind
  · cases turn

theorem emdIterate_optimal {fuel : ℕ} (n : ℕ)
    (run : emdIterate fuel n state = some (final, .optimal)) :
    ∃ before : EMDState F, before.Optimal final ∧ before.toEMDProblem = state.toEMDProblem := by
  induction n generalizing state with
  | zero => cases run
  | succ n ih =>
      rw [emdIterate] at run
      split at run
      · cases run
      · rename_i next turn
        obtain ⟨before, optimal, kept⟩ := ih run
        exact ⟨before, optimal, kept.trans (emdIterateTurn_problem turn)⟩
      · rename_i stopped turn
        rw [Option.some.inj run] at turn
        exact ⟨state, emdIterateTurn_optimal turn, rfl⟩

theorem emdIterateSolution_optimal {fuel : ℕ}
    (run : emdIterateSolution fuel state = some (final, .optimal)) :
    1 < state.dsize ∧
      ∃ before : EMDState F, before.Optimal final ∧ before.toEMDProblem = state.toEMDProblem := by
  rw [emdIterateSolution] at run
  split_ifs at run with several
  · exact ⟨several.2, emdIterate_optimal _ run⟩
  · cases run

end

namespace EMDState

variable {F : Type} [Field F] [LinearOrder F] {before final : EMDState F}

theorem tested_x (before : EMDState F) {k : ℕ} (used : k ∈ before.basics) : before.tested.x k = before.x k :=
  update_of_ne (mem_basics.mp used).2 _ _

theorem Basis.tested (basis : before.Basis) : before.tested.Basis := by
  have cell : ∀ k ∈ before.basics, before.tested.cellAt k = before.cellAt k := fun k used =>
    congrArg (fun node : EMDNode2D F => (node.i, node.j)) (tested_x before used)
  refine ⟨basis.free, basis.count, fun k used => ?_, fun k used => ?_,
    fun k used k' used' same => ?_, fun i hi j hj => ?_⟩
  · exact (congrArg Prod.fst (cell k used)).trans_lt (basis.rows k used)
  · exact (congrArg Prod.snd (cell k used)).trans_lt (basis.cols k used)
  · exact basis.distinct k used k' used' ((cell k used).symm.trans (same.trans (cell k' used')))
  · refine (basis.marked i hi j hj).trans (exists_congr fun k => and_congr_right fun used => ?_)
    rw [cell k used]

theorem tested_rowSum (i : ℕ) : before.tested.rowSum i = before.rowSum i := by
  rw [rowSum, rowSum, Finset.sum_filter, Finset.sum_filter]
  exact Finset.sum_congr rfl fun k used => by rw [tested_x before used]

theorem tested_colSum (j : ℕ) : before.tested.colSum j = before.colSum j := by
  rw [colSum, colSum, Finset.sum_filter, Finset.sum_filter]
  exact Finset.sum_congr rfl fun k used => by rw [tested_x before used]

theorem tested_totalCost : before.tested.totalCost = before.totalCost :=
  Finset.sum_congr rfl fun k used => by
    rw [tested_x before used]
    rfl

theorem withFree_rowSum {R : Type} [AddCommMonoid R] {state : EMDState R} (i : ℕ) :
    state.withFree.rowSum i = state.lineSum EMDNode2D.i i := by
  rw [rowSum, lineSum, Finset.sum_filter]
  exact Finset.sum_congr (Finset.ext fun k => mem_basics_withFree.trans Finset.mem_range.symm)
    fun _ _ => rfl

theorem withFree_colSum {R : Type} [AddCommMonoid R] {state : EMDState R} (j : ℕ) :
    state.withFree.colSum j = state.lineSum EMDNode2D.j j := by
  rw [colSum, lineSum, Finset.sum_filter]
  exact Finset.sum_congr (Finset.ext fun k => mem_basics_withFree.trans Finset.mem_range.symm)
    fun _ _ => rfl

theorem tested_prices (basis : before.tested.Basis) (cols : 0 < before.dsize)
    (found : (emdFindBasicVariables before).1 = true) :
    before.tested.Prices before.tested.u before.tested.v := by
  intro k used
  have row := basis.rows k used
  have col := basis.cols k used
  have marked := (basis.marked _ row _ col).mpr ⟨k, used, rfl⟩
  exact (@emdFindBasicVariables_cost F _ before cols found basis.card_marked _ _ row col
    marked).symm

theorem Optimal.prices (optimal : before.Optimal final) (basis : final.Basis)
    (cols : 0 < final.dsize) : final.Prices final.u final.v := by
  obtain ⟨found, -, rfl⟩ := optimal
  exact tested_prices basis cols found

theorem Optimal.problem (optimal : before.Optimal final) :
    final.toEMDProblem = before.toEMDProblem := by
  rw [optimal.result, tested_problem]

variable [IsStrictOrderedRing F]

theorem Optimal.price_le (optimal : before.Optimal final) (basis : final.Basis)
    (cols : 0 < final.dsize) (max_cost : 0 ≤ final.max_cost) {i j : ℕ} (hi : i < final.ssize)
    (hj : j < final.dsize) : final.u i + final.v j - EMD_EPS * final.max_cost ≤ final.cost i j := by
  have tolerance : 0 ≤ EMD_EPS * final.max_cost := mul_nonneg (by norm_num [EMD_EPS]) max_cost
  by_cases basic : final.is_x i j = true
  · obtain ⟨k, used, cell⟩ := (basis.marked i hi j hj).mp basic
    have price := optimal.prices basis cols k used
    rw [cellAt, Prod.mk.injEq] at cell
    rw [cell.1, cell.2] at price
    linarith
  · obtain ⟨found, least, rfl⟩ := optimal
    have off : (i, j) ∈ (cellsOf (List.range before.ssize) (List.range before.dsize)).filter
        fun c => !before.is_x c.1 c.2 := by
      refine List.mem_filter.mpr ⟨mem_cellsOf.mpr ⟨List.mem_range.mpr hi, List.mem_range.mpr hj⟩, ?_⟩
      exact Bool.not_eq_true' _ ▸ Bool.eq_false_of_not_eq_true basic
    have cell := smallest_le (f := fun c : ℕ × ℕ => before.cost c.1 c.2 -
      (emdFindBasicVariables before).2.u c.1 - (emdFindBasicVariables before).2.v c.2) off
    have all := least.trans cell
    dsimp only at all
    show (emdFindBasicVariables before).2.u i + (emdFindBasicVariables before).2.v j -
      EMD_EPS * before.max_cost ≤ before.cost i j
    linarith

theorem Optimal.totalCost_le (optimal : before.Optimal final) (basis : final.Basis)
    (cols : 0 < final.dsize) (max_cost : 0 ≤ final.max_cost)
    (values : ∀ k ∈ final.basics, 0 ≤ (final.x k).val)
    {g : Fin final.ssize → Fin final.dsize → F}
    (flow : IsFlow (fun i : Fin final.ssize => final.rowSum i)
      (fun j : Fin final.dsize => final.colSum j) g) :
    final.totalCost ≤ flowCost (fun i j => final.cost i.1 j.1) g +
      EMD_EPS * final.max_cost * ∑ i : Fin final.ssize, final.rowSum i := by
  have price : final.totalCost = priceOf (fun i : Fin final.ssize => final.rowSum i)
      (fun j : Fin final.dsize => final.colSum j) (fun i => final.u i) fun j => final.v j := by
    rw [← (isFlow basis values).price_eq, totalCost]
    refine .trans ?_ (flowCost_flow basis fun i j => final.u i + final.v j).symm
    exact Finset.sum_congr rfl fun k used => by rw [optimal.prices basis cols k used]
  have least : priceOf (fun i : Fin final.ssize => final.rowSum i)
      (fun j : Fin final.dsize => final.colSum j) (fun i => final.u i) (fun j => final.v j) -
        EMD_EPS * final.max_cost * ∑ i : Fin final.ssize, final.rowSum i ≤
      flowCost (fun i j => final.cost i.1 j.1) g :=
    flow.price_le fun i j => optimal.price_le basis cols max_cost i.2 j.2
  rw [price]
  linarith

end EMDState

/-! ## The problem of two signatures -/

section
variable {F : Type} [Field F] [LinearOrder F] {signature signature1 signature2 : List (WeightPos F)}

def clusters (signature : List (WeightPos F)) : List (F × Option ℕ) :=
  (signature.zipIdx.filter fun entry => 0 < entry.1.weight).map fun entry =>
    (entry.1.weight, some entry.2)

theorem emdWeights_loop (l : List (WeightPos F × ℕ)) (sum : F) (rows : List (F × Option ℕ))
    (nonneg : ∀ entry ∈ l, 0 ≤ entry.1.weight) :
    l.foldlM (fun sums entry =>
        if 0 < entry.1.weight then
          some (sums.1 + entry.1.weight, sums.2 ++ [(entry.1.weight, some entry.2)])
        else if entry.1.weight < 0 then none
        else some sums) (sum, rows) =
      some (sum + (l.map fun entry => entry.1.weight).sum,
        rows ++ (l.filter fun entry => 0 < entry.1.weight).map fun entry =>
          (entry.1.weight, some entry.2)) := by
  induction l generalizing sum rows with
  | nil => simp
  | cons entry l ih =>
      have rest : ∀ entry ∈ l, 0 ≤ entry.1.weight := fun e mem =>
        nonneg e (List.mem_cons_of_mem entry mem)
      rw [List.foldlM_cons]
      rcases (nonneg entry List.mem_cons_self).lt_or_eq with positive | zero
      · rw [if_pos positive, Option.bind_eq_bind, Option.bind_some, ih _ _ rest]
        simp [positive, add_assoc]
      · rw [if_neg (zero ▸ lt_irrefl _), if_neg (zero ▸ lt_irrefl _), Option.bind_eq_bind,
          Option.bind_some, ih _ _ rest]
        simp [← zero]

theorem emdWeights_eq (nonneg : ∀ p ∈ signature, 0 ≤ p.weight) :
    emdWeights signature =
      some ((signature.map WeightPos.weight).sum, clusters signature) := by
  have weights : signature.zipIdx.map (fun entry => entry.1.weight) =
      signature.map WeightPos.weight := by
    rw [← Function.comp_def WeightPos.weight Prod.fst, ← List.map_map, List.zipIdx_map_fst]
  rw [emdWeights, emdWeights_loop signature.zipIdx 0 [] fun entry mem =>
    nonneg _ (List.fst_mem_of_mem_zipIdx mem), weights, zero_add, List.nil_append, clusters]

theorem mem_clusters {x : F × Option ℕ} :
    x ∈ clusters signature ↔
      ∃ k : Fin signature.length, 0 < (signature.get k).weight ∧
        ((signature.get k).weight, some k.1) = x := by
  rw [clusters, List.mem_map]
  constructor
  · rintro ⟨⟨p, k⟩, mem, rfl⟩
    obtain ⟨mem, positive⟩ := List.mem_filter.mp mem
    obtain ⟨lt, rfl⟩ := List.getElem?_eq_some_iff.mp (List.mk_mem_zipIdx_iff_getElem?.mp mem)
    exact ⟨⟨k, lt⟩, of_decide_eq_true positive, rfl⟩
  · rintro ⟨k, positive, rfl⟩
    refine ⟨(signature.get k, k.1), List.mem_filter.mpr ⟨?_, decide_eq_true positive⟩, rfl⟩
    exact List.mk_mem_zipIdx_iff_getElem?.mpr (List.getElem?_eq_getElem k.2)

theorem nodup_clusters : (clusters signature).Nodup := by
  refine List.Nodup.of_map Prod.snd ?_
  have places : (clusters signature).map Prod.snd =
      ((signature.zipIdx.filter fun entry => 0 < entry.1.weight).map Prod.snd).map some := by
    rw [clusters, List.map_map, List.map_map]
    rfl
  rw [places]
  refine List.Nodup.map (Option.some_injective ℕ) ?_
  exact (List.nodup_zipIdx_map_snd signature).sublist (List.filter_sublist.map Prod.snd)

/-- The clusters are at places of their own, and nothing is anywhere else. -/
structure Placed (signature : List (WeightPos F))
    (place : Fin (clusters signature).length → Fin signature.length) : Prop where
  injective : Injective place
  here : ∀ i, (clusters signature).get i = ((signature.get (place i)).weight, some (place i).1)
  off : ∀ k, (∀ i, place i ≠ k) → (signature.get k).weight = 0

theorem exists_places (nonneg : ∀ p ∈ signature, 0 ≤ p.weight) :
    ∃ place : Fin (clusters signature).length → Fin signature.length, Placed signature place := by
  have each : ∀ i, ∃ k : Fin signature.length,
      (clusters signature).get i = ((signature.get k).weight, some k.1) := by
    intro i
    obtain ⟨k, -, same⟩ := mem_clusters.mp (List.get_mem (clusters signature) i)
    exact ⟨k, same.symm⟩
  choose place at_place using each
  refine ⟨place, fun i i' same => ?_, at_place, fun k off => ?_⟩
  · refine List.nodup_iff_injective_get.mp nodup_clusters ?_
    rw [at_place, at_place, same]
  · refine le_antisymm (not_lt.mp fun positive => ?_) (nonneg _ (List.get_mem signature k))
    obtain ⟨i, here⟩ := List.get_of_mem (mem_clusters.mpr ⟨k, positive, rfl⟩)
    rw [at_place] at here
    exact off i (Fin.ext (Option.some.inj (Prod.mk.inj here).2))

theorem clusters_ne_nil (nonneg : ∀ p ∈ signature, 0 ≤ p.weight)
    (positive : 0 < (signature.map WeightPos.weight).sum) : clusters signature ≠ [] := by
  intro empty
  refine positive.ne' (List.sum_eq_zero fun w mem => ?_)
  obtain ⟨p, inside, rfl⟩ := List.mem_map.mp mem
  obtain ⟨k, rfl⟩ := List.get_of_mem inside
  refine le_antisymm (not_lt.mp fun positive => ?_) (nonneg _ inside)
  have inside := mem_clusters.mpr ⟨k, positive, rfl⟩
  rw [empty] at inside
  exact List.not_mem_nil inside

def balancedProblem (mw_sqrt : F → F) (signature1 signature2 : List (WeightPos F)) :
    EMDProblem F :=
  let rows := clusters signature1
  let cols := clusters signature2
  let idx1 := fun i => rows[i]?.bind Prod.snd
  let idx2 := fun j => cols[j]?.bind Prod.snd
  let cost := fun i j => match (idx1 i).bind (signature1[·]?), (idx2 j).bind (signature2[·]?) with
    | some p, some q => emdDistL2 mw_sqrt p q
    | _, _ => 0
  { ssize := rows.length, dsize := cols.length, cost, idx1, idx2
    weight := (signature1.map WeightPos.weight).sum
    max_cost := largest (fun c => cost c.1 c.2) 0
      (cellsOf (List.range rows.length) (List.range cols.length)) }

theorem emdProblem_balanced [IsStrictOrderedRing F] (mw_sqrt : F → F)
    (nonneg1 : ∀ p ∈ signature1, 0 ≤ p.weight) (nonneg2 : ∀ q ∈ signature2, 0 ≤ q.weight)
    (equal : (signature1.map WeightPos.weight).sum = (signature2.map WeightPos.weight).sum)
    (positive : 0 < (signature1.map WeightPos.weight).sum) :
    emdProblem mw_sqrt signature1 signature2 = some (balancedProblem mw_sqrt signature1 signature2,
      fun i => ((clusters signature1)[i]?.map Prod.fst).getD 0,
      fun j => ((clusters signature2)[j]?.map Prod.fst).getD 0) := by
  have some_row := clusters_ne_nil nonneg1 positive
  have some_col := clusters_ne_nil nonneg2 (equal ▸ positive)
  have same : ¬EMD_EPS * (signature1.map WeightPos.weight).sum ≤ mw_fabs (0 : F) := by
    rw [mw_fabs, if_neg (lt_irrefl _)]
    exact not_le.mpr (mul_pos (by norm_num [EMD_EPS]) positive)
  rw [emdProblem, emdWeights_eq nonneg1, emdWeights_eq nonneg2]
  simp only [Option.bind_eq_bind, Option.bind_some, ← equal, sub_self, same, false_and, if_false,
    some_row, some_col, or_self, lt_irrefl]
  rfl

/-- The weight at a place of a signature; a dummy cluster has none there. -/
def weightOf (signature : List (WeightPos F)) (place : Option ℕ) : F :=
  ((place.bind (signature[·]?)).map WeightPos.weight).getD 0

/-- The costs of all ways to move one signature to another. -/
def emdCosts (mw_sqrt : F → F) (signature1 signature2 : List (WeightPos F)) : Set F :=
  transportCosts (fun a : Fin signature1.length => (signature1.get a).weight)
    (fun b : Fin signature2.length => (signature2.get b).weight)
    fun a b => emdDistL2 mw_sqrt (signature1.get a) (signature2.get b)

omit [LinearOrder F] in
theorem weightOf_some (k : Fin signature.length) :
    weightOf signature (some k.1) = (signature.get k).weight := by
  rw [weightOf, Option.bind_some, List.getElem?_eq_getElem k.2]
  rfl

variable {mw_sqrt : F → F} {place1 : Fin (clusters signature1).length → Fin signature1.length}
  {place2 : Fin (clusters signature2).length → Fin signature2.length}

theorem Placed.idx {place : Fin (clusters signature).length → Fin signature.length}
    (placed : Placed signature place) (i : Fin (clusters signature).length) :
    (clusters signature)[i.1]?.bind Prod.snd = some (place i).1 := by
  rw [List.getElem?_eq_getElem i.2, Option.bind_some]
  exact congrArg Prod.snd (placed.here i)

theorem Placed.cost (placed1 : Placed signature1 place1) (placed2 : Placed signature2 place2)
    (i : Fin (clusters signature1).length) (j : Fin (clusters signature2).length) :
    (balancedProblem mw_sqrt signature1 signature2).cost i j =
      emdDistL2 mw_sqrt (signature1.get (place1 i)) (signature2.get (place2 j)) := by
  simp only [balancedProblem, placed1.idx i, placed2.idx j, Option.bind_some,
    List.getElem?_eq_getElem (place1 i).2, List.getElem?_eq_getElem (place2 j).2]
  rfl

structure EMDState.Between (state : EMDState F) (mw_sqrt : F → F)
    (signature1 signature2 : List (WeightPos F)) : Prop where
  basis : state.Basis
  values : ∀ k ∈ state.basics, 0 ≤ (state.x k).val
  problem : state.toEMDProblem = balancedProblem mw_sqrt signature1 signature2
  rowSums : ∀ i < state.ssize, state.rowSum i = weightOf signature1 (state.idx1 i)
  colSums : ∀ j < state.dsize, state.colSum j = weightOf signature2 (state.idx2 j)

section
variable {state : EMDState F}

theorem EMDState.Between.supply (flow : state.Between mw_sqrt signature1 signature2)
    (placed1 : Placed signature1 place1) (i : Fin (clusters signature1).length) :
    state.rowSum i = (signature1.get (place1 i)).weight := by
  have sum := flow.rowSums i
  rw [flow.problem] at sum
  exact (sum i.2).trans ((congrArg (weightOf signature1) (placed1.idx i)).trans (weightOf_some _))

theorem EMDState.Between.demand (flow : state.Between mw_sqrt signature1 signature2)
    (placed2 : Placed signature2 place2) (j : Fin (clusters signature2).length) :
    state.colSum j = (signature2.get (place2 j)).weight := by
  have sum := flow.colSums j
  rw [flow.problem] at sum
  exact (sum j.2).trans ((congrArg (weightOf signature2) (placed2.idx j)).trans (weightOf_some _))

theorem EMDState.Between.flow_eq (flow : state.Between mw_sqrt signature1 signature2)
    (nonneg1 : ∀ p ∈ signature1, 0 ≤ p.weight) (nonneg2 : ∀ q ∈ signature2, 0 ≤ q.weight) :
    emdComputeTotalFlow state = state.totalCost := by
  obtain ⟨place1, placed1⟩ := exists_places nonneg1
  obtain ⟨place2, placed2⟩ := exists_places nonneg2
  refine emdComputeTotalFlow_eq fun k used => ?_
  have row := flow.basis.rows k used
  have col := flow.basis.cols k used
  rw [flow.problem] at row col ⊢
  refine ⟨?_, ?_⟩
  · exact (congrArg Option.isSome (placed1.idx ⟨_, row⟩)).trans rfl
  · exact (congrArg Option.isSome (placed2.idx ⟨_, col⟩)).trans rfl

variable [IsStrictOrderedRing F]

theorem EMDState.Between.mem_costs (flow : state.Between mw_sqrt signature1 signature2)
    (nonneg1 : ∀ p ∈ signature1, 0 ≤ p.weight) (nonneg2 : ∀ q ∈ signature2, 0 ≤ q.weight) :
    state.totalCost ∈ emdCosts mw_sqrt signature1 signature2 := by
  obtain ⟨place1, placed1⟩ := exists_places nonneg1
  obtain ⟨place2, placed2⟩ := exists_places nonneg2
  have supply := flow.supply placed1
  have demand := flow.demand placed2
  have own := isFlow flow.basis flow.values
  have spent := flowCost_flow flow.basis state.cost
  obtain ⟨-, -, problem, -, -⟩ := flow
  obtain ⟨state_problem, x, end_x, enter_x, is_x, rows_x, cols_x, u, v, s, d, delta⟩ := state
  dsimp only at problem
  subst problem
  obtain ⟨g, flow, same⟩ := own.push placed1.injective placed2.injective
    (fun i => (supply i).symm) (fun j => (demand j).symm) placed1.off placed2.off
    fun a b => emdDistL2 mw_sqrt (signature1.get a) (signature2.get b)
  refine ⟨g, flow, same.trans (.trans ?_ spent)⟩
  exact congrArg (flowCost · _) (funext fun i => funext fun j => (placed1.cost placed2 i j).symm)

theorem EMDState.Optimal.le_costs {before : EMDState F} (optimal : before.Optimal state)
    (flow : state.Between mw_sqrt signature1 signature2)
    (nonneg1 : ∀ p ∈ signature1, 0 ≤ p.weight) (nonneg2 : ∀ q ∈ signature2, 0 ≤ q.weight)
    (cols : 0 < state.dsize) :
    ∀ c ∈ emdCosts mw_sqrt signature1 signature2, state.totalCost ≤
      c + EMD_EPS * state.max_cost * (signature1.map WeightPos.weight).sum := by
  obtain ⟨place1, placed1⟩ := exists_places nonneg1
  obtain ⟨place2, placed2⟩ := exists_places nonneg2
  have max_cost : 0 ≤ state.max_cost := by
    rw [flow.problem]
    exact (le_largest _ _ _).1
  have supply := flow.supply placed1
  have demand := flow.demand placed2
  have least := fun g => optimal.totalCost_le flow.basis cols max_cost flow.values (g := g)
  have total : ∑ i : Fin (clusters signature1).length, state.rowSum i =
      (signature1.map WeightPos.weight).sum := by
    refine (Finset.sum_congr rfl fun i _ => supply i).trans ?_
    refine (sum_comp_of_zero_off (g := fun k => (signature1.get k).weight) placed1.injective
      placed1.off).trans ?_
    exact Fin.sum_univ_fun_getElem signature1 WeightPos.weight
  have problem := flow.problem
  clear flow optimal cols max_cost
  obtain ⟨state_problem, x, end_x, enter_x, is_x, rows_x, cols_x, u, v, s, d, delta⟩ := state
  dsimp only at problem
  subst problem
  rintro c ⟨g, moved, rfl⟩
  obtain ⟨moved', same⟩ := moved.pull placed1.injective placed2.injective
    (fun i => (supply i).symm) (fun j => (demand j).symm) placed1.off placed2.off
    fun a b => emdDistL2 mw_sqrt (signature1.get a) (signature2.get b)
  refine (least _ moved').trans (add_le_add (le_of_eq ?_) (le_of_eq ?_))
  · refine (congrArg (flowCost · _) ?_).trans same
    exact funext fun i => funext fun j => placed1.cost placed2 i j
  · exact congrArg (EMD_EPS * (balancedProblem mw_sqrt signature1 signature2).max_cost * ·) total

end

end

/-! ## The distance -/

section
variable {F : Type} [Field F] [LinearOrder F] [IsStrictOrderedRing F] {mw_sqrt : F → F}
  {signature1 signature2 : List (WeightPos F)} {start : EMDState F}

theorem emdInitEMD_problem (nonneg1 : ∀ p ∈ signature1, 0 ≤ p.weight)
    (nonneg2 : ∀ q ∈ signature2, 0 ≤ q.weight)
    (equal : (signature1.map WeightPos.weight).sum = (signature2.map WeightPos.weight).sum)
    (positive : 0 < (signature1.map WeightPos.weight).sum)
    (init : emdInitEMD mw_sqrt signature1 signature2 = some start) :
    start.toEMDProblem = balancedProblem mw_sqrt signature1 signature2 := by
  rw [emdInitEMD, emdProblem_balanced mw_sqrt nonneg1 nonneg2 equal positive] at init
  rw [← Option.some.inj init]
  exact emdRussel_problem _

end

/-- What `emdCalc` returns where the search ends with the test for the optimum, on a basis that
is a flow between the signatures: not less than the least cost for each unit of weight, and not
more than that by more than the tolerance. -/
theorem emdCalc_optimal {mw_sqrt : ℝ → ℝ} {EMD_INVALID : ℝ} {fuel : ℕ}
    {signature1 signature2 : List (WeightPos ℝ)} {start final : EMDState ℝ} {weight : ℝ}
    (nonneg1 : ∀ p ∈ signature1, 0 ≤ p.weight) (nonneg2 : ∀ q ∈ signature2, 0 ≤ q.weight)
    (total1 : (signature1.map WeightPos.weight).sum = weight)
    (total2 : (signature2.map WeightPos.weight).sum = weight) (positive : 0 < weight)
    (init : emdInitEMD mw_sqrt signature1 signature2 = some start)
    (run : emdIterateSolution fuel start = some (final, .optimal))
    (basis : final.Basis) (values : ∀ k ∈ final.basics, 0 ≤ (final.x k).val)
    (rowSums : ∀ i < final.ssize, final.rowSum i = weightOf signature1 (final.idx1 i))
    (colSums : ∀ j < final.dsize, final.colSum j = weightOf signature2 (final.idx2 j)) :
    ∃ r m, emdCalc fuel mw_sqrt EMD_INVALID signature1 signature2 = some r ∧
      IsLeast (emdCosts mw_sqrt signature1 signature2) m ∧
      m / weight ≤ r ∧ r ≤ m / weight + EMD_EPS * start.max_cost := by
  obtain ⟨several, before, optimal, kept⟩ := emdIterateSolution_optimal run
  have problem := emdInitEMD_problem nonneg1 nonneg2 (total1.trans total2.symm)
    (total1 ▸ positive) init
  have same : final.toEMDProblem = start.toEMDProblem := optimal.problem.trans kept
  have between : final.Between mw_sqrt signature1 signature2 :=
    ⟨basis, values, same.trans problem, rowSums, colSums⟩
  have cols : 0 < final.dsize := by
    rw [same]
    exact Nat.zero_lt_of_lt several
  have heavy : final.weight = weight := by
    rw [between.problem]
    exact total1
  obtain ⟨f, flow, spent⟩ := between.mem_costs nonneg1 nonneg2
  obtain ⟨m, attained, below⟩ := exists_least_cost flow
    fun a b => emdDistL2 mw_sqrt (signature1.get a) (signature2.get b)
  refine ⟨final.totalCost / weight, m, ?_, ⟨attained, below⟩, ?_, ?_⟩
  · rw [emdCalc, emdCalcStop, init]
    simp only [run, Option.map_some, EMDStop.result, if_true, between.flow_eq nonneg1 nonneg2,
      heavy]
  · exact div_le_div_of_nonneg_right (below ⟨f, flow, spent⟩) positive.le
  · have most := optimal.le_costs between nonneg1 nonneg2 cols m attained
    rw [total1, same] at most
    rw [div_add' _ _ _ positive.ne', div_le_div_iff_of_pos_right positive]
    exact most

/-! ## Two points -/

/-- A unit of weight at each of two points. -/
noncomputable def twoPoints : List (WeightPos ℝ) := [⟨1, 0, 0⟩, ⟨1, 1, 0⟩]

noncomputable def twoPointsProblem : EMDProblem ℝ := balancedProblem Real.sqrt twoPoints twoPoints

theorem clusters_twoPoints : clusters twoPoints = [(1, some 0), (1, some 1)] := by
  simp [clusters, twoPoints, List.zipIdx]

theorem twoPointsProblem_cost :
    twoPointsProblem.cost 0 0 = 0 ∧ twoPointsProblem.cost 0 1 = 1 ∧
      twoPointsProblem.cost 1 0 = 1 ∧ twoPointsProblem.cost 1 1 = 0 := by
  simp only [twoPointsProblem, balancedProblem, clusters_twoPoints]
  simp [emdDistL2, twoPoints]

theorem twoPointsProblem_size : twoPointsProblem.ssize = 2 ∧ twoPointsProblem.dsize = 2 ∧
    twoPointsProblem.weight = 2 := by
  simp only [twoPointsProblem, balancedProblem, clusters_twoPoints]
  norm_num [twoPoints]

noncomputable def twoPointsStart : EMDState ℝ :=
  { emdStart twoPointsProblem (fun i => ((clusters twoPoints)[i]?.map Prod.fst).getD 0)
      fun j => ((clusters twoPoints)[j]?.map Prod.fst).getD 0 with
    u := fun i => largest (twoPointsProblem.cost i) (-EMD_INF) (List.range twoPointsProblem.dsize)
    v := fun j => largest (twoPointsProblem.cost · j) (-EMD_INF) (List.range twoPointsProblem.ssize)
    delta := fun i j => twoPointsProblem.cost i j -
      largest (twoPointsProblem.cost i) (-EMD_INF) (List.range twoPointsProblem.dsize) -
      largest (twoPointsProblem.cost · j) (-EMD_INF) (List.range twoPointsProblem.ssize) }

theorem twoPointsStart_delta :
    twoPointsStart.delta 0 0 = -2 ∧ twoPointsStart.delta 0 1 = -1 ∧
      twoPointsStart.delta 1 0 = -1 ∧ twoPointsStart.delta 1 1 = -2 := by
  obtain ⟨c00, c01, c10, c11⟩ := twoPointsProblem_cost
  obtain ⟨rows, cols, -⟩ := twoPointsProblem_size
  have range : List.range 2 = [0, 1] := rfl
  simp only [twoPointsStart, rows, cols, range, largest, List.foldl_cons, List.foldl_nil, c00, c01,
    c10, c11]
  norm_num [EMD_INF]


/-- Russel's method takes the cells without a distance, and one more for the tree. -/
noncomputable def twoPointsEnd : EMDState ℝ :=
  let first := twoPointsStart.allot 0 0 1 (update twoPointsStart.s 0 0) (update twoPointsStart.d 0 0)
  let second := first.allot 1 1 1 (update first.s 1 0) (update first.d 1 0)
  second.allot 1 0 0 (update second.s 1 0) (update second.d 0 0)

theorem emdRussel_twoPoints : emdRussel (emdStart twoPointsProblem
    (fun i => ((clusters twoPoints)[i]?.map Prod.fst).getD 0)
      fun j => ((clusters twoPoints)[j]?.map Prod.fst).getD 0) = twoPointsEnd := by
  obtain ⟨d00, d01, d10, d11⟩ := twoPointsStart_delta
  obtain ⟨c00, c01, c10, c11⟩ := twoPointsProblem_cost
  obtain ⟨rows, cols, weight⟩ := twoPointsProblem_size
  have supply : twoPointsStart.s 0 = 1 ∧ twoPointsStart.s 1 = 1 := by
    simp [twoPointsStart, emdStart, clusters_twoPoints]
  have costed : twoPointsProblem.Costed := by
    intro i hi j hj lowest
    refine absurd lowest ?_
    rw [rows] at hi
    rw [cols] at hj
    interval_cases i <;> interval_cases j <;> norm_num [c00, c01, c10, c11, EMD_INF]
  have maxima : twoPointsStart.Maxima (List.range twoPointsProblem.ssize)
      (List.range twoPointsProblem.dsize) :=
    EMDState.Maxima.start (emdStart twoPointsProblem _ _) costed
  have positive : 0 < twoPointsProblem.weight * EMD_EPS := by
    rw [weight]
    norm_num [EMD_EPS]
  have first : (smallest (fun c : ℕ × ℕ => twoPointsStart.delta c.1 c.2) (cellsOf [0, 1] [0, 1])).1 =
      some (0, 0) := by
    norm_num [smallest, cellsOf, d00, d01, d10, d11, EMD_INF]
  have second : (smallest (fun c : ℕ × ℕ => twoPointsStart.delta c.1 c.2) (cellsOf [1] [0, 1])).1 =
      some (1, 1) := by
    norm_num [smallest, cellsOf, d10, d11, EMD_INF]
  have third : (smallest (fun c : ℕ × ℕ => twoPointsStart.delta c.1 c.2) (cellsOf [1] [0])).1 =
      some (1, 0) := by
    norm_num [smallest, cellsOf, d10, EMD_INF]
  show emdRusselLoop _ (twoPointsProblem.ssize + twoPointsProblem.dsize) twoPointsStart
    (List.range twoPointsProblem.ssize) (List.range twoPointsProblem.dsize) = _
  rw [rows, cols] at maxima ⊢
  have keep : ∀ {rows' cols' : List ℕ}, rows' ⊆ [0, 1] → cols' ⊆ [0, 1] →
    twoPointsStart.Maxima rows' cols' := fun sub sub' => maxima.sub sub sub'
  let state := twoPointsStart.allot 0 0 1 (update twoPointsStart.s 0 0)
    (update twoPointsStart.d 0 0)
  let state' := state.allot 1 1 1 (update state.s 1 0) (update state.d 1 0)
  have left : state.s 1 = 1 ∧ state.d 1 = 1 := by
    show update twoPointsStart.s 0 0 1 = 1 ∧ update twoPointsStart.s 0 0 1 = 1
    rw [update_of_ne Nat.one_ne_zero]
    exact ⟨supply.2, supply.2⟩
  have left' : state'.s 1 = 0 ∧ state'.d 0 = 0 := by
    show update (update twoPointsStart.s 0 0) 1 0 1 = 0 ∧ update (update twoPointsStart.s 0 0) 1 0 0 = 0
    rw [update_self, update_of_ne Nat.zero_ne_one, update_self]
    exact ⟨rfl, rfl⟩
  calc
    emdRusselLoop _ 4 twoPointsStart [0, 1] [0, 1] = emdRusselLoop _ 3 state [1] [0, 1] :=
      emdRusselLoop_equal _ 3 maxima positive first supply.1 supply.1
    _ = emdRusselLoop _ 2 state' [1] [0] :=
      emdRusselLoop_equal _ 2 ((keep (by decide) (by decide)).allot _ _ _) positive second left.1
        left.2
    _ = emdRusselLoop _ 1 twoPointsEnd [1] [] :=
      emdRusselLoop_equal _ 1 (((keep (by decide) (by decide)).allot _ _ _).allot _ _ _) positive
        third left'.1 left'.2
    _ = twoPointsEnd := emdRusselLoop_stops _ 1 rfl

theorem twoPointsEnd_forest : twoPointsEnd.Forest [1] [] := by
  obtain ⟨rows, cols, -⟩ := twoPointsProblem_size
  have start : twoPointsStart.Forest [0, 1] [0, 1] := by
    have forest := EMDState.Forest.start twoPointsProblem
      (fun i => ((clusters twoPoints)[i]?.map Prod.fst).getD 0)
      (fun j => ((clusters twoPoints)[j]?.map Prod.fst).getD 0) twoPointsStart.u twoPointsStart.v
      twoPointsStart.delta
    rw [rows, cols] at forest
    exact forest
  have first : (twoPointsStart.allot 0 0 1 (update twoPointsStart.s 0 0)
      (update twoPointsStart.d 0 0)).Forest [1] [0, 1] :=
    start.allot (by decide) (by decide) (.inl (by decide)) 1 _ _
  have second : ((twoPointsStart.allot 0 0 1 (update twoPointsStart.s 0 0)
      (update twoPointsStart.d 0 0)).allot 1 1 1 (update (update twoPointsStart.s 0 0) 1 0)
      (update (update twoPointsStart.d 0 0) 1 0)).Forest [1] [0] :=
    first.allot (by decide) (by decide) (.inr (by decide)) 1 _ _
  exact second.allot (by decide) (by decide) (.inr (by decide)) 0 _ _

theorem emdFindBasicVariables_twoPoints :
    (emdFindBasicVariables twoPointsEnd.withFree).1 = true := by
  obtain ⟨-, cols, -⟩ := twoPointsProblem_size
  refine (emdFindBasicVariables_iff ?_).mpr (twoPointsEnd_forest.tree rfl).1
  exact (cols ▸ two_pos : 0 < twoPointsProblem.dsize)

theorem emdIsOptimal_twoPoints :
    (emdIsOptimal (emdFindBasicVariables twoPointsEnd.withFree).2).1 = 2 := by
  obtain ⟨c00, c01, c10, c11⟩ := twoPointsProblem_cost
  obtain ⟨rows, cols, -⟩ := twoPointsProblem_size
  have price : ∀ i < 2, ∀ j < 2, twoPointsEnd.is_x i j = true → twoPointsProblem.cost i j =
      (emdFindBasicVariables twoPointsEnd.withFree).2.u i +
        (emdFindBasicVariables twoPointsEnd.withFree).2.v j := by
    intro i hi j hj basic
    exact @emdFindBasicVariables_cost ℝ _ twoPointsEnd.withFree
      (cols ▸ two_pos : 0 < twoPointsProblem.dsize) emdFindBasicVariables_twoPoints
      (twoPointsEnd_forest.basis rfl).card_marked _ _ (rows ▸ hi) (cols ▸ hj) basic
  have p00 := price 0 (by decide) 0 (by decide) (by decide)
  have p10 := price 1 (by decide) 0 (by decide) (by decide)
  have p11 := price 1 (by decide) 1 (by decide) (by decide)
  have cells : (cellsOf (List.range twoPointsProblem.ssize)
      (List.range twoPointsProblem.dsize)).filter (fun c => !twoPointsEnd.is_x c.1 c.2) =
      [(0, 1)] := by
    rw [rows, cols]
    decide
  have value : twoPointsProblem.cost 0 1 - (emdFindBasicVariables twoPointsEnd.withFree).2.u 0 -
      (emdFindBasicVariables twoPointsEnd.withFree).2.v 1 = 2 := by linarith
  refine (congrArg (fun l => (smallest (fun c : ℕ × ℕ => twoPointsProblem.cost c.1 c.2 -
    (emdFindBasicVariables twoPointsEnd.withFree).2.u c.1 -
    (emdFindBasicVariables twoPointsEnd.withFree).2.v c.2) l).2) cells).trans ?_
  rw [smallest, List.foldl_cons, List.foldl_nil, value, if_pos]
  norm_num [EMD_INF]

theorem emdIterateSolution_twoPoints :
    emdIterateSolution 0 twoPointsEnd.withFree =
      some (twoPointsEnd.withFree.tested, .optimal) := by
  obtain ⟨rows, cols, -⟩ := twoPointsProblem_size
  have found := emdFindBasicVariables_twoPoints
  have least := emdIsOptimal_twoPoints
  have tolerance : -(EMD_EPS * twoPointsEnd.withFree.max_cost) ≤ 2 := by
    have max_cost : 0 ≤ twoPointsEnd.withFree.max_cost := (le_largest _ _ _).1
    have eps : (0 : ℝ) ≤ EMD_EPS := by norm_num [EMD_EPS]
    linarith [mul_nonneg eps max_cost]
  have turn : emdIterateTurn 0 twoPointsEnd.withFree =
      some (.inr (twoPointsEnd.withFree.tested, .optimal)) := by
    rw [emdIterateTurn]
    dsimp only
    rw [if_pos found, least, if_neg, if_pos tolerance]
    · rfl
    · norm_num [EMD_INF]
  rw [emdIterateSolution, if_pos]
  · show emdIterate 0 (2498 + 1) _ = _
    rw [emdIterate, turn]
  · exact ⟨rows ▸ one_lt_two, cols ▸ one_lt_two⟩

theorem twoPointsEnd_values : ∀ k < 3, 0 ≤ (twoPointsEnd.x k).val := by
  intro k lt
  interval_cases k <;> simp [twoPointsEnd, EMDState.allot, twoPointsStart, emdStart]

theorem twoPointsEnd_sums : ∀ i < 2, twoPointsEnd.lineSum EMDNode2D.i i = 1 ∧
    twoPointsEnd.lineSum EMDNode2D.j i = 1 := by
  have none : ∀ (line : EMDNode2D ℝ → ℕ) (i : ℕ), twoPointsStart.lineSum line i = 0 :=
    fun _ _ => Finset.sum_range_zero _
  intro i lt
  interval_cases i <;> simp [twoPointsEnd, EMDState.lineSum_allot, none]

theorem weightOf_twoPoints : ∀ i < 2, weightOf twoPoints (twoPointsProblem.idx1 i) = 1 ∧
    weightOf twoPoints (twoPointsProblem.idx2 i) = 1 := by
  intro i lt
  simp only [twoPointsProblem, balancedProblem, clusters_twoPoints, weightOf]
  interval_cases i <;> simp [twoPoints]

theorem emdInitEMD_twoPoints :
    emdInitEMD Real.sqrt twoPoints twoPoints = some twoPointsEnd.withFree := by
  have nonneg : ∀ p ∈ twoPoints, 0 ≤ p.weight := by simp [twoPoints]
  have total : (twoPoints.map WeightPos.weight).sum = 2 := by norm_num [twoPoints]
  rw [emdInitEMD, emdProblem_balanced _ nonneg nonneg rfl (total ▸ two_pos), Option.map_some]
  exact congrArg (fun state : EMDState ℝ => some state.withFree) emdRussel_twoPoints

theorem emdCalc_twoPoints :
    ∃ r m, emdCalc 0 Real.sqrt (-1) twoPoints twoPoints = some r ∧
      IsLeast (emdCosts Real.sqrt twoPoints twoPoints) m ∧
      m / 2 ≤ r ∧ r ≤ m / 2 + EMD_EPS * twoPointsEnd.withFree.max_cost := by
  have nonneg : ∀ p ∈ twoPoints, 0 ≤ p.weight := by simp [twoPoints]
  have total : (twoPoints.map WeightPos.weight).sum = 2 := by norm_num [twoPoints]
  obtain ⟨rows, cols, -⟩ := twoPointsProblem_size
  refine emdCalc_optimal nonneg nonneg total total two_pos emdInitEMD_twoPoints
    emdIterateSolution_twoPoints
    (twoPointsEnd_forest.basis rfl).tested ?_ ?_ ?_
  · intro k used
    rw [EMDState.tested_x twoPointsEnd.withFree used]
    exact twoPointsEnd_values k (EMDState.mem_basics_withFree.mp used)
  · intro i hi
    rw [EMDState.tested_rowSum, EMDState.withFree_rowSum, (twoPointsEnd_sums i (rows ▸ hi)).1]
    exact (weightOf_twoPoints i (rows ▸ hi)).1.symm
  · intro j hj
    rw [EMDState.tested_colSum, EMDState.withFree_colSum, (twoPointsEnd_sums j (cols ▸ hj)).2]
    exact (weightOf_twoPoints j (cols ▸ hj)).2.symm

end MilkyWay.NBody
