import MilkyWay.Foundation.Bipartite
import MilkyWay.Foundation.RunningMin
import MilkyWay.Foundation.Transport
import MilkyWay.NBody.Emd

/-! The basis of a search for the earth mover's distance: its nodes are all but the one
that is free, their cells are those marked, and their values are a flow. -/

namespace MilkyWay.NBody

open Foundation Function

/-! ## The loops for the smallest and largest value -/

section
variable {R : Type} {ι : Type} [LT R] [DecidableLT R]

theorem smallest_foldl (f : ι → R) (l : List ι) (least : Option ι × R) :
    l.foldl (fun least a => if f a < least.2 then (some a, f a) else least) least =
      ((records f least.2 l).getLast?.or least.1, minimum f least.2 l) := by
  induction l generalizing least with
  | nil => rfl
  | cons a l ih =>
      rw [List.foldl_cons, ih, minimum_cons, records]
      by_cases less : f a < least.2
      · rw [if_pos less, if_pos less, if_pos less, List.getLast?_cons]
        cases (records f (f a) l).getLast? <;> rfl
      · rw [if_neg less, if_neg less, if_neg less]

theorem smallest_eq [OfScientific R] (f : ι → R) (l : List ι) :
    smallest f l = ((records f EMD_INF l).getLast?, minimum f EMD_INF l) := by
  rw [smallest, smallest_foldl, Option.or_none]

end

section
variable {F : Type} {ι : Type} [LinearOrder F] {f : ι → F} {l : List ι}

theorem smallest_le [OfScientific F] {a : ι} (mem : a ∈ l) : (smallest f l).2 ≤ f a := by
  rw [smallest_eq]
  exact not_lt.mp (not_lt_minimum f EMD_INF l a mem)

theorem smallest_some [OfScientific F] {a : ι} (found : (smallest f l).1 = some a) :
    a ∈ l ∧ f a = (smallest f l).2 ∧ f a < EMD_INF := by
  rw [smallest_eq] at found ⊢
  obtain ⟨before, later, rfl, below, value, -⟩ := lastRecord_spec f found
  exact ⟨by simp, value, below⟩

theorem smallest_isSome [OfScientific F] {a : ι} (mem : a ∈ l) (below : f a < EMD_INF) :
    ∃ b, (smallest f l).1 = some b := by
  rw [smallest_eq]
  exact exists_lastRecord f mem below

theorem le_largest (f : ι → F) (start : F) (l : List ι) :
    start ≤ largest f start l ∧ ∀ a ∈ l, f a ≤ largest f start l := by
  induction l generalizing start with
  | nil => exact ⟨le_refl start, fun a mem => absurd mem List.not_mem_nil⟩
  | cons b l ih =>
      obtain ⟨least, rest⟩ := ih (if start < f b then f b else start)
      have first : start ≤ if start < f b then f b else start := by
        split_ifs with less
        · exact less.le
        · exact le_refl start
      have this : f b ≤ if start < f b then f b else start := by
        split_ifs with less
        · exact le_refl _
        · exact not_lt.mp less
      refine ⟨first.trans least, fun a mem => ?_⟩
      rcases List.mem_cons.mp mem with rfl | mem
      · exact this.trans least
      · exact rest a mem

end

theorem mem_cellsOf {rows cols : List ℕ} {c : ℕ × ℕ} :
    c ∈ cellsOf rows cols ↔ c.1 ∈ rows ∧ c.2 ∈ cols := by
  obtain ⟨i, j⟩ := c
  simp [cellsOf]

/-! ## Basic nodes -/

namespace EMDState

section
variable {R : Type}

/-- The nodes in use, which are all but the free one. -/
def basics (state : EMDState R) : Finset ℕ := (Finset.range state.end_x).erase state.enter_x

def cellAt (state : EMDState R) (k : ℕ) : ℕ × ℕ := ((state.x k).i, (state.x k).j)

/-- The nodes in use are one less than there are rows and columns, they have cells of
their own, and these are the cells marked. -/
structure Basis (state : EMDState R) : Prop where
  free : state.enter_x < state.end_x
  count : state.end_x = state.ssize + state.dsize
  rows : ∀ k ∈ state.basics, (state.x k).i < state.ssize
  cols : ∀ k ∈ state.basics, (state.x k).j < state.dsize
  distinct : ∀ k ∈ state.basics, ∀ k' ∈ state.basics, state.cellAt k = state.cellAt k' → k = k'
  marked : ∀ i < state.ssize, ∀ j < state.dsize,
    (state.is_x i j = true ↔ ∃ k ∈ state.basics, state.cellAt k = (i, j))

variable {state : EMDState R}

theorem mem_basics {k : ℕ} : k ∈ state.basics ↔ k < state.end_x ∧ k ≠ state.enter_x := by
  rw [basics, Finset.mem_erase, Finset.mem_range, and_comm]

theorem Basis.card_basics (basis : state.Basis) :
    state.basics.card + 1 = state.ssize + state.dsize := by
  rw [basics, Finset.card_erase_of_mem (Finset.mem_range.mpr basis.free), Finset.card_range,
    ← basis.count]
  have free := basis.free
  omega

theorem Basis.image_cellAt (basis : state.Basis) :
    state.basics.image state.cellAt = markedCells state.ssize state.dsize state.is_x := by
  ext c
  rw [Finset.mem_image, mem_markedCells]
  constructor
  · rintro ⟨k, used, rfl⟩
    refine ⟨basis.rows k used, basis.cols k used, ?_⟩
    exact (basis.marked _ (basis.rows k used) _ (basis.cols k used)).mpr ⟨k, used, rfl⟩
  · rintro ⟨row, col, marked⟩
    exact (basis.marked c.1 row c.2 col).mp marked

theorem Basis.card_marked (basis : state.Basis) :
    (markedCells state.ssize state.dsize state.is_x).card + 1 = state.ssize + state.dsize := by
  rw [← basis.image_cellAt,
    Finset.card_image_of_injOn fun k hk k' hk' => basis.distinct k hk k' hk']
  exact basis.card_basics

/-! ## The flow of a basis -/

/-- The sums of the values along a row and along a column. -/
def rowSum [AddCommMonoid R] (state : EMDState R) (i : ℕ) : R :=
  ∑ k ∈ state.basics with (state.x k).i = i, (state.x k).val

def colSum [AddCommMonoid R] (state : EMDState R) (j : ℕ) : R :=
  ∑ k ∈ state.basics with (state.x k).j = j, (state.x k).val

def flow [AddCommMonoid R] (state : EMDState R) (i j : ℕ) : R :=
  ∑ k ∈ state.basics with state.cellAt k = (i, j), (state.x k).val

theorem sum_flow {M : Type} [AddCommMonoid M] (basis : state.Basis) (g : ℕ → M) :
    ∑ i : Fin state.ssize, ∑ j : Fin state.dsize,
        ∑ k ∈ state.basics with state.cellAt k = (i.1, j.1), g k = ∑ k ∈ state.basics, g k := by
  have cell : ∀ k ∈ state.basics, ∑ i : Fin state.ssize, ∑ j : Fin state.dsize,
      (if state.cellAt k = (i.1, j.1) then g k else 0) = g k := by
    intro k used
    rw [Finset.sum_eq_single ⟨(state.x k).i, basis.rows k used⟩,
      Finset.sum_eq_single ⟨(state.x k).j, basis.cols k used⟩]
    · exact if_pos rfl
    · exact fun j _ other => if_neg fun same => other (Fin.ext (Prod.mk.inj same).2.symm)
    · exact fun outside => absurd (Finset.mem_univ _) outside
    · exact fun i _ other => Finset.sum_eq_zero fun j _ =>
        if_neg fun same => other (Fin.ext (Prod.mk.inj same).1.symm)
    · exact fun outside => absurd (Finset.mem_univ _) outside
  rw [← Finset.sum_congr rfl cell]
  simp only [Finset.sum_filter]
  rw [Finset.sum_congr rfl fun i _ => Finset.sum_comm, Finset.sum_comm]

end

section
variable {R : Type} [AddCommMonoid R] {state : EMDState R}

theorem sum_flow_row (basis : state.Basis) (i : ℕ) :
    ∑ j : Fin state.dsize, state.flow i j = state.rowSum i := by
  have cell : ∀ k ∈ state.basics, ∑ j : Fin state.dsize,
      (if state.cellAt k = (i, j.1) then (state.x k).val else 0) =
        if (state.x k).i = i then (state.x k).val else 0 := by
    intro k used
    rw [Finset.sum_eq_single ⟨(state.x k).j, basis.cols k used⟩]
    · simp [cellAt]
    · exact fun j _ other => if_neg fun same => other (Fin.ext (Prod.mk.inj same).2.symm)
    · exact fun outside => absurd (Finset.mem_univ _) outside
  simp only [flow, rowSum, Finset.sum_filter]
  rw [Finset.sum_comm]
  exact Finset.sum_congr rfl cell

theorem sum_flow_col (basis : state.Basis) (j : ℕ) :
    ∑ i : Fin state.ssize, state.flow i j = state.colSum j := by
  have cell : ∀ k ∈ state.basics, ∑ i : Fin state.ssize,
      (if state.cellAt k = (i.1, j) then (state.x k).val else 0) =
        if (state.x k).j = j then (state.x k).val else 0 := by
    intro k used
    rw [Finset.sum_eq_single ⟨(state.x k).i, basis.rows k used⟩]
    · simp [cellAt]
    · exact fun i _ other => if_neg fun same => other (Fin.ext (Prod.mk.inj same).1.symm)
    · exact fun outside => absurd (Finset.mem_univ _) outside
  simp only [flow, colSum, Finset.sum_filter]
  rw [Finset.sum_comm]
  exact Finset.sum_congr rfl cell

end

theorem isFlow {F : Type} [CommSemiring F] [PartialOrder F] [IsOrderedAddMonoid F]
    {state : EMDState F} (basis : state.Basis)
    (values : ∀ k ∈ state.basics, 0 ≤ (state.x k).val) :
    IsFlow (fun i : Fin state.ssize => state.rowSum i) (fun j : Fin state.dsize => state.colSum j)
      (fun i j => state.flow i j) where
  nonneg _ _ := Finset.sum_nonneg fun k used => values k (Finset.mem_filter.mp used).1
  row i := sum_flow_row basis i
  col j := sum_flow_col basis j

theorem flowCost_flow {F : Type} [CommSemiring F] [PartialOrder F] {state : EMDState F}
    (basis : state.Basis) (cost : ℕ → ℕ → F) :
    flowCost (fun (i : Fin state.ssize) (j : Fin state.dsize) => cost i j)
        (fun i j => state.flow i j) =
      ∑ k ∈ state.basics, (state.x k).val * cost (state.x k).i (state.x k).j := by
  rw [← sum_flow basis]
  refine Finset.sum_congr rfl fun i _ => Finset.sum_congr rfl fun j _ => ?_
  dsimp only [flow]
  rw [Finset.sum_mul]
  refine Finset.sum_congr rfl fun k used => ?_
  have cell := (Finset.mem_filter.mp used).2
  rw [← (Prod.mk.inj cell).1, ← (Prod.mk.inj cell).2]

end EMDState

section
variable {F : Type} [Field F] {state : EMDState F}

theorem emdComputeTotalFlow_eq
    (places : ∀ k ∈ state.basics, (state.idx1 (state.x k).i).isSome = true ∧
      (state.idx2 (state.x k).j).isSome = true) :
    emdComputeTotalFlow state =
      ∑ k ∈ state.basics, (state.x k).val * state.cost (state.x k).i (state.x k).j := by
  have loop : ∀ n, (∀ k < n, k ≠ state.enter_x → (state.idx1 (state.x k).i).isSome = true ∧
        (state.idx2 (state.x k).j).isSome = true) →
      (List.range n).foldl (fun totalCost k =>
        let xp := state.x k
        if k = state.enter_x then totalCost
        else if (state.idx1 xp.i).isSome && (state.idx2 xp.j).isSome then
          totalCost + xp.val * state.cost xp.i xp.j
        else totalCost) 0 =
      ∑ k ∈ (Finset.range n).erase state.enter_x,
        (state.x k).val * state.cost (state.x k).i (state.x k).j := by
    intro n
    induction n with
    | zero => exact fun _ => rfl
    | succ n ih =>
        intro places
        rw [List.range_succ, List.foldl_append, ih fun k lt => places k (Nat.lt_succ_of_lt lt),
          List.foldl_cons, List.foldl_nil, Finset.range_add_one]
        dsimp only
        by_cases free : n = state.enter_x
        · rw [if_pos free, free, Finset.erase_insert_eq_erase]
        · obtain ⟨row, col⟩ := places n n.lt_succ_self free
          rw [if_neg free, row, col, if_pos (by rfl), Finset.erase_insert_of_ne free,
            Finset.sum_insert (by simp), add_comm]
  exact loop state.end_x fun k lt used => places k (EMDState.mem_basics.mpr ⟨lt, used⟩)

end

end MilkyWay.NBody
