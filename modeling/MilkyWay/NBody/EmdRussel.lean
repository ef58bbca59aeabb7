import MilkyWay.NBody.EmdPivot

/-! The first basis. Each turn takes a cell of the rows and columns that are left and strikes out
its row or its column, so every line stays connected with one that is left; what is not
allotted stays with the rows and columns. -/

namespace MilkyWay.NBody

open Foundation Function SimpleGraph

/-! ## The largest costs -/

theorem largest_le {F ι : Type} [LinearOrder F] {f : ι → F} {start bound : F} {l : List ι}
    (first : start ≤ bound) (all : ∀ a ∈ l, f a ≤ bound) : largest f start l ≤ bound := by
  induction l generalizing start with
  | nil => exact first
  | cons a l ih =>
      have next : (if start < f a then f a else start) ≤ bound := by
        split_ifs
        · exact all a List.mem_cons_self
        · exact first
      exact ih next fun b mem => all b (List.mem_cons_of_mem a mem)

section
variable {F : Type} [Field F] [LinearOrder F]

theorem emdRenew_eq {eps : F} {cost : ℕ → ℕ → F} {b a : ℕ} {others : List ℕ}
    {lines : (ℕ → F) × (ℕ → ℕ → F)} (mem : b ∈ others) (start : -EMD_INF ≤ lines.1 a)
    (most : ∀ c ∈ others, cost a c ≤ lines.1 a) : emdRenew eps cost b others lines a = lines := by
  rw [emdRenew]
  by_cases attained : (lines.1 a == cost a b) = true
  · have same : largest (cost a) (-EMD_INF) others = lines.1 a := by
      refine le_antisymm (largest_le start most) ?_
      rw [eq_of_beq attained]
      exact (le_largest (cost a) _ others).2 b mem
    rw [if_pos attained]
    dsimp only
    simp only [same, sub_self, add_zero, update_eq_self, ite_self]
  · rw [if_neg attained]

theorem foldl_emdRenew {eps : F} {cost : ℕ → ℕ → F} {b : ℕ} {others : List ℕ}
    {lines : (ℕ → F) × (ℕ → ℕ → F)} (mem : b ∈ others) (l : List ℕ)
    (start : ∀ a ∈ l, -EMD_INF ≤ lines.1 a)
    (most : ∀ a ∈ l, ∀ c ∈ others, cost a c ≤ lines.1 a) :
    l.foldl (emdRenew eps cost b others) lines = lines := by
  induction l with
  | nil => rfl
  | cons a l ih =>
      rw [List.foldl_cons, emdRenew_eq mem (start a List.mem_cons_self) (most a List.mem_cons_self)]
      exact ih (fun c mem => start c (List.mem_cons_of_mem a mem))
        fun c mem => most c (List.mem_cons_of_mem a mem)

/-- The values of the lines that are left are at least the costs between them, and every
difference between them is one that the search can find. -/
structure EMDState.Maxima (state : EMDState F) (rows cols : List ℕ) : Prop where
  u_start : ∀ i ∈ rows, -EMD_INF ≤ state.u i
  u_most : ∀ i ∈ rows, ∀ j ∈ cols, state.cost i j ≤ state.u i
  v_start : ∀ j ∈ cols, -EMD_INF ≤ state.v j
  v_most : ∀ j ∈ cols, ∀ i ∈ rows, state.cost i j ≤ state.v j
  delta : ∀ i ∈ rows, ∀ j ∈ cols, state.delta i j < EMD_INF

theorem EMDState.Maxima.sub {state : EMDState F} {rows cols rows' cols' : List ℕ}
    (maxima : state.Maxima rows cols) (fewer : rows' ⊆ rows) (fewer' : cols' ⊆ cols) :
    state.Maxima rows' cols' where
  u_start i hi := maxima.u_start i (fewer hi)
  u_most i hi j hj := maxima.u_most i (fewer hi) j (fewer' hj)
  v_start j hj := maxima.v_start j (fewer' hj)
  v_most j hj i hi := maxima.v_most j (fewer' hj) i (fewer hi)
  delta i hi j hj := maxima.delta i (fewer hi) j (fewer' hj)

def Struck (rows cols : List ℕ) (i j : ℕ) (rows' cols' : List ℕ) : Prop :=
  rows' = rows.erase i ∧ cols' = cols ∨ rows' = rows ∧ cols' = cols.erase j

theorem Struck.sub {rows cols rows' cols' : List ℕ} {i j : ℕ}
    (struck : Struck rows cols i j rows' cols') : rows' ⊆ rows ∧ cols' ⊆ cols := by
  rcases struck with ⟨rfl, rfl⟩ | ⟨rfl, rfl⟩
  · exact ⟨List.erase_subset, List.Subset.refl _⟩
  · exact ⟨List.Subset.refl _, List.erase_subset⟩

theorem emdRusselLoop_stops {state : EMDState F} {rows cols : List ℕ} (eps : F) (n : ℕ)
    (nothing : (smallest (fun c => state.delta c.1 c.2) (cellsOf rows cols)).1 = none) :
    emdRusselLoop eps n state rows cols = state := by
  cases n with
  | zero => rfl
  | succ n => rw [emdRusselLoop, nothing]

theorem emdRusselLoop_succ {state next : EMDState F} {rows cols rows' cols' : List ℕ} {i j : ℕ}
    {eps : F} (n : ℕ) (hi : i ∈ rows) (hj : j ∈ cols)
    (least : (smallest (fun c => state.delta c.1 c.2) (cellsOf rows cols)).1 = some (i, j))
    (add : emdAddBasicVariable state rows cols i j = (next, rows', cols'))
    (struck : Struck rows cols i j rows' cols') (maxima : next.Maxima rows cols) :
    emdRusselLoop eps (n + 1) state rows cols =
      if rows' = [] ∧ cols' = [] then next else emdRusselLoop eps n next rows' cols' := by
  have kept := maxima.sub struck.sub.1 struck.sub.2
  rw [emdRusselLoop, least]
  dsimp only
  rw [add]
  dsimp only
  by_cases here : i ∈ rows'
  · rw [if_pos here, foldl_emdRenew here cols' kept.v_start fun a ha c hc => kept.v_most a ha c hc]
  · have there : j ∈ cols' := by
      rcases struck with ⟨rfl, rfl⟩ | ⟨rfl, rfl⟩
      · exact hj
      · exact absurd hi here
    rw [if_neg here, foldl_emdRenew there rows' kept.u_start fun a ha c hc => kept.u_most a ha c hc]

end

/-! ## One more cell -/

namespace EMDState

section
variable {R : Type} {state : EMDState R} {rows cols rows' cols' : List ℕ} {i j : ℕ}

def allot (state : EMDState R) (i j : ℕ) (temp : R) (s d : ℕ → R) : EMDState R :=
  { state with
    s, d
    is_x := setEntry state.is_x i j true
    x := update state.x state.end_x ⟨temp, ![state.rows_x i, state.cols_x j], i, j⟩
    rows_x := update state.rows_x i (some state.end_x)
    cols_x := update state.cols_x j (some state.end_x)
    end_x := state.end_x + 1 }

structure Chained (state : EMDState R) (row col : ℕ → List ℕ) : Prop where
  rows : ∀ i < state.ssize,
    Foundation.Linked (fun a => (state.x a).next 0) (state.rows_x i) (row i)
  cols : ∀ j < state.dsize,
    Foundation.Linked (fun a => (state.x a).next 1) (state.cols_x j) (col j)
  mem_row : ∀ i < state.ssize, ∀ k, k ∈ row i ↔ k < state.end_x ∧ (state.x k).i = i
  mem_col : ∀ j < state.dsize, ∀ k, k ∈ col j ↔ k < state.end_x ∧ (state.x k).j = j

structure Forest (state : EMDState R) (rows cols : List ℕ) : Prop where
  rows_nodup : rows.Nodup
  cols_nodup : cols.Nodup
  rows_lt : ∀ i ∈ rows, i < state.ssize
  cols_lt : ∀ j ∈ cols, j < state.dsize
  count : state.end_x + rows.length + cols.length = state.ssize + state.dsize
  node_row : ∀ k < state.end_x, (state.x k).i < state.ssize
  node_col : ∀ k < state.end_x, (state.x k).j < state.dsize
  covers : state.Covers
  closed : ∀ k < state.end_x, (state.x k).i ∉ rows ∨ (state.x k).j ∉ cols
  reaches : ∀ v : Fin state.ssize ⊕ Fin state.dsize, ∃ w,
    (lineOf w).elim (· ∈ rows) (· ∈ cols) ∧
      (cellGraph state.ssize state.dsize state.is_x).Reachable v w
  chained : ∃ row col, state.Chained row col

theorem x_allot (temp : R) (s d : ℕ → R) {k : ℕ} (lt : k < state.end_x) :
    ((state.allot i j temp s d).x k).val = (state.x k).val ∧
      (state.allot i j temp s d).cellAt k = state.cellAt k := by
  have other : k ≠ state.end_x := lt.ne
  have same : update state.x state.end_x ⟨temp, ![state.rows_x i, state.cols_x j], i, j⟩ k =
      state.x k := update_of_ne other _ _
  constructor
  · exact congrArg EMDNode2D.val same
  · exact congrArg (fun node : EMDNode2D R => (node.i, node.j)) same

theorem x_allot_new (temp : R) (s d : ℕ → R) :
    (state.allot i j temp s d).x state.end_x =
      ⟨temp, ![state.rows_x i, state.cols_x j], i, j⟩ := update_self _ _ _

theorem Covers.allot (covers : state.Covers) (new : ∀ k < state.end_x, state.cellAt k ≠ (i, j))
    (temp : R) (s d : ℕ → R) : (state.allot i j temp s d).Covers := by
  have below : ∀ k, k < (state.allot i j temp s d).end_x ↔ k < state.end_x ∨ k = state.end_x :=
    fun k => Nat.lt_succ_iff_lt_or_eq
  have last : (state.allot i j temp s d).cellAt state.end_x = (i, j) := by
    rw [cellAt, x_allot_new]
  refine ⟨fun k lt k' lt' same => ?_, fun i' hi j' hj => ?_⟩
  · rcases (below k).mp lt with old | rfl <;> rcases (below k').mp lt' with old' | rfl
    · rw [(x_allot temp s d old).2, (x_allot temp s d old').2] at same
      exact covers.distinct k old k' old' same
    · rw [(x_allot temp s d old).2, last] at same
      exact absurd same (new k old)
    · rw [(x_allot temp s d old').2, last] at same
      exact absurd same.symm (new k' old')
    · rfl
  · show setEntry state.is_x i j true i' j' = true ↔ _
    rw [setEntry]
    by_cases here : i' = i ∧ j' = j
    · rw [if_pos here, here.1, here.2]
      exact iff_of_true rfl ⟨state.end_x, (below _).mpr (.inr rfl), last⟩
    · rw [if_neg here, covers.marked i' hi j' hj]
      constructor
      · rintro ⟨k, lt, cell⟩
        exact ⟨k, (below k).mpr (.inl lt), (x_allot temp s d lt).2.trans cell⟩
      · rintro ⟨k, lt, cell⟩
        rcases (below k).mp lt with old | rfl
        · exact ⟨k, old, (x_allot temp s d old).2.symm.trans cell⟩
        · rw [last, Prod.mk.injEq] at cell
          exact absurd ⟨cell.1.symm, cell.2.symm⟩ here

theorem mem_headed {line : ℕ → ℕ} {lists : ℕ → List ℕ} {n end_x : ℕ}
    (mem : ∀ i < n, ∀ k, k ∈ lists i ↔ k < end_x ∧ line k = i) (line' : ℕ → ℕ)
    (same : ∀ k < end_x, line' k = line k) (new : line' end_x = i) (i' : ℕ) (hi : i' < n)
    (k : ℕ) :
    k ∈ update lists i (end_x :: lists i) i' ↔ k < end_x + 1 ∧ line' k = i' := by
  have old : k < end_x → (k ∈ lists i' ↔ line' k = i') := by
    intro lt
    rw [mem i' hi, same k lt, and_iff_right lt]
  have none : ¬k < end_x → k ∉ lists i' := fun not_lt inside =>
    not_lt ((mem i' hi k).mp inside).1
  rw [Nat.lt_succ_iff_lt_or_eq]
  by_cases here : i' = i
  · subst here
    rw [update_self, List.mem_cons]
    rcases lt_trichotomy k end_x with lt | rfl | gt
    · simp [lt, lt.ne, old lt]
    · simp [new]
    · simp [gt.not_gt, gt.ne', none gt.not_gt]
  · rw [update_of_ne here]
    rcases lt_trichotomy k end_x with lt | rfl | gt
    · simp [lt, old lt]
    · simp [none, new, Ne.symm here]
    · simp [gt.not_gt, gt.ne', none gt.not_gt]

theorem Chained.allot {row col : ℕ → List ℕ} (chained : state.Chained row col)
    (hi : i < state.ssize) (hj : j < state.dsize) (temp : R) (s d : ℕ → R) :
    (state.allot i j temp s d).Chained (update row i (state.end_x :: row i))
      (update col j (state.end_x :: col j)) := by
  have rows : (fun a => ((state.allot i j temp s d).x a).next 0) =
      update (fun a => (state.x a).next 0) state.end_x (state.rows_x i) :=
    comp_update (fun node : EMDNode2D R => node.next 0) state.x state.end_x _
  have cols : (fun a => ((state.allot i j temp s d).x a).next 1) =
      update (fun a => (state.x a).next 1) state.end_x (state.cols_x j) :=
    comp_update (fun node : EMDNode2D R => node.next 1) state.x state.end_x _
  refine ⟨fun i' hi' => ?_, fun j' hj' => ?_, fun i' hi' k => ?_, fun j' hj' k => ?_⟩
  · rw [rows]
    refine linked_enter chained.rows (fun i hi mem => ?_) hi i' hi'
    exact lt_irrefl _ ((chained.mem_row i hi _).mp mem).1
  · rw [cols]
    refine linked_enter chained.cols (fun j hj mem => ?_) hj j' hj'
    exact lt_irrefl _ ((chained.mem_col j hj _).mp mem).1
  · refine mem_headed chained.mem_row (fun k => ((state.allot i j temp s d).x k).i)
      (fun k lt => ?_) ?_ i' hi' k
    · exact congrArg Prod.fst (x_allot temp s d lt).2
    · rw [x_allot_new]
  · refine mem_headed chained.mem_col (fun k => ((state.allot i j temp s d).x k).j)
      (fun k lt => ?_) ?_ j' hj' k
    · exact congrArg Prod.snd (x_allot temp s d lt).2
    · rw [x_allot_new]

theorem Forest.new (forest : state.Forest rows cols) (hi : i ∈ rows) (hj : j ∈ cols) :
    ∀ k < state.end_x, state.cellAt k ≠ (i, j) := by
  intro k lt cell
  rw [cellAt, Prod.mk.injEq] at cell
  rcases forest.closed k lt with row | col
  · exact row (cell.1 ▸ hi)
  · exact col (cell.2 ▸ hj)

theorem Forest.reaches_allot (forest : state.Forest rows cols) (hi : i ∈ rows) (hj : j ∈ cols)
    (struck : Struck rows cols i j rows' cols') (v : Fin state.ssize ⊕ Fin state.dsize) :
    ∃ w, (lineOf w).elim (· ∈ rows') (· ∈ cols') ∧
      (cellGraph state.ssize state.dsize (setEntry state.is_x i j true)).Reachable v w := by
  have more : ∀ i' j', state.is_x i' j' = true → setEntry state.is_x i j true i' j' = true := by
    intro i' j' marked
    rw [setEntry]
    split_ifs
    · rfl
    · exact marked
  have row_lt := forest.rows_lt i hi
  have col_lt := forest.cols_lt j hj
  have marked : setEntry state.is_x i j true i j = true := if_pos ⟨rfl, rfl⟩
  have joined := (cellGraph_adj row_lt col_lt marked).reachable
  obtain ⟨w, left, walk⟩ := forest.reaches v
  replace walk := walk.mono (cellGraph_mono more)
  rcases struck with ⟨rfl, rfl⟩ | ⟨rfl, rfl⟩
  · rcases w with i' | j'
    · by_cases here : i'.1 = i
      · have same : i' = ⟨i, row_lt⟩ := Fin.ext here
        subst same
        exact ⟨.inr ⟨j, col_lt⟩, hj, walk.trans joined⟩
      · exact ⟨.inl i', (List.mem_erase_of_ne here).mpr left, walk⟩
    · exact ⟨.inr j', left, walk⟩
  · rcases w with i' | j'
    · exact ⟨.inl i', left, walk⟩
    · by_cases here : j'.1 = j
      · have same : j' = ⟨j, col_lt⟩ := Fin.ext here
        subst same
        exact ⟨.inl ⟨i, row_lt⟩, hi, walk.trans joined.symm⟩
      · exact ⟨.inr j', (List.mem_erase_of_ne here).mpr left, walk⟩

theorem Forest.allot (forest : state.Forest rows cols) (hi : i ∈ rows) (hj : j ∈ cols)
    (struck : Struck rows cols i j rows' cols') (temp : R) (s d : ℕ → R) :
    (state.allot i j temp s d).Forest rows' cols' := by
  obtain ⟨fewer, fewer'⟩ := struck.sub
  obtain ⟨row, col, chained⟩ := forest.chained
  have below : ∀ k, k < (state.allot i j temp s d).end_x ↔ k < state.end_x ∨ k = state.end_x :=
    fun k => Nat.lt_succ_iff_lt_or_eq
  have last : (state.allot i j temp s d).cellAt state.end_x = (i, j) := by
    rw [cellAt, x_allot_new]
  have cells : ∀ P : ℕ × ℕ → Prop, (∀ k < state.end_x, P (state.cellAt k)) → P (i, j) →
      ∀ k < (state.allot i j temp s d).end_x, P ((state.allot i j temp s d).cellAt k) := by
    intro P old new k lt
    rcases (below k).mp lt with lt | rfl
    · rw [(x_allot temp s d lt).2]
      exact old k lt
    · rw [last]
      exact new
  refine ⟨?_, ?_, fun i' hi' => forest.rows_lt i' (fewer hi'),
    fun j' hj' => forest.cols_lt j' (fewer' hj'), ?_,
    cells (fun c => c.1 < state.ssize) forest.node_row (forest.rows_lt i hi),
    cells (fun c => c.2 < state.dsize) forest.node_col (forest.cols_lt j hj),
    forest.covers.allot (forest.new hi hj) temp s d,
    cells (fun c => c.1 ∉ rows' ∨ c.2 ∉ cols') ?_ ?_,
    forest.reaches_allot hi hj struck,
    _, _, chained.allot (forest.rows_lt i hi) (forest.cols_lt j hj) temp s d⟩
  · rcases struck with ⟨rfl, rfl⟩ | ⟨rfl, rfl⟩
    · exact forest.rows_nodup.erase i
    · exact forest.rows_nodup
  · rcases struck with ⟨rfl, rfl⟩ | ⟨rfl, rfl⟩
    · exact forest.cols_nodup
    · exact forest.cols_nodup.erase j
  · have count := forest.count
    have some_row := List.length_pos_of_mem hi
    have some_col := List.length_pos_of_mem hj
    show state.end_x + 1 + rows'.length + cols'.length = state.ssize + state.dsize
    rcases struck with ⟨rfl, rfl⟩ | ⟨rfl, rfl⟩
    · rw [List.length_erase_of_mem hi]
      omega
    · rw [List.length_erase_of_mem hj]
      omega
  · exact fun k lt => (forest.closed k lt).imp (fun out mem => out (fewer mem))
      fun out mem => out (fewer' mem)
  · rcases struck with ⟨rfl, rfl⟩ | ⟨rfl, rfl⟩
    · exact .inl forest.rows_nodup.not_mem_erase
    · exact .inr forest.cols_nodup.not_mem_erase

end

end EMDState

/-! ## What is left to allot -/

theorem sum_update_sub {F : Type} [AddCommGroup F] {n i : ℕ} (lt : i < n) (f : ℕ → F) (t : F) :
    ∑ k ∈ Finset.range n, update f i (f i - t) k = ∑ k ∈ Finset.range n, f k - t := by
  rw [Finset.sum_update_of_mem (Finset.mem_range.mpr lt),
    ← Finset.add_sum_erase _ f (Finset.mem_range.mpr lt), Finset.erase_eq]
  abel

namespace EMDState

def lineSum {R : Type} [AddCommMonoid R] (state : EMDState R) (line : EMDNode2D R → ℕ) (i : ℕ) :
    R :=
  ∑ k ∈ Finset.range state.end_x, if line (state.x k) = i then (state.x k).val else 0

theorem lineSum_allot {R : Type} [AddCommMonoid R] {state : EMDState R} {i j : ℕ} {temp : R}
    (line : EMDNode2D R → ℕ) (s d : ℕ → R) (i' : ℕ) :
    (state.allot i j temp s d).lineSum line i' = state.lineSum line i' +
      if line ⟨temp, ![state.rows_x i, state.cols_x j], i, j⟩ = i' then temp else 0 := by
  have old : ∀ k ∈ Finset.range state.end_x, (state.allot i j temp s d).x k = state.x k :=
    fun k mem => update_of_ne (Finset.mem_range.mp mem).ne _ _
  have count : (state.allot i j temp s d).end_x = state.end_x + 1 := rfl
  rw [lineSum, count, Finset.sum_range_succ, x_allot_new,
    Finset.sum_congr rfl fun k mem => by rw [old k mem]]
  rfl

section
variable {F : Type} [Field F] [LinearOrder F] {state : EMDState F} {rows cols rows' cols' : List ℕ}
  {i j : ℕ} {S D : ℕ → F} {temp : F}

/-- The supplies and demands are those allotted and those that are left. Nothing is left of a
row that is struck out, and of a column only where no row has anything left. -/
structure Shares (state : EMDState F) (S D : ℕ → F) (rows cols : List ℕ) : Prop where
  supply : ∀ i < state.ssize, state.lineSum EMDNode2D.i i + state.s i = S i
  demand : ∀ j < state.dsize, state.lineSum EMDNode2D.j j + state.d j = D j
  s_nonneg : ∀ i < state.ssize, 0 ≤ state.s i
  s_struck : ∀ i < state.ssize, i ∉ rows → state.s i = 0
  d_above : ∀ j < state.dsize, -(state.weight * EMD_EPS) < state.d j
  balance : ∑ i ∈ Finset.range state.ssize, state.s i = ∑ j ∈ Finset.range state.dsize, state.d j
  settled : (∀ j < state.dsize, j ∉ cols → state.d j = 0) ∨
    rows.length ≤ 1 ∧ ∀ i < state.ssize, state.s i = 0
  values : ∀ k < state.end_x, -(state.weight * EMD_EPS) ≤ (state.x k).val
  left : rows ≠ []
  last : cols = [] → rows.length ≤ 1

theorem Shares.take (shares : state.Shares S D rows cols) (hi : i < state.ssize)
    (hj : j < state.dsize) (fewer : ∀ i' ≠ i, i' ∉ rows' → i' ∉ rows)
    (nonneg : 0 ≤ state.s i - temp) (above : -(state.weight * EMD_EPS) < state.d j - temp)
    (value : -(state.weight * EMD_EPS) ≤ temp) (struck : i ∉ rows' → state.s i - temp = 0)
    (settled : (∀ j' < state.dsize, j' ∉ cols' → update state.d j (state.d j - temp) j' = 0) ∨
      rows'.length ≤ 1 ∧ ∀ i' < state.ssize, update state.s i (state.s i - temp) i' = 0)
    (left : rows' ≠ []) (last : cols' = [] → rows'.length ≤ 1) :
    (state.allot i j temp (update state.s i (state.s i - temp))
      (update state.d j (state.d j - temp))).Shares S D rows' cols' where
  supply i' hi' := by
    rw [lineSum_allot]
    show _ + update state.s i (state.s i - temp) i' = S i'
    by_cases here : i' = i
    · rw [here, if_pos rfl, update_self, ← shares.supply i hi]
      ring
    · rw [if_neg (Ne.symm here), update_of_ne here, add_zero]
      exact shares.supply i' hi'
  demand j' hj' := by
    rw [lineSum_allot]
    show _ + update state.d j (state.d j - temp) j' = D j'
    by_cases here : j' = j
    · rw [here, if_pos rfl, update_self, ← shares.demand j hj]
      ring
    · rw [if_neg (Ne.symm here), update_of_ne here, add_zero]
      exact shares.demand j' hj'
  s_nonneg i' hi' := by
    show 0 ≤ update state.s i (state.s i - temp) i'
    by_cases here : i' = i
    · rw [here, update_self]
      exact nonneg
    · rw [update_of_ne here]
      exact shares.s_nonneg i' hi'
  s_struck i' hi' out := by
    show update state.s i (state.s i - temp) i' = 0
    by_cases here : i' = i
    · rw [here, update_self]
      exact struck (here ▸ out)
    · rw [update_of_ne here]
      exact shares.s_struck i' hi' (fewer i' here out)
  d_above j' hj' := by
    show _ < update state.d j (state.d j - temp) j'
    by_cases here : j' = j
    · rw [here, update_self]
      exact above
    · rw [update_of_ne here]
      exact shares.d_above j' hj'
  balance := by
    refine (sum_update_sub hi state.s temp).trans ?_
    rw [shares.balance]
    exact (sum_update_sub hj state.d temp).symm
  settled := settled
  values k lt := by
    rcases Nat.lt_succ_iff_lt_or_eq.mp lt with lt | rfl
    · rw [(x_allot temp _ _ lt).1]
      exact shares.values k lt
    · rw [x_allot_new]
      exact value
  left := left
  last := last

variable [IsStrictOrderedRing F]

theorem emdAddBasicVariable_cases (rows cols : List ℕ) (i j : ℕ) (positive : 0 < state.weight * EMD_EPS) :
    ∃ temp, (temp = state.s i ∧ state.s i < state.d j + state.weight * EMD_EPS ∨
        temp = state.d j ∧ state.d j + state.weight * EMD_EPS ≤ state.s i) ∧
      emdAddBasicVariable state rows cols i j =
        (state.allot i j temp (update state.s i (state.s i - temp))
            (update state.d j (state.d j - temp)),
          if temp = state.s i ∧ 1 < rows.length then rows.erase i else rows,
          if temp = state.s i ∧ 1 < rows.length then cols else cols.erase j) := by
  by_cases less : state.s i < state.d j + state.weight * EMD_EPS
  · refine ⟨state.s i, .inl ⟨rfl, less⟩, ?_⟩
    rw [emdAddBasicVariable]
    simp only [if_pos less, update_self, BEq.rfl, Bool.true_and, decide_eq_true_eq, sub_self,
      true_and]
    split_ifs <;> rfl
  · have more := not_lt.mp less
    have apart : state.d j ≠ state.s i := fun same => by
      rw [same] at more
      exact absurd positive (not_lt.mpr (add_le_iff_nonpos_right _ |>.mp more))
    have rest : (state.s i - state.d j == 0) = false :=
      beq_false_of_ne (sub_ne_zero.mpr (Ne.symm apart))
    refine ⟨state.d j, .inr ⟨rfl, more⟩, ?_⟩
    rw [emdAddBasicVariable]
    simp only [if_neg less, update_self, rest, Bool.false_and, sub_self, apart, false_and, if_false,
      Bool.false_eq_true]
    rfl

theorem Shares.s_le (shares : state.Shares S D rows cols) (hi : i < state.ssize) :
    state.s i ≤ ∑ j ∈ Finset.range state.dsize, state.d j := by
  rw [← shares.balance]
  exact Finset.single_le_sum (fun i mem => shares.s_nonneg i (Finset.mem_range.mp mem))
    (Finset.mem_range.mpr hi)

theorem Shares.cols_done (shares : state.Shares S D rows cols) (hi : i < state.ssize)
    (hj : j < state.dsize) (more : state.d j + state.weight * EMD_EPS ≤ state.s i) :
    ∀ j < state.dsize, j ∉ cols → state.d j = 0 := by
  rcases shares.settled with done | ⟨-, empty⟩
  · exact done
  · have above := shares.d_above j hj
    rw [empty i hi] at more
    linarith

theorem Shares.add (shares : state.Shares S D rows cols) (forest : state.Forest rows cols)
    (positive : 0 < state.weight * EMD_EPS) (hi : i ∈ rows) (hj : j ∈ cols) :
    ∃ temp s d rows' cols',
      emdAddBasicVariable state rows cols i j = (state.allot i j temp s d, rows', cols') ∧
      Struck rows cols i j rows' cols' ∧ (state.allot i j temp s d).Shares S D rows' cols' := by
  have row_lt := forest.rows_lt i hi
  have col_lt := forest.cols_lt j hj
  have s_nonneg := shares.s_nonneg i row_lt
  have above := shares.d_above j col_lt
  obtain ⟨temp, taken, run⟩ := emdAddBasicVariable_cases rows cols i j positive
  refine ⟨temp, _, _, _, _, run, ?_⟩
  rcases taken with ⟨rfl, less⟩ | ⟨rfl, more⟩
  · have none_left : state.s i - state.s i = 0 := sub_self _
    have above' : -(state.weight * EMD_EPS) < state.d j - state.s i := by linarith
    have value : -(state.weight * EMD_EPS) ≤ state.s i := by linarith
    by_cases several : 1 < rows.length
    · rw [if_pos ⟨rfl, several⟩, if_pos ⟨rfl, several⟩]
      refine ⟨.inl ⟨rfl, rfl⟩, shares.take row_lt col_lt
        (fun i' other out mem => out ((List.mem_erase_of_ne other).mpr mem)) none_left.ge above'
        value (fun _ => none_left) (.inl fun j' lt out => ?_) ?_ fun empty => ?_⟩
      · have other : j' ≠ j := fun same => out (same ▸ hj)
        rw [update_of_ne other]
        rcases shares.settled with done | ⟨single, -⟩
        · exact done j' lt out
        · omega
      · refine List.ne_nil_of_length_pos ?_
        rw [List.length_erase_of_mem hi]
        omega
      · rw [empty] at hj
        exact absurd hj List.not_mem_nil
    · have single : rows = [i] := by
        obtain ⟨i', rfl⟩ := List.length_eq_one_iff.mp
          (Nat.le_antisymm (not_lt.mp several) (List.length_pos_of_mem hi))
        rw [List.mem_singleton.mp hi]
      rw [if_neg fun both => several both.2, if_neg fun both => several both.2]
      refine ⟨.inr ⟨rfl, rfl⟩, shares.take row_lt col_lt (fun _ _ out => out) none_left.ge above'
        value (fun _ => none_left) (.inr ⟨not_lt.mp several, fun i' lt => ?_⟩) shares.left
        fun _ => not_lt.mp several⟩
      by_cases here : i' = i
      · rw [here, update_self, none_left]
      · rw [update_of_ne here]
        refine shares.s_struck i' lt fun mem => here ?_
        rw [single] at mem
        exact List.mem_singleton.mp mem
  · have apart : ¬(state.d j = state.s i ∧ 1 < rows.length) := fun both => by
      rw [both.1] at more
      linarith
    have done := shares.cols_done row_lt col_lt more
    rw [if_neg apart, if_neg apart]
    refine ⟨.inr ⟨rfl, rfl⟩, shares.take row_lt col_lt (fun _ _ out => out) (by linarith)
      (by linarith) above.le (fun out => absurd hi out) (.inl fun j' lt out => ?_) shares.left
      fun empty => ?_⟩
    · by_cases here : j' = j
      · rw [here, update_self, sub_self]
      · rw [update_of_ne here]
        exact done j' lt fun mem => out ((List.mem_erase_of_ne here).mpr mem)
    · have alone : ∑ j ∈ Finset.range state.dsize, state.d j = state.d j := by
        refine Finset.sum_eq_single j (fun j' mem other => ?_)
          fun outside => absurd (Finset.mem_range.mpr col_lt) outside
        refine done j' (Finset.mem_range.mp mem) fun inside => ?_
        have left := (List.mem_erase_of_ne other).mpr inside
        rw [empty] at left
        exact List.not_mem_nil left
      have most := shares.s_le row_lt
      rw [alone] at most
      linarith

end

end EMDState

/-! ## The run -/

section
variable {F : Type} [Field F] [LinearOrder F]

theorem EMDState.Maxima.allot {state : EMDState F} {rows cols : List ℕ} {i j : ℕ}
    (maxima : state.Maxima rows cols) (temp : F) (s d : ℕ → F) :
    (state.allot i j temp s d).Maxima rows cols :=
  ⟨maxima.u_start, maxima.u_most, maxima.v_start, maxima.v_most, maxima.delta⟩

theorem Struck.length {rows cols rows' cols' : List ℕ} {i j : ℕ} (hi : i ∈ rows) (hj : j ∈ cols)
    (struck : Struck rows cols i j rows' cols') :
    rows'.length + cols'.length + 1 = rows.length + cols.length := by
  have some_row := List.length_pos_of_mem hi
  have some_col := List.length_pos_of_mem hj
  rcases struck with ⟨rfl, rfl⟩ | ⟨rfl, rfl⟩
  · rw [List.length_erase_of_mem hi]
    omega
  · rw [List.length_erase_of_mem hj]
    omega

variable [IsStrictOrderedRing F]

theorem emdRusselLoop_equal {state : EMDState F} {rows cols : List ℕ} {i j : ℕ} {t : F} (eps : F) (n : ℕ)
    (maxima : state.Maxima rows cols) (positive : 0 < state.weight * EMD_EPS)
    (least : (smallest (fun c => state.delta c.1 c.2) (cellsOf rows cols)).1 = some (i, j))
    (supply : state.s i = t) (demand : state.d j = t) :
    emdRusselLoop eps (n + 1) state rows cols =
      emdRusselLoop eps n (state.allot i j t (update state.s i 0) (update state.d j 0))
        (if 1 < rows.length then rows.erase i else rows)
        (if 1 < rows.length then cols else cols.erase j) := by
  obtain ⟨hi, hj⟩ := mem_cellsOf.mp (smallest_some least).1
  have add : emdAddBasicVariable state rows cols i j =
      (state.allot i j t (update state.s i 0) (update state.d j 0),
        if 1 < rows.length then rows.erase i else rows,
        if 1 < rows.length then cols else cols.erase j) := by
    obtain ⟨temp, taken, run⟩ := EMDState.emdAddBasicVariable_cases rows cols i j positive
    have all : temp = t := taken.elim (fun less => less.1.trans supply)
      fun more => more.1.trans demand
    rw [all, supply, demand, sub_self] at run
    simpa only [true_and] using run
  have maxima' := maxima.allot (i := i) (j := j) t (update state.s i 0) (update state.d j 0)
  by_cases several : 1 < rows.length
  · rw [if_pos several, if_pos several] at add ⊢
    rw [emdRusselLoop_succ n hi hj least add (.inl ⟨rfl, rfl⟩) maxima', if_neg]
    rintro ⟨-, rfl⟩
    exact List.not_mem_nil hj
  · rw [if_neg several, if_neg several] at add ⊢
    rw [emdRusselLoop_succ n hi hj least add (.inr ⟨rfl, rfl⟩) maxima', if_neg]
    rintro ⟨rfl, -⟩
    exact List.not_mem_nil hi

theorem emdRusselLoop_spec (eps : F) {S D : ℕ → F} (n : ℕ) {state : EMDState F}
    {rows cols : List ℕ} (forest : state.Forest rows cols) (shares : state.Shares S D rows cols)
    (maxima : state.Maxima rows cols) (positive : 0 < state.weight * EMD_EPS)
    (enough : rows.length + cols.length ≤ n + 1) :
    ∃ rows', (emdRusselLoop eps n state rows cols).Forest rows' [] ∧
      (emdRusselLoop eps n state rows cols).Shares S D rows' [] ∧
      (emdRusselLoop eps n state rows cols).toEMDProblem = state.toEMDProblem := by
  induction n generalizing state rows cols with
  | zero =>
      have some_row := List.length_pos_iff.mpr shares.left
      have empty : cols = [] := List.length_eq_zero_iff.mp (by omega)
      subst empty
      exact ⟨rows, forest, shares, rfl⟩
  | succ n ih =>
      by_cases empty : cols = []
      · subst empty
        have no_cell : cellsOf rows [] = [] := by simp [cellsOf]
        rw [emdRusselLoop_stops eps (n + 1) (by rw [no_cell]; rfl)]
        exact ⟨rows, forest, shares, rfl⟩
      · obtain ⟨i, hi⟩ := List.exists_mem_of_ne_nil rows shares.left
        obtain ⟨j, hj⟩ := List.exists_mem_of_ne_nil cols empty
        obtain ⟨⟨i, j⟩, least⟩ := smallest_isSome (f := fun c : ℕ × ℕ => state.delta c.1 c.2)
          (mem_cellsOf.mpr ⟨hi, hj⟩ : (i, j) ∈ cellsOf rows cols) (maxima.delta i hi j hj)
        obtain ⟨hi, hj⟩ := mem_cellsOf.mp (smallest_some least).1
        obtain ⟨temp, s, d, rows', cols', add, struck, shares'⟩ :=
          shares.add forest positive hi hj
        have several : ¬(rows' = [] ∧ cols' = []) := fun none => shares'.left none.1
        have maxima' := maxima.allot (i := i) (j := j) temp s d
        rw [emdRusselLoop_succ n hi hj least add struck maxima', if_neg several]
        have fewer := struck.length hi hj
        exact ih (forest.allot hi hj struck temp s d) shares'
          (maxima'.sub struck.sub.1 struck.sub.2) positive (by omega)

end

/-! ## The start -/

namespace EMDState

theorem Forest.start {R : Type} [Zero R] (problem : EMDProblem R) (s d : ℕ → R) (u v : ℕ → R)
    (delta : ℕ → ℕ → R) :
    ({ emdStart problem s d with u, v, delta } : EMDState R).Forest (List.range problem.ssize)
      (List.range problem.dsize) where
  rows_nodup := List.nodup_range
  cols_nodup := List.nodup_range
  rows_lt _ mem := List.mem_range.mp mem
  cols_lt _ mem := List.mem_range.mp mem
  count := by
    rw [List.length_range, List.length_range]
    exact congrArg (· + _) (Nat.zero_add _)
  node_row k lt := absurd lt (Nat.not_lt_zero k)
  node_col k lt := absurd lt (Nat.not_lt_zero k)
  covers := by
    refine ⟨fun k lt => absurd lt (Nat.not_lt_zero k), fun i _ j _ => ?_⟩
    refine iff_of_false Bool.false_ne_true ?_
    rintro ⟨k, lt, -⟩
    exact Nat.not_lt_zero k lt
  closed k lt := absurd lt (Nat.not_lt_zero k)
  reaches w := by
    refine ⟨w, ?_, .refl w⟩
    rcases w with i | j
    · exact List.mem_range.mpr i.2
    · exact List.mem_range.mpr j.2
  chained := by
    refine ⟨fun _ => [], fun _ => [], fun _ _ => rfl, fun _ _ => rfl, fun _ _ k => ?_,
      fun _ _ k => ?_⟩
    · exact iff_of_false List.not_mem_nil fun below => Nat.not_lt_zero k below.1
    · exact iff_of_false List.not_mem_nil fun below => Nat.not_lt_zero k below.1

variable {F : Type} [Field F] [LinearOrder F] [IsStrictOrderedRing F]

theorem Shares.start {problem : EMDProblem F} {s d : ℕ → F}
    (s_nonneg : ∀ i < problem.ssize, 0 ≤ s i) (d_nonneg : ∀ j < problem.dsize, 0 ≤ d j)
    (equal : ∑ i ∈ Finset.range problem.ssize, s i = ∑ j ∈ Finset.range problem.dsize, d j)
    (total : 0 < ∑ i ∈ Finset.range problem.ssize, s i) (positive : 0 < problem.weight * EMD_EPS)
    (u v : ℕ → F) (delta : ℕ → ℕ → F) :
    ({ emdStart problem s d with u, v, delta } : EMDState F).Shares s d
      (List.range problem.ssize) (List.range problem.dsize) where
  supply _ _ := zero_add _
  demand _ _ := zero_add _
  s_nonneg := s_nonneg
  s_struck i lt out := absurd (List.mem_range.mpr lt) out
  d_above j lt := (neg_lt_zero.mpr positive).trans_le (d_nonneg j lt)
  balance := equal
  settled := .inl fun j lt out => absurd (List.mem_range.mpr lt) out
  values k lt := absurd lt (Nat.not_lt_zero k)
  left empty := by
    rw [List.range_eq_nil.mp empty, Finset.sum_range_zero] at total
    exact lt_irrefl _ total
  last empty := by
    rw [equal, List.range_eq_nil.mp empty, Finset.sum_range_zero] at total
    exact absurd total (lt_irrefl _)

end EMDState

section
variable {F : Type} [Field F] [LinearOrder F]

/-- A cost as low as the value that stands for none found has a larger one in its row or in its
column. -/
def EMDProblem.Costed (problem : EMDProblem F) : Prop :=
  ∀ i < problem.ssize, ∀ j < problem.dsize, problem.cost i j = -EMD_INF →
    (∃ j' < problem.dsize, -EMD_INF < problem.cost i j') ∨
      ∃ i' < problem.ssize, -EMD_INF < problem.cost i' j

theorem EMDState.Maxima.start [IsStrictOrderedRing F] (state : EMDState F)
    (costed : state.toEMDProblem.Costed) :
    ({ state with
        u := fun i => largest (state.cost i) (-EMD_INF) (List.range state.dsize)
        v := fun j => largest (state.cost · j) (-EMD_INF) (List.range state.ssize)
        delta := fun i j => state.cost i j -
          largest (state.cost i) (-EMD_INF) (List.range state.dsize) -
          largest (state.cost · j) (-EMD_INF) (List.range state.ssize) } : EMDState F).Maxima
      (List.range state.ssize) (List.range state.dsize) where
  u_start i _ := (le_largest (state.cost i) _ _).1
  u_most i _ j hj := (le_largest (state.cost i) _ _).2 j hj
  v_start j _ := (le_largest (state.cost · j) _ _).1
  v_most j _ i hi := (le_largest (state.cost · j) _ _).2 i hi
  delta i hi j hj := by
    have row := le_largest (state.cost i) (-EMD_INF) (List.range state.dsize)
    have col := le_largest (state.cost · j) (-EMD_INF) (List.range state.ssize)
    have in_row := row.2 j hj
    have in_col := col.2 i hi
    show state.cost i j - _ - _ < EMD_INF
    rcases lt_trichotomy (state.cost i j) (-EMD_INF) with below | sentinel | above
    · linarith [row.1, col.1]
    · rcases costed i (List.mem_range.mp hi) j (List.mem_range.mp hj) sentinel with
        ⟨j', hj', more⟩ | ⟨i', hi', more⟩
      · linarith [row.2 j' (List.mem_range.mpr hj'), col.1]
      · linarith [col.2 i' (List.mem_range.mpr hi'), row.1]
    · linarith

end

/-! ## The basis at the end -/

namespace EMDState

section
variable {R : Type} {state : EMDState R} {rows : List ℕ}

/-- The state with a free node after those of the cells, as the initialization leaves it. -/
def withFree (state : EMDState R) : EMDState R :=
  { state with enter_x := state.end_x, end_x := state.end_x + 1 }

theorem mem_basics_withFree {k : ℕ} : k ∈ state.withFree.basics ↔ k < state.end_x := by
  rw [mem_basics]
  show k < state.end_x + 1 ∧ k ≠ state.end_x ↔ k < state.end_x
  omega

theorem Forest.basis (forest : state.Forest rows []) (single : rows.length = 1) :
    state.withFree.Basis where
  free := Nat.lt_succ_self _
  count := by
    have count := forest.count
    rw [single] at count
    exact count
  rows k used := forest.node_row k (mem_basics_withFree.mp used)
  cols k used := forest.node_col k (mem_basics_withFree.mp used)
  distinct k used k' used' := forest.covers.distinct k (mem_basics_withFree.mp used) k'
    (mem_basics_withFree.mp used')
  marked i hi j hj := by
    refine (forest.covers.marked i hi j hj).trans (exists_congr fun k => ?_)
    exact and_congr_left' mem_basics_withFree.symm

theorem Forest.tree (forest : state.Forest rows []) (single : rows.length = 1) :
    (cellGraph state.ssize state.dsize state.is_x).IsTree := by
  refine cellGraph_isTree_iff.mpr ⟨?_, (forest.basis single).card_marked⟩
  obtain ⟨i, rfl⟩ := List.length_eq_one_iff.mp single
  refine connected_of_root (.inl ⟨i, forest.rows_lt i (List.mem_singleton_self i)⟩) fun v => ?_
  obtain ⟨w, left, walk⟩ := forest.reaches v
  rcases w with i' | j'
  · have same : i' = ⟨i, forest.rows_lt i (List.mem_singleton_self i)⟩ :=
      Fin.ext (List.mem_singleton.mp left)
    exact same ▸ walk.symm
  · exact absurd left List.not_mem_nil

end

section
variable {F : Type} [Field F] [LinearOrder F] [IsStrictOrderedRing F] {state : EMDState F}
  {rows : List ℕ} {S D : ℕ → F}

theorem Shares.s_done (shares : state.Shares S D rows []) : ∀ i < state.ssize, state.s i = 0 := by
  rcases shares.settled with done | ⟨-, empty⟩
  · have none_left : ∑ i ∈ Finset.range state.ssize, state.s i = 0 := by
      rw [shares.balance]
      exact Finset.sum_eq_zero fun j mem => done j (Finset.mem_range.mp mem) List.not_mem_nil
    intro i lt
    exact (Finset.sum_eq_zero_iff_of_nonneg fun i mem =>
      shares.s_nonneg i (Finset.mem_range.mp mem)).mp none_left i (Finset.mem_range.mpr lt)
  · exact empty

theorem Shares.d_small (shares : state.Shares S D rows []) (positive : 0 < state.weight * EMD_EPS)
    {j : ℕ} (lt : j < state.dsize) :
    |state.d j| ≤ state.dsize * (state.weight * EMD_EPS) := by
  have none_left : ∑ j ∈ Finset.range state.dsize, state.d j = 0 := by
    rw [← shares.balance]
    exact Finset.sum_eq_zero fun i mem => shares.s_done i (Finset.mem_range.mp mem)
  have least : state.d j + state.weight * EMD_EPS ≤
      ∑ j ∈ Finset.range state.dsize, (state.d j + state.weight * EMD_EPS) := by
    refine Finset.single_le_sum (f := fun j => state.d j + state.weight * EMD_EPS)
      (fun j mem => ?_) (Finset.mem_range.mpr lt)
    have above := shares.d_above j (Finset.mem_range.mp mem)
    linarith
  rw [Finset.sum_add_distrib, none_left, Finset.sum_const, Finset.card_range, nsmul_eq_mul,
    zero_add] at least
  have above := shares.d_above j lt
  have some_col : (1 : F) ≤ state.dsize := by exact_mod_cast (Nat.zero_le j).trans_lt lt
  have more := le_mul_of_one_le_left positive.le some_col
  rw [abs_le]
  constructor <;> linarith

end

/-- A first basis for some supplies and demands. -/
structure FirstBasis {F : Type} [Field F] [LinearOrder F] (state : EMDState F) (s d : ℕ → F) :
    Prop where
  count : state.end_x + 1 = state.ssize + state.dsize
  rows : ∀ k < state.end_x, (state.x k).i < state.ssize
  cols : ∀ k < state.end_x, (state.x k).j < state.dsize
  covers : state.Covers
  tree : (cellGraph state.ssize state.dsize state.is_x).IsTree
  listed : ∃ row col, state.Chained row col
  values : ∀ k < state.end_x,
    -((state.ssize + state.dsize) * state.weight * EMD_EPS) ≤ (state.x k).val
  supply : ∀ i < state.ssize, state.lineSum EMDNode2D.i i = s i
  demand : ∀ j < state.dsize, |state.lineSum EMDNode2D.j j - d j| ≤
    (state.ssize + state.dsize) * state.weight * EMD_EPS

end EMDState

section
variable {F : Type} [Field F] [LinearOrder F] [IsStrictOrderedRing F]

theorem EMDState.Forest.firstBasis {state : EMDState F} {rows : List ℕ} {S D : ℕ → F}
    (forest : state.Forest rows []) (shares : state.Shares S D rows [])
    (positive : 0 < state.weight * EMD_EPS) : state.FirstBasis S D := by
  have single : rows.length = 1 :=
    Nat.le_antisymm (shares.last rfl) (List.length_pos_iff.mpr shares.left)
  have sizes : (state.ssize + state.dsize : F) * state.weight * EMD_EPS =
      state.ssize * (state.weight * EMD_EPS) + state.dsize * (state.weight * EMD_EPS) := by ring
  have rows_nonneg : 0 ≤ state.ssize * (state.weight * EMD_EPS) :=
    mul_nonneg (Nat.cast_nonneg _) positive.le
  have basis := forest.basis single
  refine ⟨basis.count, forest.node_row, forest.node_col, forest.covers, forest.tree single,
    forest.chained, fun k lt => ?_, fun i lt => ?_, fun j lt => ?_⟩
  · have some_col : (1 : F) ≤ state.dsize := by
      exact_mod_cast (Nat.zero_le _).trans_lt (forest.node_col k lt)
    have more := le_mul_of_one_le_left positive.le some_col
    have value := shares.values k lt
    rw [sizes]
    linarith
  · rw [← shares.supply i lt, shares.s_done i lt, add_zero]
  · rw [← shares.demand j lt, sub_add_cancel_left, abs_neg, sizes]
    exact (shares.d_small positive lt).trans (le_add_of_nonneg_left rows_nonneg)

/-- Russel's method builds a basis, also where the values of a row and a column agree, and
whichever of the two is struck out then. -/
theorem emdRussel_firstBasis {problem : EMDProblem F} {s d : ℕ → F}
    (s_nonneg : ∀ i < problem.ssize, 0 ≤ s i) (d_nonneg : ∀ j < problem.dsize, 0 ≤ d j)
    (equal : ∑ i ∈ Finset.range problem.ssize, s i = ∑ j ∈ Finset.range problem.dsize, d j)
    (total : 0 < ∑ i ∈ Finset.range problem.ssize, s i) (weight : 0 < problem.weight)
    (costed : problem.Costed) :
    (emdRussel (emdStart problem s d)).toEMDProblem = problem ∧
      (emdRussel (emdStart problem s d)).FirstBasis s d := by
  have positive : 0 < problem.weight * EMD_EPS := mul_pos weight (by norm_num [EMD_EPS])
  have enough : (List.range problem.ssize).length + (List.range problem.dsize).length ≤
      problem.ssize + problem.dsize + 1 := by
    rw [List.length_range, List.length_range]
    exact Nat.le_succ _
  obtain ⟨rows, forest, shares, same⟩ := emdRusselLoop_spec (EMD_EPS * problem.max_cost)
    (problem.ssize + problem.dsize) (EMDState.Forest.start problem s d _ _ _)
    (EMDState.Shares.start s_nonneg d_nonneg equal total positive _ _ _)
    (EMDState.Maxima.start (emdStart problem s d) costed) positive enough
  refine ⟨same, forest.firstBasis shares ?_⟩
  rw [same]
  exact positive

end

/-! ## Two rows and columns, and one -/

def twoByTwo : EMDProblem ℚ := ⟨2, 2, fun i j => if i = 1 ∧ j = 0 then 0 else 1, some, some, 2, 1⟩

theorem emdRussel_twoByTwo :
    (emdRussel (emdStart twoByTwo (fun _ => 1) fun _ => 1)).toEMDProblem = twoByTwo ∧
      (emdRussel (emdStart twoByTwo (fun _ => 1) fun _ => 1)).FirstBasis (fun _ => 1)
        fun _ => 1 := by
  refine emdRussel_firstBasis (fun _ _ => zero_le_one) (fun _ _ => zero_le_one) rfl ?_ ?_ ?_
  · show (0 : ℚ) < ∑ i ∈ Finset.range 2, 1
    norm_num
  · show (0 : ℚ) < 2
    norm_num
  · intro i _ j _ lowest
    refine absurd lowest ?_
    show (if i = 1 ∧ j = 0 then (0 : ℚ) else 1) ≠ -EMD_INF
    split_ifs <;> norm_num [EMD_INF]

def lowestCost : EMDProblem ℚ := ⟨1, 1, fun _ _ => -EMD_INF, some, some, 1, 0⟩

/-- Where the only cost is the value that stands for none found, no cell is taken. -/
theorem emdRussel_lowestCost :
    0 < lowestCost.weight ∧ (0 : ℚ) < ∑ _i ∈ Finset.range lowestCost.ssize, 1 ∧
      ¬(emdRussel (emdStart lowestCost (fun _ => 1) fun _ => 1)).FirstBasis (fun _ => 1)
        fun _ => 1 := by
  have most : largest (fun _ : ℕ => (-EMD_INF : ℚ)) (-EMD_INF) [0] = -EMD_INF :=
    if_neg (lt_irrefl _)
  refine ⟨by norm_num [lowestCost], by norm_num [lowestCost], fun basis => ?_⟩
  rw [emdRussel, emdRusselLoop_stops] at basis
  · exact absurd basis.count (by decide)
  · show (smallest (fun _ : ℕ × ℕ => -EMD_INF - largest (fun _ : ℕ => -EMD_INF) (-EMD_INF) [0] -
      largest (fun _ : ℕ => (-EMD_INF : ℚ)) (-EMD_INF) [0]) [(0, 0)]).1 = none
    rw [most, smallest, List.foldl_cons, if_neg]
    · rfl
    · norm_num

end MilkyWay.NBody
