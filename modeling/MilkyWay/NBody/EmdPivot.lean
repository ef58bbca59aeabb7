import MilkyWay.NBody.EmdLoop

/-! The step to a new basis. Along the loop of the entering cell the values at the odd places
lose what those at the even places get, so every row and column keeps its sum, and the cell
that has nothing left is taken out of the lists. -/

namespace MilkyWay.NBody

open Foundation Function SimpleGraph

section
variable {R : Type} {x : ℕ → EMDNode2D R} {loop : List ℕ} {close k : ℕ}

/-! ## The places of a loop -/

theorem evenPlaces_sublist : List.Sublist (evenPlaces loop) loop := by
  induction loop using evenPlaces.induct with
  | case1 a b rest ih =>
      rw [evenPlaces]
      exact (ih.cons b).cons_cons a
  | case2 l short =>
      rw [evenPlaces.eq_2 l short]
      exact List.nil_sublist l

theorem oddPlaces_sublist : List.Sublist (oddPlaces loop) loop := by
  induction loop using oddPlaces.induct with
  | case1 a b rest ih =>
      rw [oddPlaces]
      exact (ih.cons_cons b).cons a
  | case2 l short =>
      rw [oddPlaces.eq_2 l short]
      exact List.nil_sublist l

theorem mem_of_even (mem : k ∈ evenPlaces loop) : k ∈ loop := evenPlaces_sublist.subset mem

theorem mem_of_odd (mem : k ∈ oddPlaces loop) : k ∈ loop := oddPlaces_sublist.subset mem

theorem not_even_of_odd (nodup : loop.Nodup) (odd : k ∈ oddPlaces loop) :
    k ∉ evenPlaces loop := by
  induction loop using oddPlaces.induct with
  | case1 a b rest ih =>
      obtain ⟨first, second⟩ := List.nodup_cons.mp nodup
      obtain ⟨second, nodup⟩ := List.nodup_cons.mp second
      rw [oddPlaces, List.mem_cons] at odd
      rw [evenPlaces, List.mem_cons, not_or]
      rcases odd with rfl | odd
      · exact ⟨fun same => first (same ▸ List.mem_cons_self), fun mem => second (mem_of_even mem)⟩
      · exact ⟨fun same => first (same ▸ List.mem_cons_of_mem b (mem_of_odd odd)), ih nodup odd⟩
  | case2 l short =>
      rw [oddPlaces.eq_2 l short] at odd
      cases odd

theorem Alternates.rows (moves : Alternates x close loop) {α : Type} (g : ℕ → α) :
    (evenPlaces loop).map (fun k => g (x k).i) = (oddPlaces loop).map fun k => g (x k).i := by
  induction loop using oddPlaces.induct with
  | case1 a b rest ih =>
      obtain ⟨row, -, later⟩ := moves
      rw [evenPlaces, oddPlaces, List.map_cons, List.map_cons, row, ih later]
  | case2 l short =>
      have evens : evenPlaces l = [] := evenPlaces.eq_2 l short
      have odds : oddPlaces l = [] := oddPlaces.eq_2 l short
      rw [evens, odds]

theorem Alternates.cols (moves : Alternates x close loop) {M : Type} [AddCommMonoid M]
    (g : ℕ → M) :
    ((oddPlaces loop).map fun k => g (x k).j).sum +
        loop.head?.elim (g close) (fun k => g (x k).j) =
      ((evenPlaces loop).map fun k => g (x k).j).sum + g close := by
  induction loop using oddPlaces.induct with
  | case1 a b rest ih =>
      obtain ⟨-, col, later⟩ := moves
      have next : g (x b).j = rest.head?.elim (g close) fun k => g (x k).j := by
        rw [col]
        cases rest.head? with
        | none => rfl
        | some c => rfl
      have rest_eq := ih later
      rw [← next] at rest_eq
      rw [oddPlaces, evenPlaces, List.map_cons, List.map_cons, List.sum_cons, List.sum_cons,
        List.head?_cons, Option.elim_some, add_comm (g (x b).j), rest_eq, add_comm]
      exact (add_assoc _ _ _).symm
  | case2 l short =>
      cases l with
      | nil => rfl
      | cons a l =>
          cases l with
          | nil => exact moves.elim
          | cons b rest => exact absurd rfl (short a b rest)

theorem Alternates.along (moves : Alternates x close loop) {Q : ℕ ⊕ ℕ → Prop}
    (all : ∀ k ∈ loop, (Q (.inl (x k).i) ↔ Q (.inr (x k).j))) :
    Q (.inr (loop.head?.elim close fun k => (x k).j)) ↔ Q (.inr close) := by
  induction loop using oddPlaces.induct with
  | case1 a b rest ih =>
      obtain ⟨row, col, later⟩ := moves
      have first := all a List.mem_cons_self
      have second := all b (List.mem_cons_of_mem a List.mem_cons_self)
      rw [row] at first
      rw [List.head?_cons, Option.elim_some, ← first, second, col]
      exact ih later fun k mem => all k (List.mem_cons_of_mem a (List.mem_cons_of_mem b mem))
  | case2 l short =>
      cases l with
      | nil => exact Iff.rfl
      | cons a l =>
          cases l with
          | nil => exact moves.elim
          | cons b rest => exact absurd rfl (short a b rest)

theorem Alternates.around (moves : Alternates x close loop) (nodup : loop.Nodup)
    {Q : ℕ ⊕ ℕ → Prop} {b : ℕ} (odd : b ∈ oddPlaces loop)
    (others : ∀ k ∈ loop, k ≠ b → (Q (.inl (x k).i) ↔ Q (.inr (x k).j))) :
    (Q (.inl (x b).i) ↔ Q (.inr (loop.head?.elim close fun k => (x k).j))) ∧
      (Q (.inr (x b).j) ↔ Q (.inr close)) := by
  induction loop using oddPlaces.induct with
  | case1 a c rest ih =>
      obtain ⟨row, col, later⟩ := moves
      obtain ⟨first, nodup⟩ := List.nodup_cons.mp nodup
      obtain ⟨second, nodup⟩ := List.nodup_cons.mp nodup
      rw [oddPlaces, List.mem_cons] at odd
      rw [List.head?_cons, Option.elim_some]
      rcases odd with rfl | odd
      · have apart : a ≠ b := fun same => first (same ▸ List.mem_cons_self)
        rw [← row, col]
        refine ⟨others a List.mem_cons_self apart, later.along fun k mem => ?_⟩
        refine others k (List.mem_cons_of_mem a (List.mem_cons_of_mem b mem)) fun same => ?_
        exact second (same ▸ mem)
      · have mem := mem_of_odd odd
        have before : a ≠ b := fun same => first (same ▸ List.mem_cons_of_mem c mem)
        have between : c ≠ b := fun same => second (same ▸ mem)
        obtain ⟨here, there⟩ := ih later nodup odd fun k mem =>
          others k (List.mem_cons_of_mem a (List.mem_cons_of_mem c mem))
        refine ⟨?_, there⟩
        rw [here, ← col, ← others c (List.mem_cons_of_mem a List.mem_cons_self) between, ← row]
        exact others a List.mem_cons_self before
  | case2 l short =>
      rw [oddPlaces.eq_2 l short] at odd
      cases odd

/-! ## The values along the loop -/

theorem emdShift_frame [Add R] [Sub R] (min_val : R) {α : Type} {g : EMDNode2D R → α}
    (blind : ∀ node val, g { node with val := val } = g node) (k : ℕ) :
    g (emdShift min_val loop x k) = g (x k) := by
  have one : ∀ (x : ℕ → EMDNode2D R) a val,
      g (update x a { x a with val := val } k) = g (x k) := by
    intro x a val
    by_cases same : k = a
    · rw [same, update_self, blind]
    · rw [update_of_ne same]
  induction loop using oddPlaces.induct generalizing x with
  | case1 a b rest ih =>
      rw [emdShift, ih]
      refine Eq.trans ?_ (one x a ((x a).val + min_val))
      by_cases same : k = b
      · subst same
        rw [update_self, blind, one]
      · rw [update_of_ne same]
  | case2 l short => rw [emdShift.eq_2 _ _ _ short]

end

section
variable {F : Type} [CommRing F] {x : ℕ → EMDNode2D F} {loop : List ℕ} {k : ℕ}

theorem emdShift_val (nodup : loop.Nodup) (min_val : F) (k : ℕ) :
    (emdShift min_val loop x k).val =
      (x k).val + (if k ∈ evenPlaces loop then min_val else 0) -
        if k ∈ oddPlaces loop then min_val else 0 := by
  induction loop using oddPlaces.induct generalizing x with
  | case1 a b rest ih =>
      obtain ⟨first, nodup⟩ := List.nodup_cons.mp nodup
      obtain ⟨second, nodup⟩ := List.nodup_cons.mp nodup
      have apart : a ≠ b := fun same => first (same ▸ List.mem_cons_self)
      rw [emdShift, ih nodup, evenPlaces, oddPlaces]
      by_cases here : k = a
      · subst here
        have even : k ∉ evenPlaces rest := fun mem => first (List.mem_cons_of_mem b (mem_of_even mem))
        have odd : k ∉ oddPlaces rest := fun mem => first (List.mem_cons_of_mem b (mem_of_odd mem))
        simp [apart, even, odd]
      · by_cases there : k = b
        · subst there
          have even : k ∉ evenPlaces rest := fun mem => second (mem_of_even mem)
          have odd : k ∉ oddPlaces rest := fun mem => second (mem_of_odd mem)
          simp [here, even, odd]
        · simp [here, there]
  | case2 l short =>
      have evens : evenPlaces l = [] := evenPlaces.eq_2 l short
      have odds : oddPlaces l = [] := oddPlaces.eq_2 l short
      rw [emdShift.eq_2 _ _ _ short, evens, odds]
      simp

theorem sum_emdShift {n : ℕ} (nodup : loop.Nodup) (below : ∀ k ∈ loop, k < n) (min_val : F)
    (w : ℕ → F) :
    ∑ k ∈ Finset.range n, w k * (emdShift min_val loop x k).val =
      ∑ k ∈ Finset.range n, w k * (x k).val +
        min_val * (((evenPlaces loop).map w).sum - ((oddPlaces loop).map w).sum) := by
  have places : ∀ l : List ℕ, l.Nodup → (∀ k ∈ l, k < n) →
      ∑ k ∈ Finset.range n, w k * (if k ∈ l then min_val else 0) = min_val * (l.map w).sum := by
    intro l nodup below
    simp only [mul_ite, mul_zero, ← List.mem_toFinset]
    rw [← Finset.sum_filter, Finset.filter_mem_eq_inter, Finset.inter_eq_right.mpr, ← Finset.sum_mul,
      List.sum_toFinset w nodup, mul_comm]
    intro k mem
    exact Finset.mem_range.mpr (below k (List.mem_toFinset.mp mem))
  simp only [emdShift_val nodup, mul_sub, mul_add, Finset.sum_sub_distrib, Finset.sum_add_distrib]
  rw [places _ (nodup.sublist evenPlaces_sublist) fun k mem => below k (mem_of_even mem),
    places _ (nodup.sublist oddPlaces_sublist) fun k mem => below k (mem_of_odd mem), add_sub_assoc]

end

/-! ## The leaving node -/

section
variable {R : Type} {x : ℕ → EMDNode2D R} {head : Option ℕ} {passed rest : List ℕ}
  {leave_x fuel : ℕ}

theorem emdUnlink_spec {k : Fin 2}
    (linked : Foundation.Linked (fun a => (x a).next k) head (passed ++ leave_x :: rest))
    (enough : passed.length < fuel) :
    ∃ x' head', emdUnlink fuel x k head leave_x = some (x', head') ∧
      Foundation.Linked (fun a => (x' a).next k) head' (passed ++ rest) ∧
      (∀ a, ∃ links, x' a = { x a with next := links }) ∧
      (∀ a l, l ≠ k → (x' a).next l = (x a).next l) ∧
      ∀ a, a ∉ passed → (x' a).next = (x a).next := by
  have found := linked.predecessor enough
  have unlinked := linked.unlink
  rw [emdUnlink, found, Option.map_some]
  cases last : passed.getLast? with
  | none =>
      rw [last] at unlinked
      exact ⟨x, _, rfl, unlinked, fun a => ⟨_, rfl⟩, fun a l _ => rfl, fun a _ => rfl⟩
  | some b =>
      rw [last] at unlinked
      let node : EMDNode2D R :=
        { x b with next := update (x b).next k ((x leave_x).next k) }
      have links : (fun a => (update x b node a).next k) =
          update (fun a => (x a).next k) b ((x leave_x).next k) := by
        refine (comp_update (fun node : EMDNode2D R => node.next k) x b node).trans ?_
        exact congrArg (update _ b) (update_self k _ _)
      refine ⟨update x b node, head, rfl, ?_, fun a => ?_, fun a l other => ?_, fun a out => ?_⟩
      · rw [links]
        exact unlinked
      · by_cases same : a = b
        · rw [same, update_self]
          exact ⟨_, rfl⟩
        · rw [update_of_ne same]
          exact ⟨_, rfl⟩
      · by_cases same : a = b
        · rw [same, update_self]
          exact update_of_ne other _ _
        · rw [update_of_ne same]
      · have apart : a ≠ b := fun same => out (same ▸ List.mem_of_getLast? last)
        rw [update_of_ne apart]

end

section
variable {R : Type} {state : EMDState R} {row col : ℕ → List ℕ} {fuel leave_x : ℕ}

structure EMDState.Leaves (state : EMDState R) (leave_x : ℕ) (next : EMDState R) : Prop where
  problem : next.toEMDProblem = state.toEMDProblem
  end_x : next.end_x = state.end_x
  enter_x : next.enter_x = leave_x
  is_x : next.is_x = setEntry state.is_x (state.x leave_x).i (state.x leave_x).j false
  val : ∀ k, (next.x k).val = (state.x k).val
  cellAt : ∀ k, next.cellAt k = state.cellAt k
  listed : ∃ row col, next.Listed row col

theorem mem_unlinked {passed rest : List ℕ} (nodup : (passed ++ leave_x :: rest).Nodup) {k : ℕ} :
    k ∈ passed ++ rest ↔ k ∈ passed ++ leave_x :: rest ∧ k ≠ leave_x := by
  have perm : (passed ++ leave_x :: rest).Perm (leave_x :: (passed ++ rest)) := List.perm_middle
  have apart := (List.nodup_cons.mp (perm.nodup_iff.mp nodup)).1
  rw [perm.mem_iff, List.mem_cons]
  constructor
  · exact fun mem => ⟨.inr mem, fun same => apart (same ▸ mem)⟩
  · rintro ⟨mem, other⟩
    exact mem.resolve_left other

theorem mem_left {line : ℕ → ℕ} {lists : ℕ → List ℕ} {n end_x : ℕ}
    (mem : ∀ i < n, ∀ k, k ∈ lists i ↔ k < end_x ∧ line k = i) {passed rest : List ℕ}
    (split : lists (line leave_x) = passed ++ leave_x :: rest) (nodup : (lists (line leave_x)).Nodup)
    (lt : line leave_x < n) (i : ℕ) (hi : i < n) (k : ℕ) :
    k ∈ update lists (line leave_x) (passed ++ rest) i ↔
      (k < end_x ∧ k ≠ leave_x) ∧ line k = i := by
  by_cases same : i = line leave_x
  · subst same
    rw [split] at nodup
    rw [update_self, mem_unlinked nodup, ← split, mem _ lt, and_right_comm]
  · rw [update_of_ne same, mem i hi, and_right_comm, iff_self_and]
    rintro ⟨-, here⟩ leaving
    exact same (leaving ▸ here.symm)

theorem emdLeave_spec (lists : Entered state row col) (lt : leave_x < state.end_x)
    (enough : state.end_x < fuel) :
    ∃ next, emdLeave fuel state leave_x = some next ∧ state.Leaves leave_x next := by
  have hi := lists.rows_lt leave_x lt
  have hj := lists.cols_lt leave_x lt
  obtain ⟨passed, rest, row_eq⟩ := List.append_of_mem ((lists.mem_row _ hi leave_x).mpr ⟨lt, rfl⟩)
  obtain ⟨passed', rest', col_eq⟩ :=
    List.append_of_mem ((lists.mem_col _ hj leave_x).mpr ⟨lt, rfl⟩)
  have linkedRow := lists.rows _ hi
  have linkedCol := lists.cols _ hj
  have nodupRow := linkedRow.nodup
  have nodupCol := linkedCol.nodup
  have shortRow := length_le_of_below nodupRow fun k mem => ((lists.mem_row _ hi k).mp mem).1
  have shortCol := length_le_of_below nodupCol fun k mem => ((lists.mem_col _ hj k).mp mem).1
  rw [row_eq] at linkedRow shortRow
  rw [col_eq] at linkedCol shortCol
  rw [List.length_append, List.length_cons] at shortRow shortCol
  obtain ⟨x₁, head₁, run₁, rows₁, frame₁, cols₁, kept₁⟩ :=
    emdUnlink_spec linkedRow (show passed.length < fuel by omega)
  have sameCols : (fun a => (x₁ a).next 1) = fun a => (state.x a).next 1 :=
    funext fun a => cols₁ a 1 (by decide)
  rw [← sameCols] at linkedCol
  obtain ⟨x₂, head₂, run₂, cols₂, frame₂, rows₂, kept₂⟩ :=
    emdUnlink_spec linkedCol (show passed'.length < fuel by omega)
  have sameRows : (fun a => (x₂ a).next 0) = fun a => (x₁ a).next 0 :=
    funext fun a => rows₂ a 0 (by decide)
  have frame : ∀ k, ∃ links, x₂ k = { state.x k with next := links } := by
    intro k
    obtain ⟨links, first⟩ := frame₁ k
    obtain ⟨links', second⟩ := frame₂ k
    exact ⟨links', by rw [second, first]⟩
  have val : ∀ k, (x₂ k).val = (state.x k).val := fun k => by
    obtain ⟨links, same⟩ := frame k
    rw [same]
  have row_of : ∀ k, (x₂ k).i = (state.x k).i := fun k => by
    obtain ⟨links, same⟩ := frame k
    rw [same]
  have col_of : ∀ k, (x₂ k).j = (state.x k).j := fun k => by
    obtain ⟨links, same⟩ := frame k
    rw [same]
  have run : emdLeave fuel state leave_x = some { state with
      is_x := setEntry state.is_x (state.x leave_x).i (state.x leave_x).j false
      x := x₂
      rows_x := update state.rows_x (state.x leave_x).i head₁
      cols_x := update state.cols_x (state.x leave_x).j head₂
      enter_x := leave_x } := by
    rw [emdLeave]
    simp only [run₁, run₂, Option.bind_eq_bind, Option.bind_some]
  refine ⟨_, run, rfl, rfl, rfl, rfl, val, fun k => Prod.ext (row_of k) (col_of k),
    update row (state.x leave_x).i (passed ++ rest),
    update col (state.x leave_x).j (passed' ++ rest'),
    fun i hi' => ?_, fun j hj' => ?_, fun i hi' k => ?_, fun j hj' k => ?_⟩
  · show Foundation.Linked (fun a => (x₂ a).next 0)
      (update state.rows_x (state.x leave_x).i head₁ i) _
    rw [sameRows]
    by_cases same : i = (state.x leave_x).i
    · rw [same, update_self, update_self]
      exact rows₁
    · rw [update_of_ne same, update_of_ne same]
      refine (lists.rows i hi').congr fun a mem => ?_
      rw [kept₁ a fun inside => same ?_]
      have here := (lists.mem_row _ hi a).mp (by simp [row_eq, inside])
      rw [← here.2, ((lists.mem_row i hi' a).mp mem).2]
  · show Foundation.Linked (fun a => (x₂ a).next 1)
      (update state.cols_x (state.x leave_x).j head₂ j) _
    by_cases same : j = (state.x leave_x).j
    · rw [same, update_self, update_self]
      exact cols₂
    · rw [update_of_ne same, update_of_ne same]
      refine (lists.cols j hj').congr fun a mem => ?_
      rw [kept₂ a fun inside => same ?_, cols₁ a 1 (by decide)]
      have here := (lists.mem_col _ hj a).mp (by simp [col_eq, inside])
      rw [← here.2, ((lists.mem_col j hj' a).mp mem).2]
  · rw [EMDState.mem_basics, row_of]
    exact mem_left lists.mem_row row_eq nodupRow hi i hi' k
  · rw [EMDState.mem_basics, col_of]
    exact mem_left lists.mem_col col_eq nodupCol hj j hj' k

end

/-! ## The basis after the step -/

namespace EMDState

section
variable {R : Type} {state next : EMDState R} {leave_x : ℕ}

structure Covers (state : EMDState R) : Prop where
  distinct : ∀ k < state.end_x, ∀ k' < state.end_x, state.cellAt k = state.cellAt k' → k = k'
  marked : ∀ i < state.ssize, ∀ j < state.dsize,
    (state.is_x i j = true ↔ ∃ k < state.end_x, state.cellAt k = (i, j))

theorem Basis.enter [Zero R] (basis : state.Basis)
    (hi : (state.x state.enter_x).i < state.ssize) (hj : (state.x state.enter_x).j < state.dsize)
    (off : state.is_x (state.x state.enter_x).i (state.x state.enter_x).j = false) :
    (emdEnter state).Covers := by
  have apart : ∀ k ∈ state.basics, state.cellAt k ≠ state.cellAt state.enter_x := by
    intro k used same
    have marked := (basis.marked _ hi _ hj).mpr ⟨k, used, same⟩
    rw [off] at marked
    cases marked
  refine ⟨fun k lt k' lt' same => ?_, fun i hi' j hj' => ?_⟩
  · rw [emdEnter_cellAt, emdEnter_cellAt] at same
    by_cases first : k = state.enter_x
    · by_cases second : k' = state.enter_x
      · rw [first, second]
      · exact absurd (first ▸ same.symm) (apart k' (mem_basics.mpr ⟨lt', second⟩))
    · by_cases second : k' = state.enter_x
      · exact absurd (second ▸ same) (apart k (mem_basics.mpr ⟨lt, first⟩))
      · exact basis.distinct k (mem_basics.mpr ⟨lt, first⟩) k' (mem_basics.mpr ⟨lt', second⟩) same
  · show setEntry state.is_x _ _ true i j = true ↔ _
    rw [setEntry]
    by_cases here : i = (state.x state.enter_x).i ∧ j = (state.x state.enter_x).j
    · rw [if_pos here, here.1, here.2]
      exact ⟨fun _ => ⟨state.enter_x, basis.free, emdEnter_cellAt _⟩, fun _ => rfl⟩
    · rw [if_neg here, basis.marked i hi' j hj']
      constructor
      · rintro ⟨k, used, cell⟩
        exact ⟨k, (mem_basics.mp used).1, (emdEnter_cellAt k).trans cell⟩
      · rintro ⟨k, lt, cell⟩
        rw [emdEnter_cellAt] at cell
        refine ⟨k, mem_basics.mpr ⟨lt, fun entering => here ?_⟩, cell⟩
        subst entering
        exact ⟨(congrArg Prod.fst cell).symm, (congrArg Prod.snd cell).symm⟩

theorem Covers.leave (covers : state.Covers) (count : state.end_x = state.ssize + state.dsize)
    (rows : ∀ k < state.end_x, (state.x k).i < state.ssize)
    (cols : ∀ k < state.end_x, (state.x k).j < state.dsize) (lt : leave_x < state.end_x)
    (left : state.Leaves leave_x next) : next.Basis := by
  have sizes := left.problem
  have basics : ∀ k, k ∈ next.basics ↔ k < state.end_x ∧ k ≠ leave_x := by
    intro k
    rw [mem_basics, left.end_x, left.enter_x]
  have row_of : ∀ k, (next.x k).i = (state.x k).i := fun k => congrArg Prod.fst (left.cellAt k)
  have col_of : ∀ k, (next.x k).j = (state.x k).j := fun k => congrArg Prod.snd (left.cellAt k)
  refine ⟨?_, ?_, fun k used => ?_, fun k used => ?_, fun k used k' used' same => ?_,
    fun i hi j hj => ?_⟩
  · rw [left.enter_x, left.end_x]
    exact lt
  · rw [left.end_x, sizes, count]
  · rw [sizes, row_of]
    exact rows k ((basics k).mp used).1
  · rw [sizes, col_of]
    exact cols k ((basics k).mp used).1
  · rw [left.cellAt, left.cellAt] at same
    exact covers.distinct k ((basics k).mp used).1 k' ((basics k').mp used').1 same
  · rw [sizes] at hi hj
    rw [left.is_x, setEntry]
    by_cases here : i = (state.x leave_x).i ∧ j = (state.x leave_x).j
    · rw [if_pos here]
      refine iff_of_false Bool.false_ne_true ?_
      rintro ⟨k, used, cell⟩
      rw [left.cellAt] at cell
      have same : state.cellAt k = state.cellAt leave_x := by
        rw [cell, here.1, here.2]
        rfl
      exact ((basics k).mp used).2 (covers.distinct k ((basics k).mp used).1 leave_x lt same)
    · rw [if_neg here, covers.marked i hi j hj]
      constructor
      · rintro ⟨k, lt', cell⟩
        refine ⟨k, (basics k).mpr ⟨lt', fun leaving => here ?_⟩, (left.cellAt k).trans cell⟩
        subst leaving
        exact ⟨(congrArg Prod.fst cell).symm, (congrArg Prod.snd cell).symm⟩
      · rintro ⟨k, used, cell⟩
        exact ⟨k, ((basics k).mp used).1, (left.cellAt k).symm.trans cell⟩

end

section
variable {R : Type} [Add R] [Sub R] {state : EMDState R} {row col : ℕ → List ℕ} {loop : List ℕ}

/-- The state once the values along a loop are updated. -/
def shift (state : EMDState R) (min_val : R) (loop : List ℕ) : EMDState R :=
  { state with x := emdShift min_val loop state.x }

variable {min_val : R}

@[simp] theorem shift_i (k : ℕ) : ((state.shift min_val loop).x k).i = (state.x k).i :=
  emdShift_frame min_val (fun _ _ => rfl) k

@[simp] theorem shift_j (k : ℕ) : ((state.shift min_val loop).x k).j = (state.x k).j :=
  emdShift_frame min_val (fun _ _ => rfl) k

@[simp] theorem shift_next (k : ℕ) : ((state.shift min_val loop).x k).next = (state.x k).next :=
  emdShift_frame min_val (fun _ _ => rfl) k

@[simp] theorem shift_cellAt (k : ℕ) : (state.shift min_val loop).cellAt k = state.cellAt k :=
  Prod.ext (shift_i k) (shift_j k)

theorem Covers.shift (covers : state.Covers) : (state.shift min_val loop).Covers where
  distinct k lt k' lt' same := by
    rw [shift_cellAt, shift_cellAt] at same
    exact covers.distinct k lt k' lt' same
  marked i hi j hj := by
    simp only [shift_cellAt]
    exact covers.marked i hi j hj

end

end EMDState

theorem Entered.shift {R : Type} [Add R] [Sub R] {state : EMDState R} {row col : ℕ → List ℕ}
    (lists : Entered state row col) (min_val : R) (loop : List ℕ) :
    Entered (state.shift min_val loop) row col where
  free := lists.free
  rows_lt k lt := by
    rw [EMDState.shift_i]
    exact lists.rows_lt k lt
  cols_lt k lt := by
    rw [EMDState.shift_j]
    exact lists.cols_lt k lt
  rows i hi := by
    simp only [EMDState.shift_next]
    exact lists.rows i hi
  cols j hj := by
    simp only [EMDState.shift_next]
    exact lists.cols j hj
  mem_row i hi k := by
    rw [EMDState.shift_i]
    exact lists.mem_row i hi k
  mem_col j hj k := by
    rw [EMDState.shift_j]
    exact lists.mem_col j hj k
  head := by
    rw [EMDState.shift_j]
    exact lists.head

section
variable {R : Type} {state : EMDState R} {loop : List ℕ} {leave_x : ℕ}

theorem IsLoop.shape (isLoop : IsLoop state loop) :
    ∃ b rest, loop = state.enter_x :: b :: rest := by
  have start := isLoop.start
  have moves := isLoop.moves
  cases loop with
  | nil => cases start
  | cons a loop =>
      cases loop with
      | nil => exact moves.elim
      | cons b rest => exact ⟨b, rest, by rw [Option.some.inj start]⟩

theorem IsLoop.ne_enter (isLoop : IsLoop state loop) {k : ℕ} (odd : k ∈ oddPlaces loop) :
    k ≠ state.enter_x := by
  obtain ⟨b, rest, rfl⟩ := isLoop.shape
  have nodup := isLoop.nodup
  intro same
  refine not_even_of_odd nodup odd ?_
  rw [same, evenPlaces]
  exact List.mem_cons_self

theorem IsLoop.connected {m n : ℕ} {cell cell' : ℕ → ℕ → Bool} (isLoop : IsLoop state loop)
    (odd : leave_x ∈ oddPlaces loop) (connected : (cellGraph m n cell).Connected)
    (kept : ∀ i < m, ∀ j < n, cell i j = true → (i, j) ≠ state.cellAt leave_x →
      cell' i j = true)
    (rows : ∀ k ∈ loop, (state.x k).i < m) (cols : ∀ k ∈ loop, (state.x k).j < n)
    (others : ∀ k ∈ loop, k ≠ leave_x → cell' (state.x k).i (state.x k).j = true) :
    (cellGraph m n cell').Connected := by
  have leaving := mem_of_odd odd
  let reached : ℕ ⊕ ℕ → Prop := fun line => ∃ v, lineOf v = line ∧
    (cellGraph m n cell').Reachable (.inl ⟨(state.x leave_x).i, rows leave_x leaving⟩) v
  have passes : ∀ k ∈ loop, k ≠ leave_x →
      (reached (.inl (state.x k).i) ↔ reached (.inr (state.x k).j)) := by
    intro k mem other
    have adjacent := cellGraph_adj (rows k mem) (cols k mem) (others k mem other)
    constructor
    · rintro ⟨v, line, walk⟩
      have same : v = .inl ⟨(state.x k).i, rows k mem⟩ := lineOf_injective line
      subst same
      exact ⟨.inr ⟨(state.x k).j, cols k mem⟩, rfl, walk.trans adjacent.reachable⟩
    · rintro ⟨v, line, walk⟩
      have same : v = .inr ⟨(state.x k).j, cols k mem⟩ := lineOf_injective line
      subst same
      exact ⟨.inl ⟨(state.x k).i, rows k mem⟩, rfl, walk.trans adjacent.reachable.symm⟩
  obtain ⟨here, there⟩ := isLoop.moves.around isLoop.nodup odd passes
  rw [isLoop.start, Option.elim_some, ← there] at here
  obtain ⟨v, line, walk⟩ := here.mp ⟨_, rfl, .refl _⟩
  refine connected_of_joined connected fun i j marked => ?_
  by_cases left : (i.1, j.1) = state.cellAt leave_x
  · have row : i.1 = (state.x leave_x).i := congrArg Prod.fst left
    have col : j.1 = (state.x leave_x).j := congrArg Prod.snd left
    have target : v = .inr j := lineOf_injective (line.trans (congrArg Sum.inr col.symm))
    have source : (⟨(state.x leave_x).i, rows leave_x leaving⟩ : Fin m) = i := Fin.ext row.symm
    rw [target, source] at walk
    exact walk
  · exact (cellGraph_adj i.2 j.2 (kept i i.2 j j.2 marked left)).reachable

end

section
variable {F : Type} [CommRing F] {state : EMDState F} {loop : List ℕ}

theorem IsLoop.balanced (isLoop : IsLoop state loop) (u v : ℕ → F) :
    ((evenPlaces loop).map fun k => u (state.x k).i + v (state.x k).j).sum =
      ((oddPlaces loop).map fun k => u (state.x k).i + v (state.x k).j).sum := by
  have rows := isLoop.moves.rows u
  have cols := isLoop.moves.cols v
  rw [isLoop.start, Option.elim_some, add_left_inj] at cols
  rw [List.sum_map_add, List.sum_map_add, rows, cols]

theorem emdEnter_val (k : ℕ) :
    ((emdEnter state).x k).val = if k = state.enter_x then 0 else (state.x k).val := by
  by_cases entering : k = state.enter_x
  · rw [if_pos entering, entering]
    show (update state.x state.enter_x _ state.enter_x).val = 0
    rw [update_self]
  · rw [if_neg entering]
    show (update state.x state.enter_x _ k).val = _
    rw [update_of_ne entering]

variable {next : EMDState F} {leave_x : ℕ} {min_val : F}

theorem EMDState.Leaves.val_eq (left : ((emdEnter state).shift min_val loop).Leaves leave_x next)
    (nodup : loop.Nodup) (k : ℕ) :
    (next.x k).val = ((emdEnter state).x k).val +
      (if k ∈ evenPlaces loop then min_val else 0) -
        if k ∈ oddPlaces loop then min_val else 0 := by
  rw [left.val]
  exact emdShift_val nodup min_val k

theorem EMDState.Leaves.sum_basics
    (left : ((emdEnter state).shift min_val loop).Leaves leave_x next)
    (isLoop : IsLoop (emdEnter state) loop) (odd : leave_x ∈ oddPlaces loop)
    (least : (state.x leave_x).val = min_val) (w : ℕ → F) :
    ∑ k ∈ next.basics, w k * (next.x k).val =
      ∑ k ∈ state.basics, w k * (state.x k).val +
        min_val * (((evenPlaces loop).map w).sum - ((oddPlaces loop).map w).sum) := by
  have entering : ∑ k ∈ state.basics, w k * (state.x k).val =
      ∑ k ∈ Finset.range state.end_x, w k * ((emdEnter state).x k).val := by
    rw [← Finset.sum_erase (Finset.range state.end_x) (a := state.enter_x)]
    · refine Finset.sum_congr rfl fun k used => ?_
      rw [emdEnter_val, if_neg (Finset.ne_of_mem_erase used)]
    · rw [emdEnter_val, if_pos rfl, mul_zero]
  have leaving : ∑ k ∈ next.basics, w k * (next.x k).val =
      ∑ k ∈ Finset.range state.end_x,
        w k * (emdShift min_val loop (emdEnter state).x k).val := by
    have basics : next.basics = (Finset.range state.end_x).erase leave_x := by
      rw [EMDState.basics, left.end_x, left.enter_x]
      rfl
    rw [basics, Finset.sum_congr rfl fun k _ => congrArg (w k * ·) (left.val k)]
    refine Finset.sum_erase _ ?_
    have value := emdShift_val (x := (emdEnter state).x) isLoop.nodup min_val leave_x
    rw [if_neg (not_even_of_odd isLoop.nodup odd), if_pos odd, emdEnter_val,
      if_neg (show leave_x ≠ state.enter_x from isLoop.ne_enter odd), least, add_zero,
      sub_self] at value
    show w leave_x * (emdShift min_val loop (emdEnter state).x leave_x).val = 0
    rw [value, mul_zero]
  rw [leaving, entering]
  exact sum_emdShift isLoop.nodup isLoop.nodes min_val w

end

/-! ## The step -/

namespace EMDState

/-- What the values cost. -/
def totalCost {R : Type} [AddCommMonoid R] [Mul R] (state : EMDState R) : R :=
  ∑ k ∈ state.basics, (state.x k).val * state.cost (state.x k).i (state.x k).j

def Prices {R : Type} [Add R] (state : EMDState R) (u v : ℕ → R) : Prop :=
  ∀ k ∈ state.basics, u (state.x k).i + v (state.x k).j = state.cost (state.x k).i (state.x k).j

/-- A basis of cells that span a tree, in the lists of their rows and columns, and without a
negative value. -/
structure SpanningBasis {R : Type} [Zero R] [LE R] (state : EMDState R) : Prop
    extends state.Basis where
  tree : (cellGraph state.ssize state.dsize state.is_x).IsTree
  listed : ∃ row col, state.Listed row col
  values : ∀ k ∈ state.basics, 0 ≤ (state.x k).val

/-- A step to a basis of the same problem with the same sums, which does not cost more where
the entering cell costs less than its row and column. -/
structure Pivots {F : Type} [Field F] [LinearOrder F] (state next : EMDState F) : Prop where
  spanning : next.SpanningBasis
  problem : next.toEMDProblem = state.toEMDProblem
  rowSum : ∀ i, next.rowSum i = state.rowSum i
  colSum : ∀ j, next.colSum j = state.colSum j
  totalCost : ∀ u v, state.Prices u v →
    state.cost (state.x state.enter_x).i (state.x state.enter_x).j -
      u (state.x state.enter_x).i - v (state.x state.enter_x).j < 0 →
    next.totalCost ≤ state.totalCost

end EMDState

section
variable {F : Type} [CommRing F] {state next : EMDState F} {loop : List ℕ} {leave_x : ℕ}
  {min_val : F}

theorem sum_line {basics : Finset ℕ} (line : ℕ → ℕ) (val : ℕ → F) (i : ℕ) :
    ∑ k ∈ basics with line k = i, val k = ∑ k ∈ basics, (if line k = i then 1 else 0) * val k := by
  rw [Finset.sum_filter]
  refine Finset.sum_congr rfl fun k _ => ?_
  by_cases here : line k = i
  · rw [if_pos here, if_pos here, one_mul]
  · rw [if_neg here, if_neg here, zero_mul]

theorem IsLoop.reduced_cost (isLoop : IsLoop (emdEnter state) loop) {u v : ℕ → F}
    (prices : state.Prices u v) :
    ((evenPlaces loop).map fun k => state.cost (state.x k).i (state.x k).j).sum -
        ((oddPlaces loop).map fun k => state.cost (state.x k).i (state.x k).j).sum =
      state.cost (state.x state.enter_x).i (state.x state.enter_x).j -
        u (state.x state.enter_x).i - v (state.x state.enter_x).j := by
  have balanced := isLoop.balanced u v
  simp only [emdEnter_i, emdEnter_j] at balanced
  have basic : ∀ k ∈ loop, k ≠ state.enter_x →
      state.cost (state.x k).i (state.x k).j = u (state.x k).i + v (state.x k).j :=
    fun k mem other => (prices k (EMDState.mem_basics.mpr ⟨isLoop.nodes k mem, other⟩)).symm
  have odds : (oddPlaces loop).map (fun k => state.cost (state.x k).i (state.x k).j) =
      (oddPlaces loop).map fun k => u (state.x k).i + v (state.x k).j :=
    List.map_congr_left fun k odd => basic k (mem_of_odd odd) (isLoop.ne_enter odd)
  rw [odds, ← balanced]
  obtain ⟨b, rest, rfl⟩ := isLoop.shape
  obtain ⟨first, -⟩ := List.nodup_cons.mp isLoop.nodup
  have evens : (evenPlaces rest).map (fun k => state.cost (state.x k).i (state.x k).j) =
      (evenPlaces rest).map fun k => u (state.x k).i + v (state.x k).j := by
    refine List.map_congr_left fun k even => ?_
    have later := List.mem_cons_of_mem b (mem_of_even even)
    exact basic k (List.mem_cons_of_mem _ later) fun same => first (same ▸ later)
  rw [evenPlaces, List.map_cons, List.map_cons, evens, List.sum_cons, List.sum_cons]
  show state.cost (state.x state.enter_x).i (state.x state.enter_x).j + _ -
    (u (state.x state.enter_x).i + v (state.x state.enter_x).j + _) = _
  ring

theorem EMDState.Leaves.row_eq (left : ((emdEnter state).shift min_val loop).Leaves leave_x next)
    (k : ℕ) : (next.x k).i = (state.x k).i :=
  congrArg Prod.fst ((left.cellAt k).trans ((EMDState.shift_cellAt k).trans (emdEnter_cellAt k)))

theorem EMDState.Leaves.col_eq (left : ((emdEnter state).shift min_val loop).Leaves leave_x next)
    (k : ℕ) : (next.x k).j = (state.x k).j :=
  congrArg Prod.snd ((left.cellAt k).trans ((EMDState.shift_cellAt k).trans (emdEnter_cellAt k)))

theorem EMDState.Leaves.sums
    (left : ((emdEnter state).shift min_val loop).Leaves leave_x next)
    (isLoop : IsLoop (emdEnter state) loop) (odd : leave_x ∈ oddPlaces loop)
    (least : (state.x leave_x).val = min_val) :
    (∀ i, next.rowSum i = state.rowSum i) ∧ ∀ j, next.colSum j = state.colSum j := by
  constructor
  · intro i
    have balanced := isLoop.balanced (fun i' => if i' = i then 1 else 0) fun _ => 0
    simp only [emdEnter_i, add_zero] at balanced
    rw [EMDState.rowSum, EMDState.rowSum, sum_line, sum_line]
    simp only [left.row_eq]
    rw [left.sum_basics isLoop odd least, balanced, sub_self, mul_zero, add_zero]
  · intro j
    have balanced := isLoop.balanced (fun _ => 0) fun j' => if j' = j then 1 else 0
    simp only [emdEnter_j, zero_add] at balanced
    rw [EMDState.colSum, EMDState.colSum, sum_line, sum_line]
    simp only [left.col_eq]
    rw [left.sum_basics isLoop odd least, balanced, sub_self, mul_zero, add_zero]

theorem EMDState.Leaves.totalCost
    (left : ((emdEnter state).shift min_val loop).Leaves leave_x next)
    (isLoop : IsLoop (emdEnter state) loop) (odd : leave_x ∈ oddPlaces loop)
    (least : (state.x leave_x).val = min_val) {u v : ℕ → F} (prices : state.Prices u v) :
    next.totalCost = state.totalCost + min_val *
      (state.cost (state.x state.enter_x).i (state.x state.enter_x).j -
        u (state.x state.enter_x).i - v (state.x state.enter_x).j) := by
  have cells : ∀ k, next.cost (next.x k).i (next.x k).j =
      state.cost (state.x k).i (state.x k).j := by
    intro k
    rw [left.row_eq, left.col_eq, left.problem]
    rfl
  rw [EMDState.totalCost, EMDState.totalCost, ← isLoop.reduced_cost prices]
  simp only [cells, mul_comm (EMDNode2D.val _)]
  exact left.sum_basics isLoop odd least fun k => state.cost (state.x k).i (state.x k).j

end

section
variable {F : Type} [Field F] [LinearOrder F] [IsStrictOrderedRing F] {state next : EMDState F}
  {loop : List ℕ} {leave_x : ℕ} {min_val : F}

theorem EMDState.SpanningBasis.leave (spanning : state.SpanningBasis)
    (hi : (state.x state.enter_x).i < state.ssize) (hj : (state.x state.enter_x).j < state.dsize)
    (off : state.is_x (state.x state.enter_x).i (state.x state.enter_x).j = false)
    (isLoop : IsLoop (emdEnter state) loop) (odd : leave_x ∈ oddPlaces loop)
    (value : (state.x leave_x).val = min_val)
    (least : ∀ k ∈ oddPlaces loop, min_val ≤ (state.x k).val)
    (left : ((emdEnter state).shift min_val loop).Leaves leave_x next) : next.SpanningBasis := by
  obtain ⟨row, col, lists⟩ := spanning.listed
  have entered := lists.enter spanning.toBasis hi hj
  have lt : leave_x < state.end_x := isLoop.nodes leave_x (mem_of_odd odd)
  have nonneg : ∀ k < state.end_x, 0 ≤ ((emdEnter state).x k).val := by
    intro k lt
    rw [emdEnter_val]
    split_ifs with entering
    · exact le_rfl
    · exact spanning.values k (EMDState.mem_basics.mpr ⟨lt, entering⟩)
  have moved : 0 ≤ min_val := by
    rw [← value]
    exact spanning.values leave_x (EMDState.mem_basics.mpr ⟨lt, isLoop.ne_enter odd⟩)
  have basis : next.Basis := (spanning.toBasis.enter hi hj off).shift.leave spanning.count
    (entered.shift min_val loop).rows_lt (entered.shift min_val loop).cols_lt lt left
  have sizes : next.ssize = state.ssize ∧ next.dsize = state.dsize := by
    rw [left.problem]
    exact ⟨rfl, rfl⟩
  have connected : (cellGraph state.ssize state.dsize next.is_x).Connected := by
    refine isLoop.connected odd (cellGraph_isTree_iff.mp spanning.tree).1 ?_
      (fun k mem => entered.rows_lt k (isLoop.nodes k mem))
      (fun k mem => entered.cols_lt k (isLoop.nodes k mem)) fun k mem other => ?_
    · intro i hi' j hj' marked apart
      rw [left.is_x, setEntry, if_neg]
      · show setEntry state.is_x _ _ true i j = true
        rw [setEntry]
        split_ifs
        · rfl
        · exact marked
      · rintro ⟨row, col⟩
        rw [EMDState.shift_i] at row
        rw [EMDState.shift_j] at col
        exact apart (by rw [row, col]; rfl)
    · have used : k ∈ next.basics := by
        rw [EMDState.mem_basics, left.end_x, left.enter_x]
        exact ⟨isLoop.nodes k mem, other⟩
      have row := basis.rows k used
      have col := basis.cols k used
      rw [left.row_eq] at row
      rw [left.col_eq] at col
      rw [emdEnter_i, emdEnter_j]
      refine (basis.marked _ row _ col).mpr ⟨k, used, ?_⟩
      rw [EMDState.cellAt, left.row_eq, left.col_eq]
  refine ⟨basis, cellGraph_isTree_iff.mpr ⟨?_, basis.card_marked⟩, left.listed, fun k used => ?_⟩
  · rw [sizes.1, sizes.2]
    exact connected
  · have lt' : k < state.end_x := by
      have lt' := (EMDState.mem_basics.mp used).1
      rwa [left.end_x] at lt'
    rw [left.val_eq isLoop.nodup]
    by_cases here : k ∈ oddPlaces loop
    · rw [if_neg (not_even_of_odd isLoop.nodup here), if_pos here, add_zero, emdEnter_val,
        if_neg (show k ≠ state.enter_x from isLoop.ne_enter here)]
      exact sub_nonneg.mpr (least k here)
    · rw [if_neg here, sub_zero]
      refine add_nonneg (nonneg k lt') ?_
      split_ifs
      · exact moved
      · exact le_rfl

theorem emdNewSolution_spec (spanning : state.SpanningBasis)
    (hi : (state.x state.enter_x).i < state.ssize) (hj : (state.x state.enter_x).j < state.dsize)
    (off : state.is_x (state.x state.enter_x).i (state.x state.enter_x).j = false) :
    ∃ loop n, IsLoop (emdEnter state) loop ∧ ∀ fuel, n ≤ fuel →
      emdFindLoop fuel (emdEnter state) = some loop ∧
      if ∃ k ∈ oddPlaces loop, (state.x k).val < EMD_INF then
        ∃ next, emdNewSolution fuel state = some (true, next) ∧ state.Pivots next
      else emdNewSolution fuel state = some (false, emdEnter state) := by
  obtain ⟨row, col, lists⟩ := spanning.listed
  have entered := lists.enter spanning.toBasis hi hj
  obtain ⟨loop, n, runs, ⟨isLoop, -⟩, -⟩ :=
    emdFindLoop_spec (spanning.toBasis.spans spanning.tree) entered
  refine ⟨loop, max n (state.end_x + 1), isLoop, fun fuel le => ?_⟩
  have run := runs fuel ((Nat.le_max_left _ _).trans le)
  have enough : state.end_x < fuel := (Nat.le_max_right n _).trans le
  have val_eq : ∀ k ∈ oddPlaces loop, ((emdEnter state).x k).val = (state.x k).val :=
    fun k odd => (emdEnter_val k).trans (if_neg (isLoop.ne_enter odd))
  refine ⟨run, ?_⟩
  cases found : smallest (fun k => ((emdEnter state).x k).val) (oddPlaces loop) with
  | mk least min_val =>
      cases least with
      | none =>
          rw [if_neg]
          · rw [emdNewSolution]
            simp only [run, found, Option.bind_eq_bind, Option.bind_some]
          · rintro ⟨k, odd, below⟩
            rw [← val_eq k odd] at below
            obtain ⟨b, some⟩ :=
              smallest_isSome (f := fun k => ((emdEnter state).x k).val) odd below
            rw [found] at some
            cases some
      | some leave_x =>
          obtain ⟨odd, value, below⟩ := smallest_some (congrArg Prod.fst found)
          have least : ∀ k ∈ oddPlaces loop, min_val ≤ (state.x k).val := by
            intro k odd
            have le := smallest_le (f := fun k => ((emdEnter state).x k).val) odd
            rw [found, val_eq k odd] at le
            exact le
          rw [val_eq leave_x odd] at value below
          replace value : (state.x leave_x).val = min_val := value.trans (congrArg Prod.snd found)
          have lt : leave_x < state.end_x := isLoop.nodes leave_x (mem_of_odd odd)
          obtain ⟨next, leave, left⟩ := emdLeave_spec (entered.shift min_val loop) lt enough
          rw [if_pos ⟨leave_x, odd, below⟩]
          refine ⟨next, ?_, spanning.leave hi hj off isLoop odd value least left, left.problem,
            (left.sums isLoop odd value).1, (left.sums isLoop odd value).2,
            fun u v prices reduced => ?_⟩
          · rw [emdNewSolution]
            simp only [run, found, Option.bind_eq_bind, Option.bind_some]
            exact congrArg (Option.bind · _) leave
          · rw [left.totalCost isLoop odd value prices, add_le_iff_nonpos_right]
            refine mul_nonpos_of_nonneg_of_nonpos ?_ reduced.le
            rw [← value]
            exact spanning.values leave_x (EMDState.mem_basics.mpr ⟨lt, isLoop.ne_enter odd⟩)

/-- A step from a basis that spans a tree, by any cell that is not basic, leads to such a basis
again, where a cell of the loop that gives up has less than `EMD_INF`. -/
theorem emdNewSolution_pivots (spanning : state.SpanningBasis)
    (hi : (state.x state.enter_x).i < state.ssize) (hj : (state.x state.enter_x).j < state.dsize)
    (off : state.is_x (state.x state.enter_x).i (state.x state.enter_x).j = false)
    (below : ∀ loop, IsLoop (emdEnter state) loop →
      ∃ k ∈ oddPlaces loop, (state.x k).val < EMD_INF) :
    ∃ n, ∀ fuel, n ≤ fuel →
      ∃ next, emdNewSolution fuel state = some (true, next) ∧ state.Pivots next := by
  obtain ⟨loop, n, isLoop, runs⟩ := emdNewSolution_spec spanning hi hj off
  refine ⟨n, fun fuel le => ?_⟩
  have step := (runs fuel le).2
  rwa [if_pos (below loop isLoop)] at step

end

/-! ## Two rows and columns -/

/-- The basis on and above the diagonal with one value in all its cells. -/
def evenBasis (value : ℚ) : EMDState ℚ :=
  { emdStart ⟨2, 2, fun i j => if i = 1 ∧ j = 0 then 0 else 1, some, some, 1, 1⟩ (fun _ => 0)
      fun _ => 0 with
    x := fun k => ⟨value, (upperBasis.x k).next, (upperBasis.x k).i, (upperBasis.x k).j⟩
    end_x := upperBasis.end_x
    enter_x := upperBasis.enter_x
    is_x := upperBasis.is_x
    rows_x := upperBasis.rows_x
    cols_x := upperBasis.cols_x }

theorem evenBasis_spanning {value : ℚ} (nonneg : 0 ≤ value) : (evenBasis value).SpanningBasis where
  free := upperBasis_basis.free
  count := upperBasis_basis.count
  rows := upperBasis_basis.rows
  cols := upperBasis_basis.cols
  distinct := upperBasis_basis.distinct
  marked := upperBasis_basis.marked
  tree := upperBasis_tree
  listed := ⟨_, _, upperBasis_listed.rows, upperBasis_listed.cols, upperBasis_listed.mem_row,
    upperBasis_listed.mem_col⟩
  values _ _ := nonneg

theorem emdNewSolution_evenBasis :
    ∃ n, ∀ fuel, n ≤ fuel → ∃ next, emdNewSolution fuel (evenBasis 1) = some (true, next) ∧
      (evenBasis 1).Pivots next := by
  refine emdNewSolution_pivots (evenBasis_spanning zero_le_one) (by decide) (by decide) (by decide)
    fun loop isLoop => ?_
  obtain ⟨b, rest, rfl⟩ := isLoop.shape
  refine ⟨b, List.mem_cons_self, ?_⟩
  show (1 : ℚ) < EMD_INF
  norm_num [EMD_INF]

/-- Where every value is `EMD_INF`, no cell is found that leaves, and the entering cell is marked
beside a full basis. -/
theorem emdNewSolution_sentinel :
    (evenBasis EMD_INF).SpanningBasis ∧
      (evenBasis EMD_INF).is_x 1 0 = false ∧
      ∃ n, ∀ fuel, n ≤ fuel → ∃ next, emdNewSolution fuel (evenBasis EMD_INF) = some (false, next) ∧
        ¬next.Basis := by
  have nonneg : (0 : ℚ) ≤ EMD_INF := by norm_num [EMD_INF]
  have spanning := evenBasis_spanning nonneg
  obtain ⟨loop, n, -, runs⟩ := emdNewSolution_spec spanning (by decide) (by decide) (by decide)
  have apart : ∀ k ∈ upperBasis.basics, upperBasis.cellAt k ≠ (1, 0) := by decide
  refine ⟨spanning, by decide, n, fun fuel le =>
    ⟨emdEnter (evenBasis EMD_INF), ?_, fun basis => ?_⟩⟩
  · have step := (runs fuel le).2
    rwa [if_neg] at step
    rintro ⟨k, -, below⟩
    exact lt_irrefl _ below
  · obtain ⟨k, used, cell⟩ := (basis.marked 1 (by decide) 0 (by decide)).mp rfl
    rw [emdEnter_cellAt] at cell
    exact apart k used cell

end MilkyWay.NBody
