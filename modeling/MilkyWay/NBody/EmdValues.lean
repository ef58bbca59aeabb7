import MilkyWay.Foundation.Bipartite
import MilkyWay.NBody.Emd

/-! The values of the rows and columns: they are all found just where the basic cells
connect the rows and columns, and each of them but one is found by a cell of its own. -/

namespace MilkyWay.NBody

open Foundation Function

section
variable {R : Type}

/-! ## One marked line -/

theorem emdMark_lists (is_x : ℕ → Bool) (value : ℕ → R) (rest : List ℕ) (val : ℕ → R)
    (marked : List ℕ) :
    (emdMark is_x value rest val marked).2.1 = rest.filter (!is_x ·) ∧
      (emdMark is_x value rest val marked).2.2 = (rest.filter is_x).reverse ++ marked := by
  induction rest generalizing val marked with
  | nil => exact ⟨rfl, rfl⟩
  | cons a rest ih =>
      rw [emdMark]
      by_cases basic : is_x a = true
      · rw [if_pos basic]
        obtain ⟨unfound, found⟩ := ih (update val a (value a)) (a :: marked)
        rw [unfound, found]
        simp [basic]
      · rw [if_neg basic]
        obtain ⟨unfound, found⟩ := ih val marked
        simp [unfound, found, basic]

theorem emdMark_val (is_x : ℕ → Bool) (value : ℕ → R) (rest : List ℕ) (val : ℕ → R)
    (marked : List ℕ) (a : ℕ) :
    (emdMark is_x value rest val marked).1 a =
      if a ∈ rest ∧ is_x a = true then value a else val a := by
  induction rest generalizing val marked with
  | nil => simp [emdMark]
  | cons b rest ih =>
      rw [emdMark]
      by_cases basic : is_x b = true
      · rw [if_pos basic, ih]
        by_cases same : a = b
        · subst same
          simp [basic]
        · simp [same]
      · rw [if_neg basic]
        simp only [ih, List.mem_cons]
        by_cases same : a = b
        · subst same
          simp [basic]
        · simp [same]

/-! ## The search -/

def EMDFind.swap (f : EMDFind R) : EMDFind R :=
  ⟨f.v, f.u, f.v0, f.v1, f.u0, f.u1, f.v_cfound, f.u_cfound⟩

def newCells (cell : ℕ → ℕ → Bool) (f : EMDFind R) (j : ℕ) : Finset (ℕ × ℕ) :=
  (f.u0.filter (cell · j)).toFinset.map ⟨(·, j), fun _ _ same => (Prod.mk.inj same).1⟩

theorem mem_newCells {cell : ℕ → ℕ → Bool} {f : EMDFind R} {j : ℕ} {c : ℕ × ℕ} :
    c ∈ newCells cell f j ↔ c.1 ∈ f.u0 ∧ cell c.1 j = true ∧ c.2 = j := by
  obtain ⟨i, j'⟩ := c
  simp only [newCells, Finset.mem_map, List.mem_toFinset, List.mem_filter]
  constructor
  · rintro ⟨i, ⟨unfound, basic⟩, same⟩
    cases same
    exact ⟨unfound, basic, rfl⟩
  · rintro ⟨unfound, basic, rfl⟩
    exact ⟨i, ⟨unfound, basic⟩, rfl⟩

variable [Sub R]

def useCol (cell : ℕ → ℕ → Bool) (cost : ℕ → ℕ → R) (f : EMDFind R) (j : ℕ) (marked : List ℕ) :
    EMDFind R :=
  let lines := emdMark (cell · j) (fun i => cost i j - f.v j) f.u0 f.u f.u1
  { f with u := lines.1, u0 := lines.2.1, u1 := lines.2.2, v1 := marked
           v_cfound := f.v_cfound + 1 }

def useCols (cell : ℕ → ℕ → Bool) (cost : ℕ → ℕ → R) : List ℕ → EMDFind R → EMDFind R
  | [], f => f
  | j :: marked, f => useCols cell cost marked (useCol cell cost f j marked)

theorem emdFindRows_eq (state : EMDState R) (f : EMDFind R) :
    emdFindRows state f = useCols state.is_x state.cost f.v1 f := by
  obtain ⟨u, v, u0, u1, v0, v1, u_cfound, v_cfound⟩ := f
  induction v1 generalizing u u0 u1 v_cfound with
  | nil => rfl
  | cons j marked ih =>
      have next := ih (emdMark (state.is_x · j) (fun i => state.cost i j - v j) u0 u u1).1
        (emdMark (state.is_x · j) (fun i => state.cost i j - v j) u0 u u1).2.1
        (emdMark (state.is_x · j) (fun i => state.cost i j - v j) u0 u u1).2.2 (v_cfound + 1)
      rw [useCols, useCol, ← next]
      simp only [emdFindRows, List.foldl_cons, List.length_cons]
      rw [Nat.add_right_comm, Nat.add_assoc]

theorem emdFindCols_eq (state : EMDState R) (f : EMDFind R) :
    emdFindCols state f =
      (emdFindRows { state with is_x := fun j i => state.is_x i j,
                                cost := fun j i => state.cost i j } f.swap).swap := rfl

/-- What holds of a search from a line: `E` holds a cell for each line found but the
first one, a line that is used has no basic cell with one that is not found, and all
lines found are `row` and `col`. -/
structure Finding (m n : ℕ) (cell : ℕ → ℕ → Bool) (cost : ℕ → ℕ → R) (row col : ℕ → Prop)
    (f : EMDFind R) (E : Finset (ℕ × ℕ)) : Prop where
  rows_nodup : (f.u0 ++ f.u1).Nodup
  cols_nodup : (f.v0 ++ f.v1).Nodup
  rows_lt : ∀ i ∈ f.u0 ++ f.u1, i < m
  cols_lt : ∀ j ∈ f.v0 ++ f.v1, j < n
  marked : E ⊆ markedCells m n cell
  found : ∀ c ∈ E, c.1 ∉ f.u0 ∧ c.2 ∉ f.v0
  values : ∀ c ∈ E, f.u c.1 = cost c.1 c.2 - f.v c.2 ∨ f.v c.2 = cost c.1 c.2 - f.u c.1
  card : E.card + 1 + f.u0.length + f.v0.length = m + n
  rows_used : f.u_cfound + f.u1.length + f.u0.length = m
  cols_used : f.v_cfound + f.v1.length + f.v0.length = n
  rows_closed : ∀ i < m, i ∉ f.u0 → i ∉ f.u1 → ∀ j ∈ f.v0, cell i j = false
  cols_closed : ∀ j < n, j ∉ f.v0 → j ∉ f.v1 → ∀ i ∈ f.u0, cell i j = false
  rows_reached : ∀ i < m, i ∉ f.u0 → row i
  cols_reached : ∀ j < n, j ∉ f.v0 → col j

variable {m n : ℕ} {cell : ℕ → ℕ → Bool} {cost : ℕ → ℕ → R} {row col : ℕ → Prop}
  {f : EMDFind R} {E : Finset (ℕ × ℕ)}

theorem Finding.swap (h : Finding m n cell cost row col f E) :
    Finding n m (fun j i => cell i j) (fun j i => cost i j) col row f.swap
      (E.map (Equiv.prodComm ℕ ℕ).toEmbedding) where
  rows_nodup := h.cols_nodup
  cols_nodup := h.rows_nodup
  rows_lt := h.cols_lt
  cols_lt := h.rows_lt
  marked := by
    intro c hc
    obtain ⟨c', hc', rfl⟩ := Finset.mem_map.mp hc
    obtain ⟨rows, cols, basic⟩ := mem_markedCells.mp (h.marked hc')
    exact mem_markedCells.mpr ⟨cols, rows, basic⟩
  found := by
    intro c hc
    obtain ⟨c', hc', rfl⟩ := Finset.mem_map.mp hc
    exact (h.found c' hc').symm
  values := by
    intro c hc
    obtain ⟨c', hc', rfl⟩ := Finset.mem_map.mp hc
    exact (h.values c' hc').symm
  card := by
    have card := h.card
    rw [Finset.card_map]
    simp only [EMDFind.swap]
    omega
  rows_used := h.cols_used
  cols_used := h.rows_used
  rows_closed := h.cols_closed
  cols_closed := h.rows_closed
  rows_reached := h.cols_reached
  cols_reached := h.rows_reached

theorem Finding.useCol (h : Finding m n cell cost row col f E)
    (pass : ∀ i < m, ∀ j < n, cell i j = true → col j → row i) {j : ℕ} {marked : List ℕ}
    (head : f.v1 = j :: marked) :
    Finding m n cell cost row col (useCol cell cost f j marked) (E ∪ newCells cell f j) := by
  obtain ⟨unfound, found⟩ := emdMark_lists (cell · j) (fun i => cost i j - f.v j) f.u0 f.u f.u1
  have value := emdMark_val (cell · j) (fun i => cost i j - f.v j) f.u0 f.u f.u1
  have j_mem : j ∈ f.v0 ++ f.v1 := by simp [head]
  have j_lt : j < n := h.cols_lt j j_mem
  have j_found : j ∉ f.v0 := by
    have apart := (List.nodup_append.mp h.cols_nodup).2.2
    exact fun mem => apart j mem j (by simp [head]) rfl
  have split : (f.u0.filter (!cell · j)).length + (f.u0.filter (cell · j)).length =
      f.u0.length := by
    have both := List.length_eq_length_filter_add (l := f.u0) (cell · j)
    omega
  have rows_perm : ((NBody.useCol cell cost f j marked).u0 ++
      (NBody.useCol cell cost f j marked).u1).Perm (f.u0 ++ f.u1) := by
    simp only [NBody.useCol, unfound, found]
    rw [← List.append_assoc]
    refine List.Perm.append_right f.u1 ?_
    refine (List.Perm.append_left _ (List.reverse_perm _)).trans ?_
    exact List.perm_append_comm.trans (List.filter_append_perm (cell · j) f.u0)
  have u0_sub : ∀ i ∈ (NBody.useCol cell cost f j marked).u0, i ∈ f.u0 ∧ cell i j = false := by
    intro i mem
    simp only [NBody.useCol, unfound, List.mem_filter, Bool.not_eq_true'] at mem
    exact mem
  have new_found : ∀ c ∈ newCells cell f j, c.1 ∉ (NBody.useCol cell cost f j marked).u0 := by
    intro c hc mem
    have basic := (mem_newCells.mp hc).2.1
    rw [(u0_sub c.1 mem).2] at basic
    cases basic
  refine ⟨(rows_perm.nodup_iff).mpr h.rows_nodup, ?_, ?_, ?_, ?_, ?_, ?_, ?_, ?_, ?_, ?_, ?_, ?_,
    h.cols_reached⟩
  · have nodup := h.cols_nodup
    rw [head] at nodup
    exact nodup.sublist ((List.sublist_cons_self j marked).append_left f.v0)
  · exact fun i mem => h.rows_lt i (rows_perm.mem_iff.mp mem)
  · intro j' mem
    refine h.cols_lt j' ?_
    rw [head]
    exact ((List.sublist_cons_self j marked).append_left f.v0).subset mem
  · refine Finset.union_subset h.marked fun c hc => ?_
    obtain ⟨mem, basic, same⟩ := mem_newCells.mp hc
    rw [mem_markedCells, same]
    exact ⟨h.rows_lt c.1 (List.mem_append_left _ mem), j_lt, basic⟩
  · intro c hc
    rcases Finset.mem_union.mp hc with old | new
    · exact ⟨fun mem => (h.found c old).1 (u0_sub c.1 mem).1, (h.found c old).2⟩
    · refine ⟨new_found c new, ?_⟩
      rw [(mem_newCells.mp new).2.2]
      exact j_found
  · intro c hc
    change (emdMark _ _ _ _ _).1 c.1 = _ ∨ f.v c.2 = cost c.1 c.2 - (emdMark _ _ _ _ _).1 c.1
    rcases Finset.mem_union.mp hc with old | new
    · rw [value, if_neg fun new => (h.found c old).1 new.1]
      exact h.values c old
    · obtain ⟨mem, basic, same⟩ := mem_newCells.mp new
      rw [value, if_pos ⟨mem, basic⟩, same]
      exact .inl rfl
  · have apart : Disjoint E (newCells cell f j) :=
      Finset.disjoint_left.mpr fun c old new => (h.found c old).1 (mem_newCells.mp new).1
    have nodup : (f.u0.filter (cell · j)).Nodup := (List.nodup_append.mp h.rows_nodup).1.filter _
    have card := h.card
    rw [Finset.card_union_of_disjoint apart, newCells, Finset.card_map,
      List.toFinset_card_of_nodup nodup]
    simp only [NBody.useCol, unfound]
    omega
  · have used := h.rows_used
    simp only [NBody.useCol, unfound, found, List.length_append, List.length_reverse]
    omega
  · have used := h.cols_used
    rw [head, List.length_cons] at used
    simp only [NBody.useCol]
    omega
  · intro i i_lt not_u0 not_u1
    have old : i ∉ f.u0 ++ f.u1 := fun mem =>
      (List.mem_append.mp (rows_perm.mem_iff.mpr mem)).elim not_u0 not_u1
    rw [List.mem_append, not_or] at old
    exact h.rows_closed i i_lt old.1 old.2
  · intro j' j'_lt not_v0 not_v1 i mem
    by_cases same : j' = j
    · rw [same]
      exact (u0_sub i mem).2
    · refine h.cols_closed j' j'_lt not_v0 ?_ i (u0_sub i mem).1
      rw [head, List.mem_cons, not_or]
      exact ⟨same, not_v1⟩
  · intro i i_lt not_u0
    by_cases old : i ∈ f.u0
    · have basic : cell i j = true := by
        by_contra off
        refine not_u0 ?_
        simp only [NBody.useCol, unfound, List.mem_filter]
        exact ⟨old, by simp [off]⟩
      exact pass i i_lt j j_lt basic (h.cols_reached j j_lt j_found)
    · exact h.rows_reached i i_lt old

theorem Finding.useCols (pass : ∀ i < m, ∀ j < n, cell i j = true → col j → row i)
    (marked : List ℕ) (h : Finding m n cell cost row col f E) (head : f.v1 = marked) :
    ∃ E', Finding m n cell cost row col (useCols cell cost marked f) E' ∧
      (NBody.useCols cell cost marked f).v1 = [] ∧
      (NBody.useCols cell cost marked f).v_cfound = f.v_cfound + marked.length ∧
      (NBody.useCols cell cost marked f).u_cfound = f.u_cfound := by
  induction marked generalizing f E with
  | nil => exact ⟨E, h, head, rfl, rfl⟩
  | cons j marked ih =>
      obtain ⟨E', finding, empty, cols, rows⟩ := ih (h.useCol pass head) rfl
      refine ⟨E', finding, empty, cols.trans ?_, rows⟩
      simp only [NBody.useCol, List.length_cons]
      omega

variable {state : EMDState R}

theorem emdFindRows_spec
    (pass : ∀ i < m, ∀ j < n, state.is_x i j = true → col j → row i)
    (h : Finding m n state.is_x state.cost row col f E) :
    ∃ E', Finding m n state.is_x state.cost row col (emdFindRows state f) E' ∧
      (emdFindRows state f).v1 = [] ∧
      (emdFindRows state f).v_cfound = f.v_cfound + f.v1.length ∧
      (emdFindRows state f).u_cfound = f.u_cfound := by
  rw [emdFindRows_eq]
  exact h.useCols pass f.v1 rfl

theorem emdFindCols_spec
    (pass : ∀ i < m, ∀ j < n, state.is_x i j = true → row i → col j)
    (h : Finding m n state.is_x state.cost row col f E) :
    ∃ E', Finding m n state.is_x state.cost row col (emdFindCols state f) E' ∧
      (emdFindCols state f).u1 = [] ∧
      (emdFindCols state f).u_cfound = f.u_cfound + f.u1.length ∧
      (emdFindCols state f).v_cfound = f.v_cfound := by
  let flipped : EMDState R := { state with
    is_x := fun j i => state.is_x i j, cost := fun j i => state.cost i j }
  have pass' : ∀ j < n, ∀ i < m, flipped.is_x j i = true → row i → col j :=
    fun j hj i hi basic => pass i hi j hj basic
  obtain ⟨E', finding, empty, used, same⟩ : ∃ E',
      Finding n m flipped.is_x flipped.cost col row (emdFindRows flipped f.swap) E' ∧
        (emdFindRows flipped f.swap).v1 = [] ∧
        (emdFindRows flipped f.swap).v_cfound = f.u_cfound + f.u1.length ∧
        (emdFindRows flipped f.swap).u_cfound = f.v_cfound := emdFindRows_spec pass' h.swap
  rw [emdFindCols_eq]
  exact ⟨_, finding.swap, empty, used, same⟩

theorem emdFindCols_nil (empty : f.u1 = []) : emdFindCols state f = f := by
  obtain ⟨u, v, u0, u1, v0, v1, u_cfound, v_cfound⟩ := f
  subst empty
  rfl

theorem emdFindRound_spec
    (pass : ∀ i < state.ssize, ∀ j < state.dsize, state.is_x i j = true → (row i ↔ col j))
    (h : Finding state.ssize state.dsize state.is_x state.cost row col f E) :
    ∃ E', Finding state.ssize state.dsize state.is_x state.cost row col
        (emdFindRound state f).2 E' ∧
      ((emdFindRound state f).1 = true →
        f.u_cfound + f.v_cfound <
          (emdFindRound state f).2.u_cfound + (emdFindRound state f).2.v_cfound) ∧
      ((emdFindRound state f).1 = false →
        (emdFindRound state f).2.u1 = [] ∧ (emdFindRound state f).2.v1 = [] ∧
        (emdFindRound state f).2.u_cfound = f.u_cfound ∧
        (emdFindRound state f).2.v_cfound = f.v_cfound) := by
  have first : ∃ E' found f', (if f.v_cfound < state.dsize then
        (!f.v1.isEmpty, emdFindRows state f) else (false, f)) = (found, f') ∧
      Finding state.ssize state.dsize state.is_x state.cost row col f' E' ∧ f'.v1 = [] ∧
      f'.v_cfound = f.v_cfound + f.v1.length ∧ f'.u_cfound = f.u_cfound ∧
      found = !f.v1.isEmpty := by
    by_cases more : f.v_cfound < state.dsize
    · obtain ⟨E', finding, empty, used, same⟩ := emdFindRows_spec
        (fun i hi j hj basic => (pass i hi j hj basic).mpr) h
      exact ⟨E', _, _, if_pos more, finding, empty, used, same, rfl⟩
    · have used := h.cols_used
      have empty : f.v1 = [] := List.eq_nil_of_length_eq_zero (by omega)
      exact ⟨E, _, _, if_neg more, h, empty, by simp [empty], rfl, by simp [empty]⟩
  obtain ⟨E', found, f', run, finding, v1, v_cfound, u_cfound, any⟩ := first
  unfold emdFindRound
  rw [run]
  dsimp only
  by_cases more : f'.u_cfound < state.ssize
  · rw [if_pos more]
    obtain ⟨E'', finding', empty, used, same⟩ := emdFindCols_spec
      (fun i hi j hj basic => (pass i hi j hj basic).mp) finding
    refine ⟨E'', finding', ?_, ?_⟩
    · intro something
      have lines : f.v1 ≠ [] ∨ f'.u1 ≠ [] := by simpa [any] using something
      rw [used, same, u_cfound, v_cfound]
      rcases lines with lines | lines
      · have := List.length_pos_of_ne_nil lines
        omega
      · have := List.length_pos_of_ne_nil lines
        omega
    · intro nothing
      obtain ⟨noCols, noRows⟩ : f.v1 = [] ∧ f'.u1 = [] := by simpa [any] using nothing
      rw [emdFindCols_nil noRows]
      exact ⟨noRows, v1, u_cfound, by rw [v_cfound, noCols]; rfl⟩
  · rw [if_neg more]
    have used := finding.rows_used
    refine ⟨E', finding, ?_, ?_⟩
    · intro something
      have lines : f.v1 ≠ [] := by simpa [any] using something
      have := List.length_pos_of_ne_nil lines
      dsimp only
      omega
    · intro nothing
      have noCols : f.v1 = [] := by simpa [any] using nothing
      refine ⟨List.eq_nil_of_length_eq_zero ?_, v1, u_cfound, by rw [v_cfound, noCols]; rfl⟩
      dsimp only
      omega

theorem emdFindRounds_spec
    (pass : ∀ i < state.ssize, ∀ j < state.dsize, state.is_x i j = true → (row i ↔ col j))
    (k : ℕ) (enough : state.ssize + state.dsize < k + (f.u_cfound + f.v_cfound))
    (h : Finding state.ssize state.dsize state.is_x state.cost row col f E) :
    ∃ E', Finding state.ssize state.dsize state.is_x state.cost row col
        (emdFindRounds state k f).2 E' ∧ (emdFindRounds state k f).2.u1 = [] ∧
      (emdFindRounds state k f).2.v1 = [] ∧
      ((emdFindRounds state k f).1 = true ↔ (emdFindRounds state k f).2.u0 = [] ∧
        (emdFindRounds state k f).2.v0 = []) := by
  induction k generalizing f E with
  | zero =>
      have rows := h.rows_used
      have cols := h.cols_used
      omega
  | succ k ih =>
      rw [emdFindRounds]
      have rows := h.rows_used
      have cols := h.cols_used
      by_cases more : f.u_cfound < state.ssize ∨ f.v_cfound < state.dsize
      · rw [if_pos more]
        obtain ⟨E', finding, progress, stuck⟩ := emdFindRound_spec pass h
        cases found : (emdFindRound state f).1 with
        | true =>
            have less := progress found
            simp only [found, if_true]
            exact ih (by omega) finding
        | false =>
            obtain ⟨noRows, noCols, u_cfound, v_cfound⟩ := stuck found
            simp only [found, Bool.false_eq_true, if_false, false_iff]
            refine ⟨E', finding, noRows, noCols, ?_⟩
            rintro ⟨u0, v0⟩
            have rows' := finding.rows_used
            have cols' := finding.cols_used
            rw [u0, noRows, List.length_nil] at rows'
            rw [v0, noCols, List.length_nil] at cols'
            omega
      · rw [if_neg more]
        have all : f.u0 = [] ∧ f.v0 = [] ∧ f.u1 = [] ∧ f.v1 = [] := by
          simp only [← List.length_eq_zero_iff]
          omega
        obtain ⟨u0, v0, u1, v1⟩ := all
        exact ⟨E, h, u1, v1, fun _ => ⟨u0, v0⟩, fun _ => rfl⟩

end

/-! ## All values -/

section
variable {R : Type} {state : EMDState R}

def RowJoined (state : EMDState R) (cols : 0 < state.dsize) (i : ℕ) : Prop :=
  ∃ lt : i < state.ssize, (cellGraph state.ssize state.dsize state.is_x).Reachable
    (.inr ⟨0, cols⟩) (.inl ⟨i, lt⟩)

def ColJoined (state : EMDState R) (cols : 0 < state.dsize) (j : ℕ) : Prop :=
  ∃ lt : j < state.dsize, (cellGraph state.ssize state.dsize state.is_x).Reachable
    (.inr ⟨0, cols⟩) (.inr ⟨j, lt⟩)

theorem joined_iff (cols : 0 < state.dsize) (i : ℕ) (hi : i < state.ssize) (j : ℕ)
    (hj : j < state.dsize) (basic : state.is_x i j = true) :
    RowJoined state cols i ↔ ColJoined state cols j := by
  have adjacent := cellGraph_adj hi hj basic
  constructor
  · rintro ⟨lt, reach⟩
    exact ⟨hj, reach.trans adjacent.reachable⟩
  · rintro ⟨lt, reach⟩
    exact ⟨hi, reach.trans adjacent.symm.reachable⟩

theorem Finding.all_found {m n : ℕ} {cell : ℕ → ℕ → Bool} {cost : ℕ → ℕ → R} [Sub R]
    {row col : ℕ → Prop} {f : EMDFind R} {E : Finset (ℕ × ℕ)}
    (h : Finding m n cell cost row col f E) (u1 : f.u1 = []) (v1 : f.v1 = [])
    (connected : (cellGraph m n cell).Connected) : f.u0 = [] ∧ f.v0 = [] := by
  let P : Fin m ⊕ Fin n → Prop := Sum.elim (fun i => i.1 ∉ f.u0) (fun j => j.1 ∉ f.v0)
  have some_found : ∃ x, P x := by
    by_contra none
    rw [not_exists] at none
    have rows : List.range m ⊆ f.u0 := fun i hi => by
      simpa [P] using none (.inl ⟨i, List.mem_range.mp hi⟩)
    have cols : List.range n ⊆ f.v0 := fun j hj => by
      simpa [P] using none (.inr ⟨j, List.mem_range.mp hj⟩)
    have rows_le := (List.nodup_range.subperm rows).length_le
    have cols_le := (List.nodup_range.subperm cols).length_le
    rw [List.length_range] at rows_le cols_le
    have card := h.card
    omega
  obtain ⟨root, found⟩ := some_found
  have all := forall_of_closed connected found
    (fun i j basic unfound mem => by
      have off := h.rows_closed i i.2 unfound (by rw [u1]; exact List.not_mem_nil) j mem
      rw [basic] at off
      cases off)
    (fun i j basic unfound mem => by
      have off := h.cols_closed j j.2 unfound (by rw [v1]; exact List.not_mem_nil) i mem
      rw [basic] at off
      cases off)
  constructor
  · refine List.eq_nil_iff_forall_not_mem.mpr fun i mem => ?_
    exact all (.inl ⟨i, h.rows_lt i (List.mem_append_left _ mem)⟩) mem
  · refine List.eq_nil_iff_forall_not_mem.mpr fun j mem => ?_
    exact all (.inr ⟨j, h.cols_lt j (List.mem_append_left _ mem)⟩) mem

variable [Zero R] [Sub R]

/-- The search at its start, where only the first column is found. -/
def EMDFind.start (state : EMDState R) : EMDFind R where
  u := state.u
  v := update state.v 0 0
  u0 := List.range state.ssize
  u1 := []
  v0 := List.range' 1 (state.dsize - 1)
  v1 := [0]
  u_cfound := 0
  v_cfound := 0

theorem mem_columns {n j : ℕ} : j ∈ List.range' 1 (n - 1) ↔ j ≠ 0 ∧ j < n := by
  rw [List.mem_range'_1]
  omega

theorem Finding.start (cols : 0 < state.dsize) :
    Finding state.ssize state.dsize state.is_x state.cost (RowJoined state cols)
      (ColJoined state cols) (.start state) ∅ where
  rows_nodup := by simpa [EMDFind.start] using List.nodup_range
  cols_nodup := by
    refine List.Nodup.append List.nodup_range' (List.nodup_singleton 0) ?_
    intro j mem zero
    exact (mem_columns.mp mem).1 (List.mem_singleton.mp zero)
  rows_lt := fun i mem => by simpa [EMDFind.start] using mem
  cols_lt := fun j mem => by
    rcases List.mem_append.mp mem with mem | mem
    · exact (mem_columns.mp mem).2
    · rw [List.mem_singleton.mp mem]
      exact cols
  marked := Finset.empty_subset _
  found := fun c hc => absurd hc (Finset.notMem_empty c)
  values := fun c hc => absurd hc (Finset.notMem_empty c)
  card := by
    simp only [EMDFind.start, Finset.card_empty, List.length_range, List.length_range']
    omega
  rows_used := by simp [EMDFind.start]
  cols_used := by
    simp only [EMDFind.start, List.length_singleton, List.length_range']
    omega
  rows_closed := fun i lt unfound => absurd (List.mem_range.mpr lt) unfound
  cols_closed := fun j lt unfound used => by
    have zero : j ≠ 0 := fun zero => used (List.mem_singleton.mpr zero)
    exact absurd (mem_columns.mpr ⟨zero, lt⟩) unfound
  rows_reached := fun i lt unfound => absurd (List.mem_range.mpr lt) unfound
  cols_reached := fun j lt unfound => by
    have zero : j = 0 := by
      by_contra zero
      exact unfound (mem_columns.mpr ⟨zero, lt⟩)
    subst zero
    exact ⟨cols, .refl _⟩

theorem emdFindBasicVariables_spec (cols : 0 < state.dsize) :
    ∃ E f, emdFindBasicVariables state =
        ((emdFindBasicVariables state).1, { state with u := f.u, v := f.v }) ∧
      Finding state.ssize state.dsize state.is_x state.cost (RowJoined state cols)
        (ColJoined state cols) f E ∧ f.u1 = [] ∧ f.v1 = [] ∧
      ((emdFindBasicVariables state).1 = true ↔ f.u0 = [] ∧ f.v0 = []) := by
  obtain ⟨E, finding, u1, v1, all⟩ := emdFindRounds_spec (joined_iff cols)
    (state.ssize + state.dsize + 1) (by simp only [EMDFind.start]; omega) (Finding.start cols)
  exact ⟨E, _, rfl, finding, u1, v1, all⟩

theorem emdFindBasicVariables_iff (cols : 0 < state.dsize) :
    (emdFindBasicVariables state).1 = true ↔
      (cellGraph state.ssize state.dsize state.is_x).Connected := by
  obtain ⟨E, f, -, finding, u1, v1, all⟩ := emdFindBasicVariables_spec cols
  rw [all]
  refine ⟨fun none => ?_, finding.all_found u1 v1⟩
  refine connected_of_root (.inr ⟨0, cols⟩) fun x => ?_
  rcases x with i | j
  · exact (finding.rows_reached i i.2 (by rw [none.1]; exact List.not_mem_nil)).2
  · exact (finding.cols_reached j j.2 (by rw [none.2]; exact List.not_mem_nil)).2

end

theorem emdFindBasicVariables_cost {F : Type} [AddCommGroup F] {state : EMDState F}
    (cols : 0 < state.dsize) (found : (emdFindBasicVariables state).1 = true)
    (card : (markedCells state.ssize state.dsize state.is_x).card + 1 =
      state.ssize + state.dsize) {i j : ℕ} (hi : i < state.ssize) (hj : j < state.dsize)
    (basic : state.is_x i j = true) :
    state.cost i j =
      (emdFindBasicVariables state).2.u i + (emdFindBasicVariables state).2.v j := by
  obtain ⟨E, f, eq, finding, -, -, all⟩ := emdFindBasicVariables_spec cols
  obtain ⟨u0, v0⟩ := all.mp found
  have count := finding.card
  rw [u0, v0, List.length_nil] at count
  have every : E = markedCells state.ssize state.dsize state.is_x :=
    Finset.eq_of_subset_of_card_le finding.marked (by omega)
  have mem : (i, j) ∈ E := by
    rw [every, mem_markedCells]
    exact ⟨hi, hj, basic⟩
  rw [eq]
  have value := finding.values (i, j) mem
  dsimp only at value ⊢
  rcases value with value | value
  · rw [value, sub_add_cancel]
  · rw [value, add_sub_cancel]

end MilkyWay.NBody
