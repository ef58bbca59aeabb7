import MilkyWay.NBody.EmdCycle

/-! The search for the loop of an entering cell in its array, with the marks of the nodes
used. A place outside the arrays fails. -/

namespace MilkyWay.NBody

open Foundation Function

/-- The nodes of the loop so far and their number, the marks, and the last node. -/
structure EMDLoop where
  loop : ℕ → ℕ
  steps : ℕ
  is_used : ℕ → Bool
  new_x : ℕ

def emdNextUnused (size : ℕ) (next : ℕ → Option ℕ) (pass : ℕ → Bool) :
    ℕ → Option ℕ → Option (Option ℕ)
  | 0, _ => none
  | _ + 1, none => some none
  | fuel + 1, some k =>
      if size ≤ k then none
      else if pass k then emdNextUnused size next pass fuel (next k) else some (some k)

section
variable {R : Type}

namespace EMDLoop

def push (size : ℕ) (search : EMDLoop) (x : ℕ) : Option EMDLoop :=
  if search.steps < size then
    some ⟨update search.loop search.steps x, search.steps + 1, update search.is_used x true, x⟩
  else none

open Foundation.Numerals in
/-- The steps and marks after the last nodes without another one in their lists, and the
next node in the list of the one before. Without any node left, what is read next stands
before the start of the array. -/
def leave (fuel size : ℕ) (x : ℕ → EMDNode2D R) (loop : ℕ → ℕ) :
    ℕ → (ℕ → Bool) → Option (ℕ × (ℕ → Bool) × ℕ)
  | 0, _ => none
  | steps + 1, is_used =>
      let i : Fin 2 := if (steps + 1) % 2 = 1 then 1 else 0
      if size ≤ steps then none
      else
        let cur := loop steps
        match emdNextUnused size (fun a => (x a).next i) is_used fuel ((x cur).next i) with
        | none => none
        | some none => leave fuel size x loop steps (update is_used cur false)
        | some (some new_x) =>
            some (steps + 1, update (update is_used cur false) new_x true, new_x)

def backtrack (fuel size : ℕ) (x : ℕ → EMDNode2D R) (search : EMDLoop) : Option EMDLoop :=
  (leave fuel size x search.loop search.steps search.is_used).map fun (steps, is_used, new_x) =>
    ⟨update search.loop (steps - 1) new_x, steps, is_used, new_x⟩

open Foundation.Numerals in
def emdFindLoopTurn (fuel : ℕ) (state : EMDState R) : Turn EMDLoop EMDLoop := fun search =>
  let size := state.ssize + state.dsize
  if search.steps % 2 = 1 then
    -- find an unused x in the row
    match emdNextUnused size (fun a => (state.x a).next 0) search.is_used fuel
      (state.rows_x (state.x search.new_x).i) with
    | none => none
    | some (some new_x) => (search.push size new_x).map .inl
    | some none => (search.backtrack fuel size state.x).map .inl
  else
    -- find an unused x in the column, or the entering x
    match emdNextUnused size (fun a => (state.x a).next 1)
      (fun a => search.is_used a && a != state.enter_x) fuel
      (state.cols_x (state.x search.new_x).j) with
    | none => none
    | some (some new_x) =>
        if new_x = state.enter_x then some (.inr search) else (search.push size new_x).map .inl
    | some none => (search.backtrack fuel size state.x).map .inl

/-- The number of steps, and the array with the loop. -/
def emdFindLoop (fuel : ℕ) (state : EMDState R) (loop : ℕ → ℕ) : Option (ℕ × (ℕ → ℕ)) :=
  if state.enter_x < state.ssize + state.dsize then
    ((emdFindLoopTurn fuel state).run fuel ⟨update loop 0 state.enter_x, 1,
      update (fun _ => false) state.enter_x true, state.enter_x⟩).map
        fun search => (search.steps, search.loop)
  else none

end EMDLoop

/-! ## Walks -/

def LinksWithin (size : ℕ) (next : ℕ → Option ℕ) (p : Option ℕ) : Prop :=
  ∃ l, Foundation.Linked next p l ∧ ∀ a ∈ l, a < size

theorem emdNextUnused_eq {size : ℕ} {next : ℕ → Option ℕ} {p : Option ℕ}
    (inside : LinksWithin size next p) (pass : ℕ → Bool) (fuel : ℕ) :
    emdNextUnused size next pass fuel p = firstUnpassed next pass fuel p := by
  obtain ⟨l, linked, below⟩ := inside
  induction fuel generalizing p l with
  | zero => rfl
  | succ fuel ih =>
      cases l with
      | nil =>
          rw [linked]
          rfl
      | cons a l =>
          have stays : ¬size ≤ a := Nat.not_le.mpr (below a List.mem_cons_self)
          rw [linked.1, emdNextUnused, firstUnpassed, if_neg stays,
            ih l linked.2 fun b mem => below b (List.mem_cons_of_mem a mem)]

theorem emdNextUnused_some {size : ℕ} {next : ℕ → Option ℕ} {p : Option ℕ} {pass : ℕ → Bool}
    {fuel k : ℕ} (found : emdNextUnused size next pass fuel p = some (some k)) :
    k < size ∧ pass k = false := by
  induction fuel generalizing p with
  | zero => cases found
  | succ fuel ih =>
      cases p with
      | none => cases found
      | some a =>
          rw [emdNextUnused] at found
          by_cases outside : size ≤ a
          · rw [if_pos outside] at found
            cases found
          · rw [if_neg outside] at found
            cases passes : pass a with
            | true =>
                rw [passes, if_pos rfl] at found
                exact ih found
            | false =>
                rw [passes, if_neg Bool.false_ne_true] at found
                cases found
                exact ⟨Nat.not_le.mp outside, passes⟩

/-! ## The array and the stack -/

def stackOf (loop : ℕ → ℕ) : ℕ → List ℕ
  | 0 => []
  | n + 1 => loop n :: stackOf loop n

theorem stackOf_length (loop : ℕ → ℕ) (n : ℕ) : (stackOf loop n).length = n := by
  induction n with
  | zero => rfl
  | succ n ih => rw [stackOf, List.length_cons, ih]

theorem stackOf_update (loop : ℕ → ℕ) {n m : ℕ} (le : n ≤ m) (k : ℕ) :
    stackOf (update loop m k) n = stackOf loop n := by
  induction n with
  | zero => rfl
  | succ n ih =>
      rw [stackOf, stackOf, ih (Nat.le_of_succ_le le), update_of_ne (Nat.ne_of_lt le)]

theorem stackOf_reverse (loop : ℕ → ℕ) (n : ℕ) :
    (stackOf loop n).reverse = (List.range n).map loop := by
  induction n with
  | zero => rfl
  | succ n ih => rw [stackOf, List.reverse_cons, ih, List.range_succ, List.map_append]; rfl

structure Apart (size : ℕ) (p : List ℕ) : Prop where
  nodup : p.Nodup
  below : ∀ k ∈ p, k < size

theorem Apart.length_le {size : ℕ} {p : List ℕ} (h : Apart size p) : p.length ≤ size :=
  length_le_of_below h.nodup h.below

theorem Apart.cons {size : ℕ} {p : List ℕ} (h : Apart size p) {k : ℕ} (lt : k < size)
    (unused : k ∉ p) : Apart size (k :: p) := by
  refine ⟨List.nodup_cons.mpr ⟨unused, h.nodup⟩, fun a mem => ?_⟩
  rcases List.mem_cons.mp mem with rfl | mem
  · exact lt
  · exact h.below a mem

theorem Apart.tail {size : ℕ} {p : List ℕ} {k : ℕ} (h : Apart size (k :: p)) : Apart size p :=
  ⟨(List.nodup_cons.mp h.nodup).2, fun a mem => h.below a (List.mem_cons_of_mem k mem)⟩

structure EMDLoop.Holds (size : ℕ) (search : EMDLoop) (p : List ℕ) : Prop where
  stack : stackOf search.loop search.steps = p
  used : ∀ a, search.is_used a = p.contains a
  last : p.head? = some search.new_x
  apart : Apart size p

namespace EMDLoop

variable {size fuel : ℕ} {search : EMDLoop} {p : List ℕ}

theorem Holds.push (h : search.Holds size p) {k : ℕ} (lt : k < size) (unused : k ∉ p) :
    ∃ search', search.push size k = some search' ∧ search'.Holds size (k :: p) := by
  have apart := h.apart.cons lt unused
  have steps := stackOf_length search.loop search.steps
  rw [h.stack] at steps
  have room := apart.length_le
  rw [List.length_cons, steps] at room
  refine ⟨_, if_pos room, ?_, fun a => ?_, rfl, apart⟩
  · dsimp only
    rw [stackOf, update_self, stackOf_update _ (Nat.le_refl _), h.stack]
  · by_cases same : a = k
    · subst same
      simp
    · simp [same, h.used a]

theorem leave_eq {x : ℕ → EMDNode2D R}
    (inside : ∀ k < size, ∀ i, LinksWithin size (fun a => (x a).next i) ((x k).next i))
    {loop : ℕ → ℕ} {steps : ℕ} {is_used : ℕ → Bool} (stack : stackOf loop steps = p)
    (used : ∀ a, is_used a = p.contains a) (apart : Apart size p) {q : List ℕ}
    (back : emdBacktrack fuel x p = some q) :
    ∃ steps' is_used' new_x, leave fuel size x loop steps is_used =
        some (steps' + 1, is_used', new_x) ∧
      q = new_x :: stackOf loop steps' ∧ (∀ a, is_used' a = q.contains a) ∧ Apart size q := by
  induction p generalizing steps is_used with
  | nil => cases back
  | cons k p ih =>
      cases steps with
      | zero => cases stack
      | succ steps =>
          rw [stackOf, List.cons.injEq] at stack
          obtain ⟨last, stack⟩ := stack
          have length := stackOf_length loop steps
          rw [stack] at length
          have room := apart.length_le
          rw [List.length_cons, length] at room
          have marks : is_used = fun a => (k :: p).contains a := funext used
          have k_unused : k ∉ p := (List.nodup_cons.mp apart.nodup).1
          have unmarked : ∀ a, update is_used k false a = p.contains a := by
            intro a
            by_cases same : a = k
            · subst same
              simp [k_unused]
            · simp [same, used a]
          rw [emdBacktrack, length, ← marks] at back
          rw [leave, if_neg (Nat.not_le.mpr room)]
          dsimp only at back ⊢
          rw [last]
          have walk := emdNextUnused_eq (inside k (apart.below k List.mem_cons_self)
            (if (steps + 1) % 2 = 1 then 1 else 0)) is_used fuel
          cases found : emdNextUnused size
              (fun a => (x a).next (if (steps + 1) % 2 = 1 then 1 else 0)) is_used fuel
              ((x k).next (if (steps + 1) % 2 = 1 then 1 else 0)) with
          | none =>
              simp only [← walk, found] at back
              cases back
          | some first =>
              simp only [← walk, found] at back
              cases first with
              | none => exact ih stack unmarked apart.tail back
              | some new_x =>
                  cases back
                  obtain ⟨below, unused⟩ := emdNextUnused_some found
                  rw [used, List.contains_eq_mem, decide_eq_false_iff_not, List.mem_cons,
                    not_or] at unused
                  refine ⟨steps, _, new_x, rfl, by rw [stack], fun a => ?_,
                    apart.tail.cons below unused.2⟩
                  by_cases same : a = new_x
                  · subst same
                    simp
                  · simp [same, unmarked a]

theorem Holds.backtrack (h : search.Holds size p) {x : ℕ → EMDNode2D R}
    (inside : ∀ k < size, ∀ i, LinksWithin size (fun a => (x a).next i) ((x k).next i)) {q : List ℕ}
    (back : emdBacktrack fuel x p = some q) :
    ∃ search', search.backtrack fuel size x = some search' ∧ search'.Holds size q := by
  obtain ⟨steps, is_used, new_x, left, rfl, used, apart⟩ :=
    leave_eq inside h.stack h.used h.apart back
  rw [EMDLoop.backtrack, left]
  refine ⟨_, rfl, ?_, used, rfl, apart⟩
  dsimp only
  rw [stackOf, Nat.add_sub_cancel, update_self, stackOf_update _ (Nat.le_refl _)]

end EMDLoop

structure ListsInside (state : EMDState R) (size : ℕ) : Prop where
  rows : ∀ k < size, LinksWithin size (fun a => (state.x a).next 0) (state.rows_x (state.x k).i)
  cols : ∀ k < size, LinksWithin size (fun a => (state.x a).next 1) (state.cols_x (state.x k).j)
  next : ∀ k < size, ∀ i, LinksWithin size (fun a => (state.x a).next i) ((state.x k).next i)

namespace EMDLoop

/-- The search goes on from the same stack, or ends with the same loop. -/
abbrev Agrees (size : ℕ) : List ℕ ⊕ List ℕ → EMDLoop ⊕ EMDLoop → Prop :=
  Sum.LiftRel (fun q search => Holds size search q)
    fun loop search => loop = (List.range search.steps).map search.loop

theorem turn_related {state : EMDState R} (sizes : state.ssize + state.dsize = size)
    (inside : ListsInside state size) (h : search.Holds size p) {r : List ℕ ⊕ List ℕ}
    (turn : NBody.emdFindLoopTurn fuel state p = some r) :
    ∃ r', emdFindLoopTurn fuel state search = some r' ∧ Agrees size r r' := by
  cases p with
  | nil => cases turn
  | cons k p =>
      have last : k = search.new_x := Option.some.inj h.last
      subst last
      have lt := h.apart.below search.new_x List.mem_cons_self
      have length := stackOf_length search.loop search.steps
      rw [h.stack, List.length_cons] at length
      have marks : search.is_used = fun a => (search.new_x :: p).contains a := funext h.used
      have new : ∀ a, search.is_used a = false → a ∉ search.new_x :: p := fun a free mem => by
        rw [h.used a, List.contains_iff_mem.mpr mem] at free
        cases free
      have back : (emdBacktrack fuel state.x (search.new_x :: p)).map Sum.inl = some r →
          ∃ r', (search.backtrack fuel size state.x).map Sum.inl = some r' ∧
            Agrees size r r' := by
        intro left
        obtain ⟨q, backed, rfl⟩ := Option.map_eq_some_iff.mp left
        obtain ⟨search', run, holds⟩ := h.backtrack inside.next backed
        exact ⟨.inl search', by rw [run, Option.map_some], .inl holds⟩
      have push : ∀ k, k < size → k ∉ search.new_x :: p →
          ∃ r', (search.push size k).map Sum.inl = some r' ∧
            Agrees size (.inl (k :: search.new_x :: p)) r' := by
        intro k below unused
        obtain ⟨search', run, holds⟩ := h.push below unused
        exact ⟨.inl search', by rw [run, Option.map_some], .inl holds⟩
      rw [NBody.emdFindLoopTurn, length, ← marks] at turn
      rw [emdFindLoopTurn, sizes]
      by_cases odd : search.steps % 2 = 1
      · rw [if_pos odd] at turn ⊢
        have walk := emdNextUnused_eq (inside.rows search.new_x lt) search.is_used fuel
        cases found : emdNextUnused size (fun a => (state.x a).next 0) search.is_used fuel
            (state.rows_x (state.x search.new_x).i) with
        | none =>
            simp only [← walk, found] at turn
            cases turn
        | some first =>
            simp only [← walk, found] at turn
            cases first with
            | none => exact back turn
            | some k =>
                cases turn
                obtain ⟨below, unused⟩ := emdNextUnused_some found
                exact push k below (new k unused)
      · rw [if_neg odd] at turn ⊢
        have walk := emdNextUnused_eq (inside.cols search.new_x lt)
          (fun a => search.is_used a && a != state.enter_x) fuel
        cases found : emdNextUnused size (fun a => (state.x a).next 1)
            (fun a => search.is_used a && a != state.enter_x) fuel
            (state.cols_x (state.x search.new_x).j) with
        | none =>
            simp only [← walk, found] at turn
            cases turn
        | some first =>
            simp only [← walk, found] at turn
            cases first with
            | none => exact back turn
            | some k =>
                dsimp only at turn ⊢
                by_cases closes : k = state.enter_x
                · rw [if_pos closes] at turn ⊢
                  cases turn
                  refine ⟨_, rfl, .inr ?_⟩
                  rw [← h.stack, stackOf_reverse]
                · rw [if_neg closes] at turn ⊢
                  cases turn
                  obtain ⟨below, unused⟩ := emdNextUnused_some found
                  have free : search.is_used k = false := by simpa [closes] using unused
                  exact push k below (new k free)

theorem emdFindLoop_eq {state : EMDState R} (free : state.enter_x < state.ssize + state.dsize)
    (inside : ListsInside state (state.ssize + state.dsize)) (array : ℕ → ℕ) {loop : List ℕ}
    (found : NBody.emdFindLoop fuel state = some loop) :
    ∃ steps loop', emdFindLoop fuel state array = some (steps, loop') ∧
      loop = (List.range steps).map loop' := by
  have first : Holds (state.ssize + state.dsize) ⟨update array 0 state.enter_x, 1,
      update (fun _ => false) state.enter_x true, state.enter_x⟩ [state.enter_x] := by
    refine ⟨?_, fun a => ?_, rfl, List.nodup_singleton _, fun a mem => ?_⟩
    · dsimp only
      rw [stackOf, stackOf, update_self]
    · by_cases same : a = state.enter_x
      · subst same
        simp
      · simp [same]
    · rw [List.mem_singleton.mp mem]
      exact free
  rw [NBody.emdFindLoop] at found
  obtain ⟨search, run, same⟩ := Turn.run_related
    (fun q search => Holds (state.ssize + state.dsize) search q)
    (fun loop (search : EMDLoop) => loop = (List.range search.steps).map search.loop)
    (fun _ _ _ holds turn => turn_related rfl inside holds turn) first found
  refine ⟨search.steps, search.loop, ?_, same⟩
  rw [emdFindLoop, if_pos free, run, Option.map_some]

end EMDLoop

/-! ## The entering cell -/

theorem Entered.inside {state : EMDState R} {row col : ℕ → List ℕ}
    (lists : Entered state row col) : ListsInside state state.end_x := by
  have rows_below : ∀ k < state.end_x, ∀ a ∈ row (state.x k).i, a < state.end_x :=
    fun k lt a mem => ((lists.mem_row _ (lists.rows_lt k lt) a).mp mem).1
  have cols_below : ∀ k < state.end_x, ∀ a ∈ col (state.x k).j, a < state.end_x :=
    fun k lt a mem => ((lists.mem_col _ (lists.cols_lt k lt) a).mp mem).1
  have later : ∀ {next : ℕ → Option ℕ} {p : Option ℕ} {l : List ℕ} {k : ℕ},
      Foundation.Linked next p l → k ∈ l → (∀ a ∈ l, a < state.end_x) →
      LinksWithin state.end_x next (next k) := by
    intro next p l k linked mem below
    obtain ⟨before, rest, rfl⟩ := List.append_of_mem mem
    exact ⟨rest, linked.after, fun a mem => below a (by simp [mem])⟩
  refine ⟨fun k lt => ?_, fun k lt => ?_, fun k lt i => ?_⟩
  · exact ⟨_, lists.rows _ (lists.rows_lt k lt), rows_below k lt⟩
  · exact ⟨_, lists.cols _ (lists.cols_lt k lt), cols_below k lt⟩
  · have inRow := (lists.mem_row _ (lists.rows_lt k lt) k).mpr ⟨lt, rfl⟩
    have inCol := (lists.mem_col _ (lists.cols_lt k lt) k).mpr ⟨lt, rfl⟩
    fin_cases i
    · exact later (lists.rows _ (lists.rows_lt k lt)) inRow (rows_below k lt)
    · exact later (lists.cols _ (lists.cols_lt k lt)) inCol (cols_below k lt)

/-- The links lead through the basic nodes of each row and of each column. -/
structure EMDState.Listed (state : EMDState R) (row col : ℕ → List ℕ) : Prop where
  rows : ∀ i < state.ssize,
    Foundation.Linked (fun a => (state.x a).next 0) (state.rows_x i) (row i)
  cols : ∀ j < state.dsize,
    Foundation.Linked (fun a => (state.x a).next 1) (state.cols_x j) (col j)
  mem_row : ∀ i < state.ssize, ∀ k, k ∈ row i ↔ k ∈ state.basics ∧ (state.x k).i = i
  mem_col : ∀ j < state.dsize, ∀ k, k ∈ col j ↔ k ∈ state.basics ∧ (state.x k).j = j

variable {state : EMDState R} {row col : ℕ → List ℕ}

theorem linked_enter {next heads : ℕ → Option ℕ} {lists : ℕ → List ℕ} {n new line : ℕ}
    (linked : ∀ i < n, Foundation.Linked next (heads i) (lists i))
    (absent : ∀ i < n, new ∉ lists i) (lt : line < n) (i : ℕ) (hi : i < n) :
    Foundation.Linked (update next new (heads line)) (update heads line (some new) i)
      (update lists line (new :: lists line) i) := by
  by_cases same : i = line
  · subst same
    rw [update_self, update_self]
    refine ⟨rfl, ?_⟩
    rw [update_self]
    exact (linked i hi).update (absent i hi) _
  · rw [update_of_ne same, update_of_ne same]
    exact (linked i hi).update (absent i hi) _

theorem mem_enter (basis : state.Basis) {line : ℕ → ℕ} {lists : ℕ → List ℕ} {n : ℕ}
    (mem : ∀ i < n, ∀ k, k ∈ lists i ↔ k ∈ state.basics ∧ line k = i) (i : ℕ) (hi : i < n)
    (k : ℕ) :
    k ∈ update lists (line state.enter_x) (state.enter_x :: lists (line state.enter_x)) i ↔
      k < state.end_x ∧ line k = i := by
  by_cases same : i = line state.enter_x
  · subst same
    rw [update_self, List.mem_cons, mem _ hi, EMDState.mem_basics]
    constructor
    · rintro (rfl | ⟨⟨lt, -⟩, here⟩)
      · exact ⟨basis.free, rfl⟩
      · exact ⟨lt, here⟩
    · rintro ⟨lt, here⟩
      by_cases entering : k = state.enter_x
      · exact .inl entering
      · exact .inr ⟨⟨lt, entering⟩, here⟩
  · rw [update_of_ne same, mem i hi, EMDState.mem_basics]
    constructor
    · exact fun h => ⟨h.1.1, h.2⟩
    · rintro ⟨lt, here⟩
      refine ⟨⟨lt, fun entering => same ?_⟩, here⟩
      rw [← here, entering]

section
variable [Zero R]

@[simp] theorem emdEnter_i (k : ℕ) : ((emdEnter state).x k).i = (state.x k).i := by
  have rows : EMDNode2D.i ∘ (emdEnter state).x = EMDNode2D.i ∘ state.x :=
    (comp_update EMDNode2D.i state.x state.enter_x _).trans (update_eq_self _ _)
  exact congrFun rows k

@[simp] theorem emdEnter_j (k : ℕ) : ((emdEnter state).x k).j = (state.x k).j := by
  have cols : EMDNode2D.j ∘ (emdEnter state).x = EMDNode2D.j ∘ state.x :=
    (comp_update EMDNode2D.j state.x state.enter_x _).trans (update_eq_self _ _)
  exact congrFun cols k

theorem emdEnter_next_row : (fun a => ((emdEnter state).x a).next 0) =
    update (fun a => (state.x a).next 0) state.enter_x
      (state.rows_x (state.x state.enter_x).i) :=
  comp_update (fun node : EMDNode2D R => node.next 0) state.x state.enter_x _

theorem emdEnter_next_col : (fun a => ((emdEnter state).x a).next 1) =
    update (fun a => (state.x a).next 1) state.enter_x
      (state.cols_x (state.x state.enter_x).j) :=
  comp_update (fun node : EMDNode2D R => node.next 1) state.x state.enter_x _

theorem emdEnter_cellAt (k : ℕ) : (emdEnter state).cellAt k = state.cellAt k := by
  rw [EMDState.cellAt, EMDState.cellAt, emdEnter_i, emdEnter_j]

theorem EMDState.Listed.enter (lists : state.Listed row col) (basis : state.Basis)
    (hi : (state.x state.enter_x).i < state.ssize)
    (hj : (state.x state.enter_x).j < state.dsize) :
    Entered (emdEnter state)
      (update row (state.x state.enter_x).i (state.enter_x :: row (state.x state.enter_x).i))
      (update col (state.x state.enter_x).j
        (state.enter_x :: col (state.x state.enter_x).j)) where
  free := basis.free
  rows_lt k lt := by
    rw [emdEnter_i]
    by_cases same : k = state.enter_x
    · rw [same]
      exact hi
    · exact basis.rows k (EMDState.mem_basics.mpr ⟨lt, same⟩)
  cols_lt k lt := by
    rw [emdEnter_j]
    by_cases same : k = state.enter_x
    · rw [same]
      exact hj
    · exact basis.cols k (EMDState.mem_basics.mpr ⟨lt, same⟩)
  rows := by
    rw [emdEnter_next_row]
    refine linked_enter lists.rows (fun i hi mem => ?_) hi
    exact (EMDState.mem_basics.mp ((lists.mem_row i hi _).mp mem).1).2 rfl
  cols := by
    rw [emdEnter_next_col]
    refine linked_enter lists.cols (fun j hj mem => ?_) hj
    exact (EMDState.mem_basics.mp ((lists.mem_col j hj _).mp mem).1).2 rfl
  mem_row i hi k := by
    rw [emdEnter_i]
    exact mem_enter basis lists.mem_row i hi k
  mem_col j hj k := by
    rw [emdEnter_j]
    exact mem_enter basis lists.mem_col j hj k
  head := by
    change (update col _ _ ((emdEnter state).x state.enter_x).j).head? = _
    rw [emdEnter_j, update_self]
    rfl

theorem EMDState.Basis.spans (basis : state.Basis)
    (tree : (cellGraph state.ssize state.dsize state.is_x).IsTree) :
    Spans (emdEnter state) state.is_x where
  distinct k used k' used' same := by
    rw [emdEnter_cellAt, emdEnter_cellAt] at same
    exact basis.distinct k used k' used' same
  marked i hi j hj := by
    simp only [emdEnter_cellAt]
    exact basis.marked i hi j hj
  tree := tree

end

/-- For a basis whose cells span a tree and any cell that enters it, the search for the loop
ends within its arrays, with the only loop from that cell. -/
theorem emdFindLoop_correct [Zero R] {state : EMDState R} {row col : ℕ → List ℕ}
    (basis : state.Basis) (lists : state.Listed row col)
    (tree : (cellGraph state.ssize state.dsize state.is_x).IsTree)
    (hi : (state.x state.enter_x).i < state.ssize)
    (hj : (state.x state.enter_x).j < state.dsize) (array : ℕ → ℕ) :
    ∃ n, ∀ fuel, n ≤ fuel → ∃ steps loop,
      EMDLoop.emdFindLoop fuel (emdEnter state) array = some (steps, loop) ∧
      IsLoop (emdEnter state) ((List.range steps).map loop) ∧
      Simple (emdEnter state) ((List.range steps).map loop) ∧
      ∀ loop', IsLoop (emdEnter state) loop' → loop' = (List.range steps).map loop := by
  have entered := lists.enter basis hi hj
  obtain ⟨loop, n, runs, ⟨isLoop, simple⟩, only⟩ := emdFindLoop_spec (basis.spans tree) entered
  have sizes : (emdEnter state).end_x = (emdEnter state).ssize + (emdEnter state).dsize :=
    basis.count
  have inside := entered.inside
  have free := entered.free
  rw [sizes] at inside free
  refine ⟨n, fun fuel le => ?_⟩
  obtain ⟨steps, loop', run, same⟩ := EMDLoop.emdFindLoop_eq free inside array (runs fuel le)
  subst same
  exact ⟨steps, loop', run, isLoop, simple, only⟩

end

open Foundation.Numerals in
/-- Two rows and columns with the basic cells on and above the diagonal, which the cell below
it enters. -/
def upperBasis : EMDState ℤ :=
  { emdStart ⟨2, 2, fun _ _ => 0, some, some, 1, 0⟩ (fun _ => 0) fun _ => 0 with
    x := fun k => match k with
      | 0 => ⟨1, ![none, none], 0, 0⟩
      | 1 => ⟨1, ![some 0, none], 0, 1⟩
      | 2 => ⟨1, ![none, some 1], 1, 1⟩
      | _ => ⟨0, ![none, none], 1, 0⟩
    end_x := 4
    enter_x := 3
    is_x := fun i j => decide (i ≤ j)
    rows_x := ![some 1, some 2] ∘ Fin.ofNat 2
    cols_x := ![some 0, some 2] ∘ Fin.ofNat 2 }

theorem upperBasis_basis : upperBasis.Basis where
  free := by decide
  count := rfl
  rows := by decide
  cols := by decide
  distinct := by decide
  marked := by decide

theorem upperBasis_tree :
    (cellGraph upperBasis.ssize upperBasis.dsize upperBasis.is_x).IsTree := by
  refine cellGraph_isTree_iff.mpr ⟨?_, by decide⟩
  have first : (cellGraph 2 2 upperBasis.is_x).Adj (.inr 0) (.inl 0) := rfl
  have upper : (cellGraph 2 2 upperBasis.is_x).Adj (.inl 0) (.inr 1) := rfl
  have last : (cellGraph 2 2 upperBasis.is_x).Adj (.inr 1) (.inl 1) := rfl
  have joined := first.reachable.trans upper.reachable
  change (cellGraph 2 2 upperBasis.is_x).Connected
  refine connected_of_root (.inr 0) fun x => ?_
  rcases x with i | j
  · fin_cases i
    · exact first.reachable
    · exact joined.trans last.reachable
  · fin_cases j
    · exact .refl _
    · exact joined

theorem upperBasis_listed :
    upperBasis.Listed (fun i => if i = 0 then [1, 0] else [2])
      fun j => if j = 0 then [0] else [2, 1] := by
  have basics : ∀ k, k ∈ upperBasis.basics ↔ k = 0 ∨ k = 1 ∨ k = 2 := by
    intro k
    rw [EMDState.mem_basics]
    change k < 4 ∧ k ≠ 3 ↔ _
    omega
  have two : ∀ i < 2, i = 0 ∨ i = 1 := fun i hi => by omega
  refine ⟨fun i hi => ?_, fun j hj => ?_, fun i hi k => ?_, fun j hj k => ?_⟩
  · rcases two i hi with rfl | rfl
    · exact ⟨rfl, rfl, rfl⟩
    · exact ⟨rfl, rfl⟩
  · rcases two j hj with rfl | rfl
    · exact ⟨rfl, rfl⟩
    · exact ⟨rfl, rfl, rfl⟩
  · rw [basics]
    by_cases small : k = 0 ∨ k = 1 ∨ k = 2
    · rcases small with rfl | rfl | rfl <;> rcases two i hi with rfl | rfl <;> decide
    · refine iff_of_false (fun mem => small ?_) fun h => small h.1
      rcases two i hi with rfl | rfl <;> simp at mem <;> omega
  · rw [basics]
    by_cases small : k = 0 ∨ k = 1 ∨ k = 2
    · rcases small with rfl | rfl | rfl <;> rcases two j hj with rfl | rfl <;> decide
    · refine iff_of_false (fun mem => small ?_) fun h => small h.1
      rcases two j hj with rfl | rfl <;> simp at mem <;> omega

/-- The loop from the entering cell takes the other three. -/
theorem emdFindLoop_upperBasis :
    ∃ n, ∀ fuel, n ≤ fuel → ∃ steps loop,
      EMDLoop.emdFindLoop fuel (emdEnter upperBasis) (fun _ => 0) = some (steps, loop) ∧
      (List.range steps).map loop = [3, 2, 1, 0] := by
  obtain ⟨n, runs⟩ := emdFindLoop_correct upperBasis_basis upperBasis_listed upperBasis_tree
    (by decide) (by decide) (fun _ => 0)
  refine ⟨n, fun fuel le => ?_⟩
  obtain ⟨steps, loop, run, -, -, only⟩ := runs fuel le
  have isLoop : IsLoop (emdEnter upperBasis) [3, 2, 1, 0] :=
    ⟨rfl, by decide, by decide, rfl, rfl, rfl, rfl, trivial⟩
  exact ⟨steps, loop, run, (only _ isLoop).symm⟩

end MilkyWay.NBody
