import MilkyWay.Foundation.Upper
import MilkyWay.NBody.SummationLaunchesCL

/-! The kernel `sort` by the accesses of its work-items. An item goes through its cells from the
root down and hands the number of the first body on to the children of those that have one. A cell
whose number has not arrived is left to the next launch; in the end `_sort` lists the bodies in the
order of the tree. -/

namespace MilkyWay.NBody

open Foundation Foundation.Octree

/-- The arrays, with `_sort`. -/
structure SortMemory (R : Type) where
  tree : TreeMemory R
  sort : ℕ → ℕ

inductive SortPc where
  | check
  | slot (i : ℕ)
  | setStart (i d : ℕ)
  | addCount (i d : ℕ)
  | place (i b : ℕ)
  | done
deriving DecidableEq

structure SortItem where
  pc : SortPc
  k : ℤ
  start : ℤ

variable {R : Type}

def sortStep (l : PassLaunch) (m : SortMemory R) (it : SortItem) : SortMemory R × SortItem :=
  let node := m.tree.nodes it.k.toNat
  match it.pc with
  | .check =>
      if (m.tree.bottom : ℤ) ≤ it.k then
        if 0 ≤ node.start then (m, { it with pc := .slot 0, start := node.start })
        else (m, { it with k := it.k - l.items })
      else (m, { it with pc := .done })
  | .slot i =>
      if i < 8 then
        match node.child (slotNumber i) with
        | .cell d => (m, { it with pc := .setStart i d })
        | .body b => (m, { it with pc := .place i b })
        | _ => (m, { it with pc := .slot (i + 1) })
      else (m, { it with pc := .check, k := it.k - l.items })
  | .setStart i d =>
      ({ m with tree := m.tree.setNode d { m.tree.nodes d with start := it.start } },
        { it with pc := .addCount i d })
  | .addCount i d =>
      (m, { it with pc := .slot (i + 1), start := it.start + (m.tree.nodes d).count })
  | .place i b =>
      ({ m with sort := Function.update m.sort it.start.toNat b },
        { it with pc := .slot (i + 1), start := it.start + 1 })
  | .done => (m, it)

def sortFirst (l : PassLaunch) (w : ℕ) : ℤ := l.NNODE + 1 - l.items + w

def sortStart (l : PassLaunch) (m : SortMemory R) : Crew (SortMemory R) SortItem :=
  ⟨m, fun w => ⟨.check, sortFirst l w, 0⟩⟩

/-- The kernel in the order of `order`, when all items have ended. -/
def sort (l : PassLaunch) (m : SortMemory R) (order : List (Fin l.items)) :
    Option (SortMemory R) :=
  let s := (sortStart l m).steps (sortStep l) order
  if ∀ w : Fin l.items, (s.workers w).pc = .done then some s.mem else none

def sortLaunches (l : PassLaunch) (orders : List (List (Fin l.items))) (m : SortMemory R) :
    Option (SortMemory R) :=
  orders.foldlM (sort l) m

/-! ## The invariant -/

theorem drop_front (row : Fin 8 → SlotCL) {i : ℕ} (inside : i < 8) :
    (front row 8).drop i = row (slotNumber i) :: (front row 8).drop (i + 1) := by
  have length : i < (front row 8).length := by
    rw [front, List.length_map, List.length_range]
    exact inside
  rw [List.drop_eq_getElem_cons length]
  congr 1
  simp [front]

/-- What a launch begins with: the tree in the arrays, summed up, and the cells that have a
number. -/
structure SortPass (R : Type) where
  l : PassLaunch
  nodes : ℕ → NodeCL R
  bottom : ℕ
  T : Octree ℕ ℕ
  before : ℕ → Prop

namespace SortPass

variable (P : SortPass R)

/-- What is known of the arrays: their slots are those of the tree, moved to the front, and the
bodies below each cell have been counted. -/
structure Ready (rows : ℕ → Fin 8 → SlotCL) : Prop where
  device : OnDevice P.l P.bottom rows P.T
  order : ∀ c ∈ P.T.cells, children (P.nodes c).child = children (rows c)
  clean : ∀ c ∈ P.T.cells, Clean (P.nodes c).child
  count : ∀ c ∈ P.T.cells, (P.nodes c).count = (P.T.under c).length
  items : 0 < P.l.items

def From (s : ℤ) (bs : List ℕ) : Prop := bs <+: P.T.leaves.drop s.toNat

def Settled (m : SortMemory R) : SlotCL → Prop
  | .cell d => 0 ≤ (m.tree.nodes d).start
  | .body b => ∃ s, P.T.leaves[s]? = some b ∧ m.sort s = b
  | _ => True

structure Kept (m : SortMemory R) : Prop where
  same : ∀ n, ∃ s, m.tree.nodes n = { P.nodes n with start := s }
  bottom : m.tree.bottom = P.bottom
  starts : ∀ c ∈ P.T.cells, 0 ≤ (m.tree.nodes c).start → P.From (m.tree.nodes c).start (P.T.under c)
  earlier : ∀ c, P.before c → 0 ≤ (m.tree.nodes c).start

def Grows (m m' : SortMemory R) : Prop := ∀ ch, P.Settled m ch → P.Settled m' ch

/-- The bodies below the slots from `i` on. -/
def rest (row : Fin 8 → SlotCL) (i : ℕ) : List ℕ := ((front row 8).drop i).flatMap (childBodies P.T)

structure Stands (m : SortMemory R) (k i : ℕ) (start : ℤ) : Prop where
  le : i ≤ 8
  some : 0 ≤ start
  from_ : P.From start (P.rest (P.nodes k).child i)
  settled : ∀ j < i, P.Settled m ((P.nodes k).child (slotNumber j))

def Holds (m : SortMemory R) (k : ℕ) (it : SortItem) : Prop :=
  match it.pc with
  | .check => True
  | .slot i => P.Stands m k i it.start
  | .setStart i d => i < 8 ∧ (P.nodes k).child (slotNumber i) = .cell d ∧ P.Stands m k i it.start
  | .addCount i d => i < 8 ∧ (P.nodes k).child (slotNumber i) = .cell d ∧
      P.Stands m k i it.start ∧ P.Settled m (.cell d)
  | .place i b => i < 8 ∧ (P.nodes k).child (slotNumber i) = .body b ∧ P.Stands m k i it.start
  | .done => False

def mine (w n : ℕ) : Prop :=
  w < P.l.items ∧ P.bottom ≤ n ∧ n ≤ P.l.NNODE ∧ ∃ t : ℕ, (n : ℤ) = sortFirst P.l w - t * P.l.items

/-- The children of a cell have their numbers and places. -/
def Finished (m : SortMemory R) (n : ℕ) : Prop := ∀ i, P.Settled m ((P.nodes n).child i)

structure Passing (w : ℕ) (m : SortMemory R) (it : SortItem) : Prop where
  place : ∃ t : ℕ, it.k = sortFirst P.l w - t * P.l.items
  behind : ∀ n, P.mine w n → it.k < n → P.before n → P.Finished m n
  here : (P.bottom : ℤ) ≤ it.k → P.Holds m it.k.toNat it
  ended : it.k < P.bottom → it.pc = .check ∨ it.pc = .done

variable {P}

theorem From.split {s : ℤ} {bs cs : List ℕ} (some : 0 ≤ s) (h : P.From s (bs ++ cs)) :
    P.From s bs ∧ P.From (s + bs.length) cs := by
  obtain ⟨more, whole⟩ := h
  refine ⟨⟨cs ++ more, by rw [← List.append_assoc, whole]⟩, more, ?_⟩
  have place : (s + bs.length).toNat = s.toNat + bs.length := by omega
  rw [place, ← List.drop_drop, ← whole, List.append_assoc, List.drop_left]

theorem From.body {s : ℤ} {b : ℕ} (h : P.From s [b]) : P.T.leaves[s.toNat]? = some b := by
  obtain ⟨more, whole⟩ := h
  have first : (P.T.leaves.drop s.toNat)[0]? = some b := by
    rw [← whole]
    rfl
  rwa [List.getElem?_drop, Nat.add_zero] at first

theorem rest_succ (row : Fin 8 → SlotCL) {i : ℕ} (inside : i < 8) :
    P.rest row i = childBodies P.T (row (slotNumber i)) ++ P.rest row (i + 1) := by
  rw [rest, drop_front row inside, List.flatMap_cons, rest]

theorem Ready.child_mem {rows : ℕ → Fin 8 → SlotCL} (ready : P.Ready rows) {w k d i : ℕ}
    (mine : P.mine w k) (slot : (P.nodes k).child (slotNumber i) = .cell d) : d ∈ P.T.cells := by
  have mem := (ready.device.cells k).mp ⟨mine.2.1, mine.2.2.1⟩
  have child : SlotCL.cell d ∈ children (rows k) := by
    rw [← ready.order k mem]
    exact mem_children.mpr ⟨rfl, _, slot⟩
  exact ready.device.cell_mem mem child

/-! ## One step -/

variable {rows : ℕ → Fin 8 → SlotCL} {m m' : SortMemory R} {it it' : SortItem} {w : ℕ}

theorem Stands.grow {k i : ℕ} {start : ℤ} (h : P.Stands m k i start) (grows : P.Grows m m') :
    P.Stands m' k i start :=
  ⟨h.le, h.some, h.from_, fun j hj => grows _ (h.settled j hj)⟩

theorem Holds.grow {k : ℕ} (h : P.Holds m k it) (grows : P.Grows m m') : P.Holds m' k it := by
  obtain ⟨pc, place, start⟩ := it
  cases pc with
  | check => trivial
  | slot i => exact Stands.grow h grows
  | setStart i d => exact ⟨h.1, h.2.1, h.2.2.grow grows⟩
  | addCount i d => exact ⟨h.1, h.2.1, h.2.2.1.grow grows, grows _ h.2.2.2⟩
  | place i b => exact ⟨h.1, h.2.1, h.2.2.grow grows⟩
  | done => exact h

theorem Passing.stable (h : P.Passing w m it) (grows : P.Grows m m') : P.Passing w m' it :=
  ⟨h.place, fun n mine lt before i => grows _ (h.behind n mine lt before i),
    fun le => (h.here le).grow grows, h.ended⟩

/-- What a step keeps. -/
def Keeps (P : SortPass R) (w : ℕ) (m m' : SortMemory R) (it' : SortItem) : Prop :=
  P.Passing w m' it' ∧ P.Kept m' ∧ P.Grows m m'

theorem Passing.stay (h : P.Passing w m it) (le : (P.bottom : ℤ) ≤ it.k) (grows : P.Grows m m')
    (same : it'.k = it.k) (here : P.Holds m' it.k.toNat it') : P.Passing w m' it' := by
  refine ⟨by rw [same]; exact h.place, fun n mine lt before i => ?_, fun _ => ?_, fun lt => ?_⟩
  · rw [same] at lt
    exact grows _ (h.behind n mine lt before i)
  · rw [same]
    exact here
  · omega

theorem Passing.quiet (h : P.Passing w m it) (all : P.Kept m) (le : (P.bottom : ℤ) ≤ it.k)
    (same : it'.k = it.k) (here : P.Holds m it.k.toNat it') : P.Keeps w m m it' :=
  ⟨h.stay le (fun _ => id) same here, all, fun _ => id⟩

theorem Passing.inside (h : P.Passing w m it) (check : it.pc ≠ .check) (done : it.pc ≠ .done) :
    (P.bottom : ℤ) ≤ it.k :=
  not_lt.mp fun lt => (h.ended lt).elim check done

theorem Passing.mine (h : P.Passing w m it) (hw : w < P.l.items) (le : (P.bottom : ℤ) ≤ it.k) :
    P.mine w it.k.toNat := by
  obtain ⟨t, place⟩ := h.place
  have positive : 0 ≤ (t : ℤ) * P.l.items := by positivity
  have first : sortFirst P.l w ≤ P.l.NNODE := by
    rw [sortFirst]
    omega
  refine ⟨hw, by omega, by omega, t, ?_⟩
  rw [← place]
  omega

theorem Passing.advance (h : P.Passing w m it) (all : P.Kept m) (ready : P.Ready rows)
    (check : it'.pc = .check)
    (next : it'.k = it.k - P.l.items)
    (finished : P.before it.k.toNat → P.Finished m it.k.toNat) : P.Keeps w m m it' := by
  obtain ⟨t, place⟩ := h.place
  refine ⟨⟨⟨t + 1, ?_⟩, fun n mine lt before => ?_, fun _ => ?_, fun _ => .inl check⟩, all,
    fun _ => id⟩
  · rw [next, place]
    push_cast
    ring
  · by_cases here : (n : ℤ) = it.k
    · have same : n = it.k.toNat := by omega
      rw [same] at before ⊢
      exact finished before
    · refine h.behind n mine ?_ before
      obtain ⟨-, -, -, u, there⟩ := mine
      -- there is no cell of the item between this one and the next
      have items : (0 : ℤ) < P.l.items := by exact_mod_cast ready.items
      have less : (u : ℤ) * P.l.items < (t + 1) * P.l.items := by
        rw [add_mul, one_mul]
        omega
      have le : (u : ℤ) < t + 1 := lt_of_mul_lt_mul_right less items.le
      have ne : (u : ℤ) ≠ t := by
        rintro same
        rw [there, place, same] at here
        exact here rfl
      have more : (u : ℤ) * P.l.items < t * P.l.items :=
        mul_lt_mul_of_pos_right (by omega) items
      omega
  · rw [Holds, check]
    trivial

theorem Passing.step_check (h : P.Passing w m it) (all : P.Kept m) (ready : P.Ready rows)
    (hw : w < P.l.items) (pc : it.pc = .check) :
    P.Keeps w m (sortStep P.l m it).1 (sortStep P.l m it).2 := by
  rw [sortStep, pc]
  dsimp only
  rw [all.bottom]
  split
  · next le =>
      obtain ⟨-, lower, upper, -⟩ := h.mine hw le
      have mem := (ready.device.cells _).mp ⟨lower, upper⟩
      split
      · next some =>
          refine h.quiet all le rfl ⟨Nat.zero_le _, some, ?_, fun j hj => ?_⟩
          · have whole := all.starts _ mem some
            rw [ready.device.under_eq mem, ← ready.order _ mem] at whole
            rw [rest, List.drop_zero, flatMap_children]
            exact whole
          · omega
      · next none =>
          exact h.advance all ready rfl rfl fun before => absurd (all.earlier _ before) none
  · next beyond =>
      refine ⟨⟨h.place, h.behind, fun le => absurd le beyond, fun _ => .inr rfl⟩, all, fun _ => id⟩

theorem Stands.next {k i : ℕ} {start : ℤ} (h : P.Stands m k i start) (inside : i < 8)
    (settled : P.Settled m ((P.nodes k).child (slotNumber i))) :
    P.Stands m k (i + 1)
      (start + (childBodies P.T ((P.nodes k).child (slotNumber i))).length) := by
  have bodies := h.from_
  have some := h.some
  rw [rest_succ _ inside] at bodies
  refine ⟨inside, by omega, (bodies.split some).2, fun j hj => ?_⟩
  rcases Nat.lt_succ_iff_lt_or_eq.mp hj with before | rfl
  · exact h.settled j before
  · exact settled

theorem Stands.child {k i : ℕ} {start : ℤ} (h : P.Stands m k i start) (inside : i < 8) :
    P.From start (childBodies P.T ((P.nodes k).child (slotNumber i))) := by
  have bodies := h.from_
  rw [rest_succ _ inside] at bodies
  exact (bodies.split h.some).1

theorem Passing.step_slot (h : P.Passing w m it) (all : P.Kept m) (ready : P.Ready rows)
    {i : ℕ} (pc : it.pc = .slot i) :
    P.Keeps w m (sortStep P.l m it).1 (sortStep P.l m it).2 := by
  have le := h.inside (by rw [pc]; simp) (by rw [pc]; simp)
  have stands := h.here le
  rw [Holds, pc] at stands
  dsimp only at stands
  obtain ⟨s, same⟩ := all.same it.k.toNat
  rw [sortStep, pc, same]
  dsimp only
  split
  · next inside =>
      cases slot : (P.nodes it.k.toNat).child (slotNumber i) with
      | cell d => exact h.quiet all le rfl ⟨inside, slot, stands⟩
      | body b => exact h.quiet all le rfl ⟨inside, slot, stands⟩
      | null =>
          have next := stands.next inside (by rw [slot]; trivial)
          have none : childBodies P.T .null = [] := rfl
          rw [slot, none, List.length_nil, Nat.cast_zero, add_zero] at next
          exact h.quiet all le rfl next
      | lock =>
          have next := stands.next inside (by rw [slot]; trivial)
          have none : childBodies P.T .lock = [] := rfl
          rw [slot, none, List.length_nil, Nat.cast_zero, add_zero] at next
          exact h.quiet all le rfl next
  · next past =>
      refine h.advance all ready rfl rfl fun _ j => ?_
      have settled := stands.settled j.val (by omega)
      rwa [slotNumber_val] at settled

theorem Passing.step_setStart (h : P.Passing w m it) (all : P.Kept m) {i d : ℕ}
    (pc : it.pc = .setStart i d) :
    P.Keeps w m (sortStep P.l m it).1 (sortStep P.l m it).2 := by
  have le := h.inside (by rw [pc]; simp) (by rw [pc]; simp)
  have here := h.here le
  rw [Holds, pc] at here
  obtain ⟨inside, slot, stands⟩ := here
  rw [sortStep, pc]
  dsimp only
  have own : (m.tree.setNode d { m.tree.nodes d with start := it.start }).nodes d =
      { m.tree.nodes d with start := it.start } := Function.update_self _ _ _
  have others : ∀ n, n ≠ d →
      (m.tree.setNode d { m.tree.nodes d with start := it.start }).nodes n = m.tree.nodes n :=
    fun n ne => Function.update_of_ne ne _ _
  have grows : P.Grows m
      { m with tree := m.tree.setNode d { m.tree.nodes d with start := it.start } } := by
    intro ch settled
    cases ch with
    | cell e =>
        by_cases same : e = d
        · subst same
          show 0 ≤ ((m.tree.setNode e _).nodes e).start
          rw [own]
          exact stands.some
        · show 0 ≤ ((m.tree.setNode d _).nodes e).start
          rw [others e same]
          exact settled
    | body b => exact settled
    | null => trivial
    | lock => trivial
  refine ⟨h.stay le grows rfl ⟨inside, slot, stands.grow grows, ?_⟩,
    ⟨fun n => ?_, all.bottom, fun c hc some => ?_, fun c before => ?_⟩, grows⟩
  · show 0 ≤ ((m.tree.setNode d _).nodes d).start
    rw [own]
    exact stands.some
  · by_cases same : n = d
    · subst same
      obtain ⟨s, whole⟩ := all.same n
      refine ⟨it.start, ?_⟩
      show (m.tree.setNode n _).nodes n = _
      rw [own, whole]
    · show ∃ s, (m.tree.setNode d _).nodes n = _
      rw [others n same]
      exact all.same n
  · by_cases same : c = d
    · subst same
      show P.From ((m.tree.setNode c _).nodes c).start _
      rw [own]
      have bodies := stands.child inside
      rwa [slot] at bodies
    · have start := all.starts c hc
      show P.From ((m.tree.setNode d _).nodes c).start _
      have some : 0 ≤ ((m.tree.setNode d { m.tree.nodes d with start := it.start }).nodes c).start :=
        some
      rw [others c same] at some ⊢
      exact start some
  · exact grows (.cell c) (all.earlier c before)

theorem Passing.step_addCount (h : P.Passing w m it) (all : P.Kept m) (ready : P.Ready rows)
    (hw : w < P.l.items) {i d : ℕ} (pc : it.pc = .addCount i d) :
    P.Keeps w m (sortStep P.l m it).1 (sortStep P.l m it).2 := by
  have le := h.inside (by rw [pc]; simp) (by rw [pc]; simp)
  have here := h.here le
  rw [Holds, pc] at here
  obtain ⟨inside, slot, stands, settled⟩ := here
  have mem : d ∈ P.T.cells := ready.child_mem (h.mine hw le) slot
  have next := stands.next inside (by rw [slot]; exact settled)
  obtain ⟨s, same⟩ := all.same d
  have count : (m.tree.nodes d).count = (childBodies P.T (.cell d)).length := by
    rw [same]
    exact ready.count d mem
  rw [slot, ← count] at next
  rw [sortStep, pc]
  exact h.quiet all le rfl next

theorem Passing.step_place (h : P.Passing w m it) (all : P.Kept m) {i b : ℕ}
    (pc : it.pc = .place i b) :
    P.Keeps w m (sortStep P.l m it).1 (sortStep P.l m it).2 := by
  have le := h.inside (by rw [pc]; simp) (by rw [pc]; simp)
  have here := h.here le
  rw [Holds, pc] at here
  obtain ⟨inside, slot, stands⟩ := here
  have child := stands.child inside
  rw [slot] at child
  have place := From.body child
  rw [sortStep, pc]
  dsimp only
  have grows : P.Grows m { m with sort := Function.update m.sort it.start.toNat b } := by
    intro ch settled
    cases ch with
    | cell d => exact settled
    | body a =>
        obtain ⟨s, there, stored⟩ := settled
        refine ⟨s, there, ?_⟩
        show Function.update m.sort it.start.toNat b s = a
        by_cases same : s = it.start.toNat
        · rw [same] at there ⊢
          rw [Function.update_self]
          exact Option.some.inj (place.symm.trans there)
        · rw [Function.update_of_ne same]
          exact stored
    | null => trivial
    | lock => trivial
  have next := (stands.grow grows).next inside (by
    rw [slot]
    exact ⟨_, place, Function.update_self _ _ _⟩)
  rw [slot, childBodies, List.length_singleton, Nat.cast_one] at next
  exact ⟨h.stay le grows rfl next, ⟨all.same, all.bottom, all.starts, all.earlier⟩, grows⟩

theorem Passing.step (h : P.Passing w m it) (all : P.Kept m) (ready : P.Ready rows)
    (hw : w < P.l.items) : P.Keeps w m (sortStep P.l m it).1 (sortStep P.l m it).2 := by
  cases pc : it.pc with
  | check => exact h.step_check all ready hw pc
  | slot i => exact h.step_slot all ready pc
  | setStart i d => exact h.step_setStart all pc
  | addCount i d => exact h.step_addCount all ready hw pc
  | place i b => exact h.step_place all pc
  | done =>
      rw [sortStep, pc]
      exact ⟨h, all, fun _ => id⟩

/-! ## The launches -/

theorem sort_finished (ready : P.Ready rows) (all : P.Kept m) {order : List (Fin P.l.items)}
    (run : sort P.l m order = some m') :
    P.Kept m' ∧ P.Grows m m' ∧ ∀ c ∈ P.T.cells, P.before c → P.Finished m' c := by
  rw [sort, Option.ite_none_right_eq_some, Option.some.injEq] at run
  obtain ⟨done, rfl⟩ := run
  have first : ∀ w < P.l.items, P.Passing w m ((sortStart P.l m).workers w) := by
    intro w hw
    refine ⟨⟨0, ?_⟩, fun n mine lt => ?_, fun _ => trivial, fun _ => .inl rfl⟩
    · rw [Nat.cast_zero, zero_mul, sub_zero]
      rfl
    · obtain ⟨-, -, -, t, here⟩ := mine
      have positive : 0 ≤ (t : ℤ) * P.l.items := by positivity
      have place : ((sortStart P.l m).workers w).k = sortFirst P.l w := rfl
      omega
  have own : ∀ w < P.l.items, ∀ m₁ it, (P.Kept m₁ ∧ P.Grows m m₁) → P.Passing w m₁ it →
      P.Passing w (sortStep P.l m₁ it).1 (sortStep P.l m₁ it).2 ∧
        (P.Kept (sortStep P.l m₁ it).1 ∧ P.Grows m (sortStep P.l m₁ it).1) ∧
        P.Grows m₁ (sortStep P.l m₁ it).1 := by
    intro w hw m₁ it both passing
    obtain ⟨next, kept, grows⟩ := passing.step both.1 ready hw
    exact ⟨next, ⟨kept, fun ch settled => grows ch (both.2 ch settled)⟩, grows⟩
  have start : (P.Kept (sortStart P.l m).mem ∧ P.Grows m (sortStart P.l m).mem) ∧
      ∀ w < P.l.items, P.Passing w (sortStart P.l m).mem ((sortStart P.l m).workers w) :=
    ⟨⟨all, fun _ => id⟩, first⟩
  obtain ⟨⟨kept, grows⟩, items⟩ := Crew.steps_rely P.Passing _ (fun _ => P.Grows)
    (fun _ => P.Grows) (fun _ _ _ _ _ => id) (fun w _ m₁ m₂ it more passing => passing.stable more) own order start
  refine ⟨kept, grows, fun c hc before => ?_⟩
  obtain ⟨lower, upper⟩ := (ready.device.cells c).mpr hc
  -- the item of cell `c`
  obtain ⟨w, hw, t, here⟩ := exists_stride_from ready.items (Nat.zero_le (P.l.NNODE - c))
  have last : P.l.items - 1 - w < P.l.items := by omega
  have mine : P.mine (P.l.items - 1 - w) c := by
    refine ⟨last, lower, upper, t, ?_⟩
    have cast : ((P.l.NNODE - c : ℕ) : ℤ) = ((0 + w + t * P.l.items : ℕ) : ℤ) := by rw [here]
    push_cast [upper] at cast
    rw [sortFirst]
    have sub : ((P.l.items - 1 - w : ℕ) : ℤ) = (P.l.items : ℤ) - 1 - w := by omega
    rw [sub]
    omega
  have passing := items _ last
  have ended := done ⟨_, last⟩
  refine passing.behind c mine ?_ before
  by_contra not
  have holds := passing.here (by omega)
  rw [Holds, ended] at holds
  exact holds

def since (P : SortPass R) (m : SortMemory R) : SortPass R :=
  { P with before := fun c => 0 ≤ (m.tree.nodes c).start }

theorem Ready.since (ready : P.Ready rows) (m : SortMemory R) : (P.since m).Ready rows :=
  ⟨ready.device, ready.order, ready.clean, ready.count, ready.items⟩

theorem Kept.launch (all : (P.since m).Kept m) (ready : P.Ready rows)
    {order : List (Fin P.l.items)} (run : sort P.l m order = some m') {n : ℕ}
    (levels : ∀ c ∈ P.T.upper (n + 1), 0 ≤ (m.tree.nodes c).start) :
    (P.since m').Kept m' ∧ (∀ c ∈ P.T.upper (n + 1), c ∈ P.T.cells → P.Finished m' c) ∧
      ∀ c ∈ P.T.upper (n + 2), 0 ≤ (m'.tree.nodes c).start := by
  obtain ⟨kept, grows, finished⟩ := sort_finished (ready.since m) all run
  refine ⟨⟨kept.same, kept.bottom, kept.starts, fun _ => id⟩,
    fun c hc mem => finished c mem (levels c hc), fun c hc => ?_⟩
  rcases upper_succ hc with ⟨sub, root⟩ | ⟨d, sub, i, inner, within, above, slot⟩
  · refine grows (.cell c) (levels c ?_)
    rw [root]
    exact mem_upper_cell.mpr (.inl rfl)
  · have child : SlotCL.cell c ∈ children (P.nodes d).child := by
      rw [ready.order d within.mem]
      exact ready.device.child_of_entry within i rfl (by rw [slot]; rfl)
    obtain ⟨-, j, there⟩ := mem_children.mp child
    have settled := finished d within.mem (levels d above) j
    rw [show ((P.since m).nodes d).child j = .cell c from there] at settled
    exact settled

theorem Kept.launches (all : (P.since m).Kept m) (ready : P.Ready rows)
    {orders : List (List (Fin P.l.items))} (run : sortLaunches P.l orders m = some m') {n : ℕ}
    (levels : ∀ c ∈ P.T.upper (n + 1), 0 ≤ (m.tree.nodes c).start) (some : orders ≠ [])
    (deep : P.T.deepest < n + orders.length) : ∀ c ∈ P.T.cells, P.Finished m' c := by
  induction orders generalizing m n with
  | nil => exact absurd rfl some
  | cons order orders ih =>
      rw [sortLaunches, List.foldlM_cons] at run
      obtain ⟨m₁, launch, rest⟩ := Option.bind_eq_some_iff.mp run
      obtain ⟨kept, finished, next⟩ := all.launch ready launch levels
      cases orders with
      | nil =>
          rw [List.foldlM_nil, Option.pure_def, Option.some.injEq] at rest
          subst rest
          intro c hc
          exact finished c (mem_upper_of_deepest deep hc) hc
      | cons again orders =>
          refine ih kept rest next (List.cons_ne_nil _ _) ?_
          rw [List.length_cons] at deep
          omega

end SortPass

/-! ## The host -/

theorem sortLaunches_leaves (l : PassLaunch) (T : Octree ℕ ℕ) (rows : ℕ → Fin 8 → SlotCL)
    (m m' : SortMemory R) (orders : List (List (Fin l.items)))
    (device : OnDevice l m.tree.bottom rows T) (items : 0 < l.items)
    (order : ∀ c ∈ T.cells, children (m.tree.nodes c).child = children (rows c))
    (clean : ∀ c ∈ T.cells, Clean (m.tree.nodes c).child)
    (count : ∀ c ∈ T.cells, (m.tree.nodes c).count = (T.under c).length)
    (root : (m.tree.nodes l.NNODE).start = 0)
    (cleared : ∀ c ∈ T.cells, c ≠ l.NNODE → (m.tree.nodes c).start < 0)
    (nodup : T.leaves.Nodup) (deep : T.deepest < orders.length)
    (run : sortLaunches l orders m = some m') :
    (List.range T.leaves.length).map m'.sort = T.leaves := by
  let P : SortPass R := ⟨l, m.tree.nodes, m.tree.bottom, T, fun _ => False⟩
  have ready : P.Ready rows := ⟨device, order, clean, count, items⟩
  obtain ⟨sub, whole⟩ := device.root
  have all : (P.since m).Kept m := by
    refine ⟨fun n => ⟨(m.tree.nodes n).start, rfl⟩, rfl, fun c hc some => ?_, fun _ => id⟩
    by_cases here : c = l.NNODE
    · subst here
      rw [root]
      have under : T.under l.NNODE = T.leaves := by
        rw [whole, under, if_pos rfl]
      show T.under l.NNODE <+: T.leaves.drop 0
      rw [under, List.drop_zero]
    · exact absurd some (not_le.mpr (cleared c hc here))
  have levels : ∀ c ∈ P.T.upper (0 + 1), 0 ≤ (m.tree.nodes c).start := by
    intro c hc
    rw [show P.T = T from rfl, whole] at hc
    rcases mem_upper_cell.mp hc with rfl | ⟨i, none⟩
    · exact root.ge
    · cases none
  have launched : orders ≠ [] := by
    rintro rfl
    exact absurd deep (Nat.not_lt_zero _)
  have reach : P.T.deepest < 0 + orders.length := by
    rw [Nat.zero_add]
    exact deep
  have finished := all.launches ready run levels launched reach
  have placed : ∀ b ∈ T.leaves, ∃ s, T.leaves[s]? = some b ∧ m'.sort s = b := by
    intro b hb
    obtain ⟨c, inner, i, within, leaf⟩ := exists_within_leaf hb (by rw [whole]; rfl)
    have child : SlotCL.body b ∈ children (m.tree.nodes c).child := by
      rw [order c within.mem]
      exact device.child_of_entry within i rfl (by rw [leaf]; rfl)
    obtain ⟨-, j, there⟩ := mem_children.mp child
    have settled := finished c within.mem j
    rw [show (P.nodes c).child j = .body b from there] at settled
    exact settled
  refine List.ext_getElem (by rw [List.length_map, List.length_range]) fun s hs hs' => ?_
  rw [List.getElem_map, List.getElem_range]
  obtain ⟨t, there, stored⟩ := placed _ (List.getElem_mem hs')
  have same : t = s := by
    obtain ⟨ht, value⟩ := List.getElem?_eq_some_iff.mp there
    exact (nodup.getElem_inj_iff).mp value
  rw [same] at stored
  exact stored

end MilkyWay.NBody
