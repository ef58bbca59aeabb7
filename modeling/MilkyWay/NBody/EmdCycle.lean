import MilkyWay.Foundation.Backtracking
import MilkyWay.NBody.EmdBasis

/-! The loop that an entering cell closes with a basis. The nodes of a loop move along a row
and along a column in turn; on a tree there is just one such loop, and the search with
backtracking finds it. -/

namespace MilkyWay.NBody

open Foundation Function SimpleGraph

section
variable {R : Type}

/-! ## Loops -/

/-- Nodes two by two: both of a pair are in a row, and the second one is in the column of the
first one of the next pair, or after all of them in the column `close`. -/
def Alternates (x : ℕ → EMDNode2D R) (close : ℕ) : List ℕ → Prop
  | [] => True
  | [_] => False
  | a :: b :: rest =>
      (x a).i = (x b).i ∧ (x b).j = rest.head?.elim close (fun c => (x c).j) ∧
        Alternates x close rest

/-- A loop of different nodes from the entering one. -/
structure IsLoop (state : EMDState R) (loop : List ℕ) : Prop where
  start : loop.head? = some state.enter_x
  nodup : loop.Nodup
  nodes : ∀ k ∈ loop, k < state.end_x
  moves : Alternates state.x (state.x state.enter_x).j loop

def evenPlaces : List ℕ → List ℕ
  | a :: _ :: rest => a :: evenPlaces rest
  | _ => []

/-- A loop moves along each row and along each column at most once. -/
def Simple (state : EMDState R) (loop : List ℕ) : Prop :=
  ((evenPlaces loop).map fun k => (state.x k).i).Nodup ∧
    ((oddPlaces loop).map fun k => (state.x k).j).Nodup

def tip (x : ℕ → EMDNode2D R) : List ℕ → ℕ ⊕ ℕ
  | [] => .inl 0
  | k :: p => if p.length % 2 = 0 then .inl (x k).i else .inr (x k).j

def tips (x : ℕ → EMDNode2D R) : List ℕ → List (ℕ ⊕ ℕ)
  | [] => []
  | k :: p => tip x (k :: p) :: tips x p

def OnLine (node : EMDNode2D R) : ℕ ⊕ ℕ → Prop
  | .inl i => node.i = i
  | .inr j => node.j = j

def Moves (x : ℕ → EMDNode2D R) : List ℕ → Prop
  | k :: p => (p = [] ∨ OnLine (x k) (tip x p)) ∧ Moves x p
  | [] => True

variable {x : ℕ → EMDNode2D R}

theorem alternates_append (l : List ℕ) (a b close : ℕ) :
    Alternates x close (l ++ [a, b]) ↔
      Alternates x (x a).j l ∧ (x a).i = (x b).i ∧ (x b).j = close := by
  match l with
  | [] => simp [Alternates]
  | [c] => simp [Alternates]
  | c :: d :: rest =>
      have ih := alternates_append rest a b close
      have next : (rest ++ [a, b]).head?.elim close (fun c => (x c).j) =
          rest.head?.elim (x a).j fun c => (x c).j := by
        cases rest with
        | nil => rfl
        | cons e rest => rfl
      rw [List.cons_append, List.cons_append, Alternates, Alternates, ih, next, and_assoc,
        and_assoc]

theorem onLine_tip_iff {p : List ℕ} (even : p.length % 2 = 0) {a : ℕ} :
    (p = [] ∨ OnLine (x a) (tip x p)) ↔ ∀ k ∈ p.head?, (x k).j = (x a).j := by
  cases p with
  | nil => simp
  | cons k p =>
      rw [List.length_cons] at even
      have odd : p.length % 2 ≠ 0 := by omega
      simp [tip, odd, OnLine, eq_comm]

theorem alternates_reverse (p : List ℕ) (close : ℕ) :
    Alternates x close p.reverse ↔
      p.length % 2 = 0 ∧ Moves x p ∧ ∀ k ∈ p.head?, (x k).j = close := by
  match p with
  | [] => simp [Alternates, Moves]
  | [a] => simp [Alternates]
  | b :: a :: p =>
      have ih := alternates_reverse p (x a).j
      have shape : (b :: a :: p).reverse = p.reverse ++ [a, b] := by simp
      rw [shape, alternates_append, ih, Moves, Moves]
      by_cases even : p.length % 2 = 0
      · have parity : (b :: a :: p).length % 2 = 0 := by
          simp only [List.length_cons]
          omega
        rw [onLine_tip_iff even, tip, if_pos even, OnLine, List.head?_cons]
        constructor
        · intro h
          exact ⟨parity, ⟨.inr h.2.1.symm, h.1.2.2, h.1.2.1⟩, fun k last => by
            cases last
            exact h.2.2⟩
        · intro h
          have row := h.2.1.1.resolve_left (List.cons_ne_nil _ _)
          exact ⟨⟨even, h.2.1.2.2, h.2.1.2.1⟩, row.symm, h.2.2 b rfl⟩
      · have parity : (b :: a :: p).length % 2 ≠ 0 := by
          simp only [List.length_cons]
          omega
        constructor
        · exact fun h => absurd h.1.1 even
        · exact fun h => absurd h.1 parity

theorem places_append {l : List ℕ} (even : l.length % 2 = 0) (a b : ℕ) :
    evenPlaces (l ++ [a, b]) = evenPlaces l ++ [a] ∧
      oddPlaces (l ++ [a, b]) = oddPlaces l ++ [b] := by
  match l with
  | [] => exact ⟨rfl, rfl⟩
  | [c] => cases even
  | c :: d :: rest =>
      have left : rest.length % 2 = 0 := by
        simp only [List.length_cons] at even
        omega
      obtain ⟨evens, odds⟩ := places_append left a b
      exact ⟨congrArg (c :: ·) evens, congrArg (d :: ·) odds⟩

theorem places_reverse {p : List ℕ} (even : p.length % 2 = 0) :
    (evenPlaces p.reverse).map (fun k => (x k).i) =
        ((tips x p).filterMap Sum.getLeft?).reverse ∧
      (oddPlaces p.reverse).map (fun k => (x k).j) =
        ((tips x p).filterMap Sum.getRight?).reverse := by
  match p with
  | [] => exact ⟨rfl, rfl⟩
  | [a] => cases even
  | b :: a :: p =>
      have left : p.length % 2 = 0 := by
        simp only [List.length_cons] at even
        omega
      have odd : (a :: p).length % 2 ≠ 0 := by
        rw [List.length_cons]
        omega
      obtain ⟨evens, odds⟩ := places_reverse left
      have shape : (b :: a :: p).reverse = p.reverse ++ [a, b] := by simp
      have length : p.reverse.length % 2 = 0 := by rwa [List.length_reverse]
      obtain ⟨first, second⟩ := places_append length a b
      rw [shape, first, second, List.map_append, List.map_append, evens, odds, tips, tips, tip,
        if_neg odd, tip, if_pos left]
      constructor
      · rw [List.filterMap_cons, List.filterMap_cons]
        simp
      · rw [List.filterMap_cons, List.filterMap_cons]
        simp

/-! ## The lists of nodes -/

/-- The links lead through the nodes of each row and of each column, with the entering node
at the head of its column. -/
structure Entered (state : EMDState R) (row col : ℕ → List ℕ) : Prop where
  free : state.enter_x < state.end_x
  rows_lt : ∀ k < state.end_x, (state.x k).i < state.ssize
  cols_lt : ∀ k < state.end_x, (state.x k).j < state.dsize
  rows : ∀ i < state.ssize,
    Foundation.Linked (fun a => (state.x a).next 0) (state.rows_x i) (row i)
  cols : ∀ j < state.dsize,
    Foundation.Linked (fun a => (state.x a).next 1) (state.cols_x j) (col j)
  mem_row : ∀ i < state.ssize, ∀ k, k ∈ row i ↔ k < state.end_x ∧ (state.x k).i = i
  mem_col : ∀ j < state.dsize, ∀ k, k ∈ col j ↔ k < state.end_x ∧ (state.x k).j = j
  head : (col (state.x state.enter_x).j).head? = some state.enter_x

def followers (state : EMDState R) (row col : ℕ → List ℕ) (p : List ℕ) : List ℕ :=
  ((tip state.x p).elim row col).filter fun k => !p.contains k

def Closes (state : EMDState R) (p : List ℕ) : Prop :=
  tip state.x p = .inr (state.x state.enter_x).j

open Foundation.Numerals in
def lineLink : ℕ ⊕ ℕ → Fin 2 := Sum.elim (fun _ => 0) fun _ => 1

def lineHead (state : EMDState R) : ℕ ⊕ ℕ → Option ℕ := Sum.elim state.rows_x state.cols_x

structure LoopStack (state : EMDState R) (p : List ℕ) : Prop where
  last : p.getLast? = some state.enter_x
  nodup : p.Nodup
  nodes : ∀ k ∈ p, k < state.end_x
  moves : Moves state.x p

variable {state : EMDState R} {row col : ℕ → List ℕ} {fuel k : ℕ} {p : List ℕ}

namespace Entered

theorem linked (lists : Entered state row col) (lt : k < state.end_x) :
    Foundation.Linked (fun a => (state.x a).next (lineLink (tip state.x (k :: p))))
      (lineHead state (tip state.x (k :: p))) ((tip state.x (k :: p)).elim row col) := by
  rw [tip]
  split
  · exact lists.rows _ (lists.rows_lt k lt)
  · exact lists.cols _ (lists.cols_lt k lt)

theorem mem_line (lists : Entered state row col) (lt : k < state.end_x) {a : ℕ} :
    a ∈ (tip state.x (k :: p)).elim row col ↔
      a < state.end_x ∧ OnLine (state.x a) (tip state.x (k :: p)) := by
  rw [tip]
  split
  · exact lists.mem_row _ (lists.rows_lt k lt) a
  · exact lists.mem_col _ (lists.cols_lt k lt) a

theorem mem_followers (lists : Entered state row col) (lt : k < state.end_x) {a : ℕ} :
    a ∈ followers state row col (k :: p) ↔
      (a < state.end_x ∧ OnLine (state.x a) (tip state.x (k :: p))) ∧ a ∉ k :: p := by
  rw [followers, List.mem_filter, lists.mem_line lt, Bool.not_eq_true', List.contains_eq_mem,
    decide_eq_false_iff_not]

theorem length_lt (lists : Entered state row col) (lt : k < state.end_x)
    (enough : state.end_x < fuel) : ((tip state.x (k :: p)).elim row col).length < fuel := by
  have nodup := (lists.linked (p := p) lt).nodup
  exact (length_le_of_below nodup fun a mem => ((lists.mem_line lt).mp mem).1).trans_lt enough

theorem stack (lists : Entered state row col)
    (stacked : Stacked (followers state row col) state.enter_x p) : LoopStack state p := by
  induction stacked with
  | root =>
      refine ⟨rfl, List.nodup_singleton _, fun k mem => ?_, .inl rfl, trivial⟩
      rw [List.mem_singleton.mp mem]
      exact lists.free
  | @push p k stacked mem ih =>
      cases p with
      | nil => cases stacked
      | cons k' p =>
          have lt' := ih.nodes k' List.mem_cons_self
          obtain ⟨⟨lt, onLine⟩, unused⟩ := (lists.mem_followers lt').mp mem
          refine ⟨ih.last, List.nodup_cons.mpr ⟨unused, ih.nodup⟩, ?_, .inr onLine, ih.moves⟩
          intro a mem
          rcases List.mem_cons.mp mem with rfl | mem
          · exact lt
          · exact ih.nodes a mem

end Entered

/-! ## The search on the lists -/

namespace Entered

theorem firstUnpassed_followers (lists : Entered state row col) (lt : k < state.end_x)
    (enough : state.end_x < fuel) (pass : ℕ → Bool)
    (same : ∀ a ∈ (tip state.x (k :: p)).elim row col, pass a = (k :: p).contains a) :
    firstUnpassed (fun a => (state.x a).next (lineLink (tip state.x (k :: p)))) pass fuel
        (lineHead state (tip state.x (k :: p))) =
      some (followers state row col (k :: p)).head? := by
  rw [(lists.linked lt).firstUnpassed pass (lists.length_lt lt enough), followers,
    List.head?_filter]
  refine congrArg some (List.find?_congr fun a mem => ?_)
  rw [same a mem]

theorem turn_eq (lists : Entered state row col) (stack : LoopStack state (k :: p))
    (enough : state.end_x < fuel) (unclosed : ¬Closes state (k :: p)) :
    emdFindLoopTurn fuel state (k :: p) =
      (followers state row col (k :: p)).head?.elim
        ((emdBacktrack fuel state.x (k :: p)).map .inl) fun k' => some (.inl (k' :: k :: p)) := by
  have lt : k < state.end_x := stack.nodes k List.mem_cons_self
  have walk := @firstUnpassed_followers R state row col fuel k p lists lt enough
  have here : state.enter_x ∈ k :: p := List.mem_of_getLast? stack.last
  rw [emdFindLoopTurn]
  by_cases even : p.length % 2 = 0
  · have steps : (p.length + 1) % 2 = 1 := by omega
    rw [tip, if_pos even] at walk
    have found := walk (fun a => (k :: p).contains a) fun a _ => rfl
    change firstUnpassed (fun a => (state.x a).next 0) _ fuel (state.rows_x (state.x k).i) = _
      at found
    rw [if_pos steps, found]
    cases (followers state row col (k :: p)).head? with
    | none => rfl
    | some k' => rfl
  · have steps : (p.length + 1) % 2 ≠ 1 := by omega
    have tipped : tip state.x (k :: p) = .inr (state.x k).j := if_neg even
    have other : (state.x state.enter_x).j ≠ (state.x k).j := fun same =>
      unclosed (tipped.trans (congrArg Sum.inr same.symm))
    rw [tipped] at walk
    have found := walk (fun a => (k :: p).contains a && a != state.enter_x) fun a mem => by
      have column := ((lists.mem_col _ (lists.cols_lt k lt) a).mp mem).2
      have apart : a ≠ state.enter_x := fun same => other (same ▸ column)
      simp [apart]
    change firstUnpassed (fun a => (state.x a).next 1) _ fuel (state.cols_x (state.x k).j) = _
      at found
    rw [if_neg steps, found]
    cases first : (followers state row col (k :: p)).head? with
    | none => rfl
    | some k' =>
        have new := ((lists.mem_followers lt).mp (List.mem_of_head? first)).2
        have apart : k' ≠ state.enter_x := fun same => new (same ▸ here)
        exact if_neg apart

theorem turn_closes (lists : Entered state row col) (stack : LoopStack state (k :: p))
    (enough : state.end_x < fuel) (closes : Closes state (k :: p)) :
    emdFindLoopTurn fuel state (k :: p) = some (.inr (k :: p).reverse) := by
  have lt : k < state.end_x := stack.nodes k List.mem_cons_self
  have odd : p.length % 2 ≠ 0 := by
    intro even
    rw [Closes, tip, if_pos even] at closes
    cases closes
  have steps : (p.length + 1) % 2 ≠ 1 := by omega
  have tipped : tip state.x (k :: p) = .inr (state.x k).j := if_neg odd
  have linked := lists.linked (p := p) lt
  have length := lists.length_lt (p := p) lt enough
  rw [closes] at linked length
  have found := linked.firstUnpassed (fun a => (k :: p).contains a && a != state.enter_x) length
  have head := lists.head
  change firstUnpassed (fun a => (state.x a).next 1) _ fuel
    (state.cols_x (state.x state.enter_x).j) = some ((col _).find? _) at found
  have same : (state.x k).j = (state.x state.enter_x).j := Sum.inr.inj (tipped.symm.trans closes)
  rw [emdFindLoopTurn, if_neg steps, same, found]
  cases line : col (state.x state.enter_x).j with
  | nil =>
      rw [line] at head
      cases head
  | cons a rest =>
      rw [line] at head
      have first : a = state.enter_x := Option.some.inj head
      subst first
      simp

theorem back_eq (lists : Entered state row col) (lt : k < state.end_x)
    (enough : state.end_x < fuel) (before : List ℕ) (k' : ℕ) (rest : List ℕ)
    (split : followers state row col (k :: p) = before ++ k' :: rest) :
    emdBacktrack fuel state.x (k' :: k :: p) =
      rest.head?.elim (emdBacktrack fuel state.x (k :: p)) fun k'' => some (k'' :: k :: p) := by
  have linked := lists.linked (p := p) lt
  have mem : k' ∈ followers state row col (k :: p) := by simp [split]
  have unused := ((lists.mem_followers lt).mp mem).2
  obtain ⟨earlier, later, parts⟩ := List.append_of_mem ((lists.mem_line lt).mpr
    ((lists.mem_followers lt).mp mem).1)
  rw [parts] at linked
  have nodup := linked.nodup
  have passed : k' ∉ later := (List.nodup_cons.mp (List.nodup_append.mp nodup).2.1).1
  have before_unused : k' ∉ earlier := fun mem =>
    (List.nodup_append.mp nodup).2.2 k' mem k' List.mem_cons_self rfl
  have rest_eq : rest = later.filter fun a => !(k :: p).contains a := by
    have whole : (earlier.filter fun a => !(k :: p).contains a) ++
        k' :: later.filter (fun a => !(k :: p).contains a) = before ++ k' :: rest := by
      rw [← split, followers, parts, List.filter_append, List.filter_cons_of_pos]
      simpa using unused
    refine ((List.append_cons_inj_of_notMem ?_ ?_).mp whole).2.2.symm
    · exact fun mem => before_unused (List.mem_filter.mp mem).1
    · exact fun mem => passed (List.mem_filter.mp mem).1
  have link : lineLink (tip state.x (k :: p)) = if ((k :: p).length + 1) % 2 = 1 then 1 else 0 := by
    by_cases even : p.length % 2 = 0
    · have steps : ((k :: p).length + 1) % 2 ≠ 1 := by
        rw [List.length_cons]
        omega
      rw [tip, if_pos even, if_neg steps]
      rfl
    · have steps : ((k :: p).length + 1) % 2 = 1 := by
        rw [List.length_cons]
        omega
      rw [tip, if_neg even, if_pos steps]
      rfl
  have length : later.length < fuel := by
    have line := lists.length_lt (p := p) lt enough
    rw [parts, List.length_append, List.length_cons] at line
    omega
  have walk := linked.after.firstUnpassed (fun a => (k' :: k :: p).contains a) length
  have found : (later.find? fun a => !(k' :: k :: p).contains a) = rest.head? := by
    rw [rest_eq, List.head?_filter]
    refine List.find?_congr fun a mem => ?_
    have other : a ≠ k' := fun same => passed (same ▸ mem)
    simp [other]
  rw [link, found] at walk
  rw [emdBacktrack, walk]
  cases rest.head? with
  | none => rfl
  | some k'' => rfl

theorem backtracks (lists : Entered state row col) (enough : state.end_x < fuel) :
    Backtracks (followers state row col) state.enter_x (Closes state) List.reverse
      (emdBacktrack fuel state.x) (emdFindLoopTurn fuel state) where
  ends p stacked closes := by
    have stack := lists.stack stacked
    cases p with
    | nil => cases stacked
    | cons k p => exact lists.turn_closes stack enough closes
  push p k' rest stacked unclosed first := by
    have stack := lists.stack stacked
    cases p with
    | nil => cases stacked
    | cons k p => rw [lists.turn_eq stack enough unclosed, first, List.head?_cons, Option.elim_some]
  stuck p stacked unclosed nothing := by
    have stack := lists.stack stacked
    cases p with
    | nil => cases stacked
    | cons k p => rw [lists.turn_eq stack enough unclosed, nothing, List.head?_nil, Option.elim_none]
  next p before k' rest stacked split := by
    have stack := lists.stack stacked
    cases p with
    | nil => cases stacked
    | cons k p =>
        exact lists.back_eq (stack.nodes k List.mem_cons_self) enough before k' rest split

theorem bounded (lists : Entered state row col) (p : List ℕ)
    (stacked : Stacked (followers state row col) state.enter_x p) : p.length ≤ state.end_x := by
  have stack := lists.stack stacked
  exact length_le_of_below stack.nodup stack.nodes

end Entered

theorem isLoop_reverse : IsLoop state p.reverse ↔ LoopStack state p ∧ Closes state p := by
  have moves := alternates_reverse (x := state.x) p (state.x state.enter_x).j
  have closes : p ≠ [] → (Closes state p ↔
      p.length % 2 = 0 ∧ ∀ k ∈ p.head?, (state.x k).j = (state.x state.enter_x).j) := by
    intro nonempty
    cases p with
    | nil => exact absurd rfl nonempty
    | cons k p =>
        rw [Closes, tip, List.length_cons]
        by_cases even : p.length % 2 = 0
        · have odd : (p.length + 1) % 2 ≠ 0 := by omega
          simp [even, odd]
        · have other : (p.length + 1) % 2 = 0 := by omega
          simp [even, other]
  constructor
  · intro h
    have last : p.getLast? = some state.enter_x := by
      rw [← List.head?_reverse]
      exact h.start
    have nonempty : p ≠ [] := fun empty => by
      rw [empty] at last
      cases last
    obtain ⟨even, along, close⟩ := moves.mp h.moves
    refine ⟨⟨last, List.nodup_reverse.mp h.nodup, ?_, along⟩, (closes nonempty).mpr ⟨even, close⟩⟩
    exact fun k mem => h.nodes k (List.mem_reverse.mpr mem)
  · intro h
    obtain ⟨stack, closed⟩ := h
    have nonempty : p ≠ [] := fun empty => by
      have last := stack.last
      rw [empty] at last
      cases last
    obtain ⟨even, close⟩ := (closes nonempty).mp closed
    refine ⟨?_, List.nodup_reverse.mpr stack.nodup, ?_, moves.mpr ⟨even, stack.moves, close⟩⟩
    · rw [List.head?_reverse]
      exact stack.last
    · exact fun k mem => stack.nodes k (List.mem_reverse.mp mem)

/-! ## Loops of a spanning tree -/

structure Spans (state : EMDState R) (cell : ℕ → ℕ → Bool) : Prop where
  distinct : ∀ k ∈ state.basics, ∀ k' ∈ state.basics,
    state.cellAt k = state.cellAt k' → k = k'
  marked : ∀ i < state.ssize, ∀ j < state.dsize,
    (cell i j = true ↔ ∃ k ∈ state.basics, state.cellAt k = (i, j))
  tree : (cellGraph state.ssize state.dsize cell).IsTree

def nodeAt (state : EMDState R) (i j : ℕ) : ℕ :=
  ((List.range state.end_x).find? fun k => k != state.enter_x && state.cellAt k == (i, j)).getD 0

def edgeNode (state : EMDState R) {m n : ℕ} : Sym2 (Fin m ⊕ Fin n) → ℕ :=
  Sym2.lift ⟨fun
    | .inl i, .inr j => nodeAt state i j
    | .inr j, .inl i => nodeAt state i j
    | _, _ => 0, fun v w => by cases v <;> cases w <;> rfl⟩

def lineOf {m n : ℕ} : Fin m ⊕ Fin n → ℕ ⊕ ℕ := Sum.map Fin.val Fin.val

theorem lineOf_injective {m n : ℕ} : Injective (lineOf : Fin m ⊕ Fin n → ℕ ⊕ ℕ) :=
  Sum.map_injective.mpr ⟨Fin.val_injective, Fin.val_injective⟩

theorem tip_row {i : ℕ} (nonempty : p ≠ []) (row : tip x p = .inl i) :
    tip x (k :: p) = .inr (x k).j := by
  cases p with
  | nil => exact absurd rfl nonempty
  | cons k' p =>
      rw [tip] at row ⊢
      split at row
      · rw [if_neg]
        rw [List.length_cons]
        omega
      · cases row

theorem tip_col {j : ℕ} (col : tip x p = .inr j) : tip x (k :: p) = .inl (x k).i := by
  cases p with
  | nil => cases col
  | cons k' p =>
      rw [tip] at col ⊢
      split at col
      · cases col
      · rw [if_pos]
        rw [List.length_cons]
        omega

namespace Spans

variable {cell : ℕ → ℕ → Bool} {i j : ℕ}

theorem nodeAt_spec (spans : Spans state cell) (hi : i < state.ssize) (hj : j < state.dsize)
    (basic : cell i j = true) :
    nodeAt state i j ∈ state.basics ∧ state.cellAt (nodeAt state i j) = (i, j) := by
  obtain ⟨k, used, here⟩ := (spans.marked i hi j hj).mp basic
  have fits : ∀ k, (k != state.enter_x && state.cellAt k == (i, j)) = true ↔
      k ≠ state.enter_x ∧ state.cellAt k = (i, j) := fun k => by simp
  have found : ((List.range state.end_x).find? fun k =>
      k != state.enter_x && state.cellAt k == (i, j)).isSome = true := by
    refine List.find?_isSome.mpr ⟨k, List.mem_range.mpr (EMDState.mem_basics.mp used).1, ?_⟩
    exact (fits k).mpr ⟨(EMDState.mem_basics.mp used).2, here⟩
  obtain ⟨k', first⟩ := Option.isSome_iff_exists.mp found
  have held := List.find?_some first
  obtain ⟨free, cellAt⟩ := (fits k').mp held
  have lt := List.mem_range.mp (List.mem_of_find?_eq_some first)
  rw [nodeAt, first, Option.getD_some]
  exact ⟨EMDState.mem_basics.mpr ⟨lt, free⟩, cellAt⟩

theorem nodeAt_eq (spans : Spans state cell) (lists : Entered state row col)
    (used : k ∈ state.basics) :
    cell (state.x k).i (state.x k).j = true ∧ nodeAt state (state.x k).i (state.x k).j = k := by
  have lt := (EMDState.mem_basics.mp used).1
  have basic := (spans.marked _ (lists.rows_lt k lt) _ (lists.cols_lt k lt)).mpr ⟨k, used, rfl⟩
  obtain ⟨used', here⟩ := spans.nodeAt_spec (lists.rows_lt k lt) (lists.cols_lt k lt) basic
  exact ⟨basic, spans.distinct _ used' k used here⟩

theorem edge_of_node (spans : Spans state cell) (lists : Entered state row col)
    {v : Fin state.ssize ⊕ Fin state.dsize} (nonempty : p ≠ []) (here : lineOf v = tip state.x p)
    (used : k ∈ state.basics) (onLine : OnLine (state.x k) (tip state.x p)) :
    ∃ v', lineOf v' = tip state.x (k :: p) ∧ (cellGraph state.ssize state.dsize cell).Adj v' v ∧
      edgeNode state s(v', v) = k := by
  have lt := (EMDState.mem_basics.mp used).1
  obtain ⟨basic, node⟩ := spans.nodeAt_eq lists used
  cases v with
  | inl i =>
      have line : tip state.x p = .inl i.1 := here.symm
      rw [line] at onLine
      have row : (state.x k).i = i := onLine
      rw [row] at basic node
      refine ⟨.inr ⟨(state.x k).j, lists.cols_lt k lt⟩, (tip_row nonempty line).symm, basic, node⟩
  | inr j =>
      have line : tip state.x p = .inr j.1 := here.symm
      rw [line] at onLine
      have column : (state.x k).j = j := onLine
      rw [column] at basic node
      exact ⟨.inl ⟨(state.x k).i, lists.rows_lt k lt⟩, (tip_col line).symm, basic, node⟩

theorem node_of_edge (spans : Spans state cell) {v v' : Fin state.ssize ⊕ Fin state.dsize}
    (nonempty : p ≠ []) (here : lineOf v = tip state.x p)
    (adjacent : (cellGraph state.ssize state.dsize cell).Adj v' v) :
    edgeNode state s(v', v) ∈ state.basics ∧
      OnLine (state.x (edgeNode state s(v', v))) (tip state.x p) ∧
      lineOf v' = tip state.x (edgeNode state s(v', v) :: p) := by
  rcases v with i | j <;> rcases v' with i' | j'
  · exact adjacent.elim
  · obtain ⟨used, node⟩ := spans.nodeAt_spec i.2 j'.2 adjacent
    have line : tip state.x p = .inl i.1 := here.symm
    rw [tip_row nonempty line, line]
    exact ⟨used, congrArg Prod.fst node, congrArg Sum.inr (congrArg Prod.snd node).symm⟩
  · obtain ⟨used, node⟩ := spans.nodeAt_spec i'.2 j.2 adjacent
    have line : tip state.x p = .inr j.1 := here.symm
    rw [tip_col line, line]
    exact ⟨used, congrArg Prod.snd node, congrArg Sum.inl (congrArg Prod.fst node).symm⟩
  · exact adjacent.elim

theorem edgeNode_injOn (spans : Spans state cell) :
    Set.InjOn (edgeNode state) (cellGraph state.ssize state.dsize cell).edgeSet := by
  have ends : ∀ e ∈ (cellGraph state.ssize state.dsize cell).edgeSet, ∃ i j,
      e = s(.inl i, .inr j) ∧ state.cellAt (edgeNode state e) = (i.1, j.1) := by
    intro e adjacent
    induction e with
    | h v w =>
        rw [mem_edgeSet] at adjacent
        rcases v with i | j <;> rcases w with i' | j'
        · exact adjacent.elim
        · exact ⟨i, j', rfl, (spans.nodeAt_spec i.2 j'.2 adjacent).2⟩
        · exact ⟨i', j, Sym2.eq_swap, (spans.nodeAt_spec i'.2 j.2 adjacent).2⟩
        · exact adjacent.elim
  intro e he e' he' same
  obtain ⟨i, j, rfl, here⟩ := ends e he
  obtain ⟨i', j', rfl, here'⟩ := ends e' he'
  rw [same, here', Prod.mk.injEq] at here
  rw [Fin.ext here.1, Fin.ext here.2]

def nodesOf (state : EMDState R) {v w : Fin state.ssize ⊕ Fin state.dsize}
    (walk : (cellGraph state.ssize state.dsize cell).Walk v w) : List ℕ :=
  walk.edges.map (edgeNode state) ++ [state.enter_x]

theorem walk_of_stack (spans : Spans state cell) (lists : Entered state row col)
    {root : Fin state.ssize ⊕ Fin state.dsize}
    (rooted : lineOf root = .inl (state.x state.enter_x).i) (stack : LoopStack state p) :
    ∃ v, ∃ walk : (cellGraph state.ssize state.dsize cell).Walk v root,
      lineOf v = tip state.x p ∧ nodesOf state walk = p := by
  induction p with
  | nil => cases stack.last
  | cons k p ih =>
      by_cases first : p = []
      · subst first
        have entering : k = state.enter_x := Option.some.inj stack.last
        subst entering
        exact ⟨root, .nil, rooted, rfl⟩
      · have last : p.getLast? = some state.enter_x := by
          rw [← stack.last, List.getLast?_cons_of_ne_nil first]
        obtain ⟨v, walk, here, nodes⟩ := ih ⟨last, (List.nodup_cons.mp stack.nodup).2,
          fun a mem => stack.nodes a (List.mem_cons_of_mem k mem), stack.moves.2⟩
        have apart : k ≠ state.enter_x := fun same =>
          (List.nodup_cons.mp stack.nodup).1 (same ▸ List.mem_of_getLast? last)
        have used := EMDState.mem_basics.mpr ⟨stack.nodes k List.mem_cons_self, apart⟩
        obtain ⟨v', there, adjacent, node⟩ := spans.edge_of_node lists first here used
          (stack.moves.1.resolve_left first)
        refine ⟨v', .cons adjacent walk, there, ?_⟩
        rw [nodesOf, Walk.edges_cons, List.map_cons, List.cons_append, node]
        exact congrArg (k :: ·) nodes

theorem stacked_of_trail (spans : Spans state cell) (lists : Entered state row col)
    {v root : Fin state.ssize ⊕ Fin state.dsize}
    (walk : (cellGraph state.ssize state.dsize cell).Walk v root)
    (rooted : lineOf root = .inl (state.x state.enter_x).i) (trail : walk.IsTrail) :
    Stacked (followers state row col) state.enter_x (nodesOf state walk) ∧
      lineOf v = tip state.x (nodesOf state walk) := by
  induction walk with
  | nil => exact ⟨.root, rooted⟩
  | @cons v' v root adjacent walk ih =>
      obtain ⟨old, new⟩ := Walk.isTrail_cons _ _ |>.mp trail
      obtain ⟨stacked, here⟩ := ih rooted old
      have nonempty : nodesOf state walk ≠ [] := List.append_ne_nil_of_right_ne_nil _ (by simp)
      obtain ⟨used, onLine, there⟩ := spans.node_of_edge nonempty here adjacent
      have nodes : nodesOf state (.cons adjacent walk) =
          edgeNode state s(v', v) :: nodesOf state walk := by
        rw [nodesOf, Walk.edges_cons, List.map_cons, List.cons_append, nodesOf]
      have unused : edgeNode state s(v', v) ∉ nodesOf state walk := by
        rw [nodesOf, List.mem_append, List.mem_map, List.mem_singleton, not_or]
        refine ⟨?_, (EMDState.mem_basics.mp used).2⟩
        rintro ⟨e, mem, same⟩
        refine new ?_
        have edge := spans.edgeNode_injOn (walk.edges_subset_edgeSet mem)
          ((mem_edgeSet _).mpr adjacent) same
        rwa [← edge]
      rw [nodes]
      refine ⟨stacked.push ?_, there⟩
      have lt := (EMDState.mem_basics.mp used).1
      have nodesStack := lists.stack stacked
      cases shape : nodesOf state walk with
      | nil => exact absurd shape nonempty
      | cons k p =>
          rw [shape] at nodesStack onLine unused
          exact (lists.mem_followers (nodesStack.nodes k List.mem_cons_self)).mpr
            ⟨⟨lt, onLine⟩, unused⟩

theorem closed_unique (spans : Spans state cell) (lists : Entered state row col) {q : List ℕ}
    (stack : LoopStack state p) (closes : Closes state p) (stack' : LoopStack state q)
    (closes' : Closes state q) : p = q := by
  let root : Fin state.ssize ⊕ Fin state.dsize :=
    .inl ⟨(state.x state.enter_x).i, lists.rows_lt _ lists.free⟩
  have rooted : lineOf root = .inl (state.x state.enter_x).i := rfl
  obtain ⟨v, walk, here, nodes⟩ := spans.walk_of_stack lists rooted stack
  obtain ⟨v', walk', here', nodes'⟩ := spans.walk_of_stack lists rooted stack'
  have same : v = v' := lineOf_injective (by rw [here, here', closes, closes'])
  subst same
  have isPath : ∀ {p : List ℕ} (walk : (cellGraph state.ssize state.dsize cell).Walk v root),
      p.Nodup → nodesOf state walk = p → walk.IsPath := by
    intro p walk nodup nodes
    rw [← nodes, nodesOf] at nodup
    rw [spans.tree.isAcyclic.isPath_iff_isTrail, Walk.isTrail_def]
    exact (List.nodup_append.mp nodup).1.of_map _
  have path := (spans.tree.isAcyclic.subsingleton_path v root).elim
    ⟨walk, isPath walk stack.nodup nodes⟩ ⟨walk', isPath walk' stack'.nodup nodes'⟩
  have walks : walk = walk' := congrArg Subtype.val path
  rw [← nodes, ← nodes', walks]

theorem support_of_trail (spans : Spans state cell) (lists : Entered state row col)
    {v root : Fin state.ssize ⊕ Fin state.dsize}
    (walk : (cellGraph state.ssize state.dsize cell).Walk v root)
    (rooted : lineOf root = .inl (state.x state.enter_x).i) (trail : walk.IsTrail) :
    walk.support.map lineOf = tips state.x (nodesOf state walk) := by
  induction walk with
  | nil =>
      rw [Walk.support_nil, List.map_cons, rooted]
      rfl
  | @cons v' v root adjacent walk ih =>
      have here := (spans.stacked_of_trail lists (.cons adjacent walk) rooted trail).2
      rw [Walk.support_cons, List.map_cons, ih rooted (Walk.isTrail_cons _ _ |>.mp trail).1, here]
      rw [nodesOf, nodesOf, Walk.edges_cons, List.map_cons, List.cons_append, tips]

theorem exists_closed (spans : Spans state cell) (lists : Entered state row col) :
    ∃ p, Stacked (followers state row col) state.enter_x p ∧ Closes state p ∧
      (tips state.x p).Nodup := by
  obtain ⟨walk, path, -⟩ := spans.tree.existsUnique_path
    (.inr ⟨(state.x state.enter_x).j, lists.cols_lt _ lists.free⟩)
    (.inl ⟨(state.x state.enter_x).i, lists.rows_lt _ lists.free⟩)
  obtain ⟨stacked, there⟩ := spans.stacked_of_trail lists walk rfl path.isTrail
  refine ⟨_, stacked, there.symm, ?_⟩
  rw [← spans.support_of_trail lists walk rfl path.isTrail]
  exact path.support_nodup.map lineOf_injective

end Spans

/-! ## The loop found -/

theorem emdBacktrack_mono {fuel' : ℕ} (le : fuel ≤ fuel') {q : List ℕ}
    (h : emdBacktrack fuel x p = some q) : emdBacktrack fuel' x p = some q := by
  induction p with
  | nil => cases h
  | cons k p ih =>
      rw [emdBacktrack] at h ⊢
      cases walk : firstUnpassed (fun a => (x a).next (if (p.length + 1) % 2 = 1 then 1 else 0))
          (fun a => (k :: p).contains a) fuel
          ((x k).next (if (p.length + 1) % 2 = 1 then 1 else 0)) with
      | none => simp only [walk] at h; cases h
      | some found =>
          simp only [firstUnpassed_mono walk le]
          simp only [walk] at h
          cases found with
          | none => exact ih h
          | some k' => exact h

theorem emdFindLoopTurn_mono {fuel' : ℕ} (le : fuel ≤ fuel') {r : List ℕ ⊕ List ℕ}
    (h : emdFindLoopTurn fuel state p = some r) : emdFindLoopTurn fuel' state p = some r := by
  have back : ∀ q, (emdBacktrack fuel state.x q).map Sum.inl = some r →
      (emdBacktrack fuel' state.x q).map Sum.inl = some r := by
    intro q left
    obtain ⟨q', backed, rfl⟩ := Option.map_eq_some_iff.mp left
    rw [emdBacktrack_mono le backed, Option.map_some]
  cases p with
  | nil => cases h
  | cons k p =>
      rw [emdFindLoopTurn] at h ⊢
      by_cases odd : (p.length + 1) % 2 = 1
      · rw [if_pos odd] at h ⊢
        cases walk : firstUnpassed (fun a => (state.x a).next 0) (fun a => (k :: p).contains a)
            fuel (state.rows_x (state.x k).i) with
        | none => simp only [walk] at h; cases h
        | some found =>
            simp only [walk] at h
            simp only [firstUnpassed_mono walk le]
            cases found with
            | none => exact back _ h
            | some k' => exact h
      · rw [if_neg odd] at h ⊢
        cases walk : firstUnpassed (fun a => (state.x a).next 1)
            (fun a => (k :: p).contains a && a != state.enter_x) fuel
            (state.cols_x (state.x k).j) with
        | none => simp only [walk] at h; cases h
        | some found =>
            simp only [walk] at h
            simp only [firstUnpassed_mono walk le]
            cases found with
            | none => exact back _ h
            | some k' => exact h

theorem simple_reverse (even : p.length % 2 = 0) (different : (tips state.x p).Nodup) :
    Simple state p.reverse := by
  obtain ⟨rows, cols⟩ := places_reverse (x := state.x) even
  rw [Simple, rows, cols, List.nodup_reverse, List.nodup_reverse]
  constructor
  · refine different.filterMap fun v v' i left left' => ?_
    rw [Option.mem_def, Sum.getLeft?_eq_some_iff] at left left'
    rw [left, left']
  · refine different.filterMap fun v v' j right right' => ?_
    rw [Option.mem_def, Sum.getRight?_eq_some_iff] at right right'
    rw [right, right']

theorem emdFindLoop_spec {cell : ℕ → ℕ → Bool} (spans : Spans state cell)
    (lists : Entered state row col) :
    ∃ loop n, (∀ fuel, n ≤ fuel → emdFindLoop fuel state = some loop) ∧
      (IsLoop state loop ∧ Simple state loop) ∧
      ∀ loop', IsLoop state loop' → loop' = loop := by
  obtain ⟨p, stacked, closes, different⟩ := spans.exists_closed lists
  have backtracks := lists.backtracks (Nat.lt_succ_self state.end_x)
  obtain ⟨q, n, stacked', closes', run⟩ := backtracks.finds lists.bounded stacked closes
  have stack := lists.stack stacked'
  have same := spans.closed_unique lists (lists.stack stacked) closes stack closes'
  subst same
  have isLoop : IsLoop state p.reverse := isLoop_reverse.mpr ⟨stack, closes⟩
  refine ⟨p.reverse, max n (state.end_x + 1), ?_, ⟨isLoop, ?_⟩, ?_⟩
  · intro fuel le
    have more : state.end_x + 1 ≤ fuel := (Nat.le_max_right _ _).trans le
    have step : ∀ s t r, s = t → emdFindLoopTurn (state.end_x + 1) state s = some r →
        ∃ r', emdFindLoopTurn fuel state t = some r' ∧ Sum.LiftRel Eq Eq r r' := by
      intro s t r same turn
      subst same
      refine ⟨r, emdFindLoopTurn_mono more turn, ?_⟩
      cases r with
      | inl s' => exact .inl rfl
      | inr l => exact .inr rfl
    obtain ⟨r, run', same⟩ := Turn.run_related Eq Eq step rfl run
    rw [emdFindLoop, Turn.run_mono run' ((Nat.le_max_left _ _).trans le), same]
  · exact simple_reverse ((alternates_reverse p _).mp isLoop.moves).1 different
  · intro loop' other
    rw [← loop'.reverse_reverse] at other
    obtain ⟨stack', closed⟩ := isLoop_reverse.mp other
    have same := spans.closed_unique lists stack' closed stack closes
    rw [← same, List.reverse_reverse]

end

end MilkyWay.NBody
