import MilkyWay.Foundation.Insertion

/-! Depth-first walks of octrees with an explicit stack. A frame holds a node and the
position of its next child. Whether a cell is entered is asked with the node on top of the
stack; `run_stored` says that a run is the depth-first walk, in the order in which the
children are stored. -/

namespace MilkyWay.Foundation

/-- What a walk does with a node it comes to: a leaf; a cell that is accepted as a child of
`c` at level `L`; a cell whose children come next. -/
inductive StackVisit (ν β : Type*) where
  | leaf (b : β)
  | accept (L : ℕ) (c d : ν)
  | enter (d : ν)

structure StackWalk (ν β : Type*) where
  child : ν → ℕ → Option (ν ⊕ β)
  accepts : ℕ → ν → ν → Bool
  limit : ℕ

namespace StackWalk

variable {ν β κ σ : Type*}

/-- The deepest frame stands first. An empty slot ends a node, except for the last frame,
which goes through all its slots. -/
def run (W : StackWalk ν β) (visit : σ → StackVisit ν β → σ) :
    ℕ → List (ν × ℕ) → σ → Option σ
  | 0, _, _ => none
  | _ + 1, [], s => some s
  | fuel + 1, (c, k) :: rest, s =>
      if k < 8 then
        match W.child c k with
        | some (.inr b) => W.run visit fuel ((c, k + 1) :: rest) (visit s (.leaf b))
        | some (.inl d) =>
            if W.accepts rest.length c d then
              W.run visit fuel ((c, k + 1) :: rest) (visit s (.accept rest.length c d))
            else if rest.length + 1 < W.limit then
              W.run visit fuel ((d, 0) :: (c, k + 1) :: rest) (visit s (.enter d))
            else none
        | none => W.run visit fuel (if rest.isEmpty then [(c, k + 1)] else rest) s
      else W.run visit fuel rest s

/-- The node that stands for a tree in a slot. -/
def top (name : κ → ν) : Octree κ β → Option (ν ⊕ β)
  | .empty => none
  | .leaf b => some (.inr b)
  | .cell c _ => some (.inl (name c))

/-- The children of every cell are stored, in some order and without gaps. -/
def Stored (child : ν → ℕ → Option (ν ⊕ β)) (name : κ → ν) : Octree κ β → Prop
  | .empty => True
  | .leaf _ => True
  | .cell c sub => (∃ order : List (Fin 8),
      order.Perm ((List.finRange 8).filter fun i => (top name (sub i)).isSome) ∧
      ∀ k < 8, child (name c) k = order[k]?.bind fun i => top name (sub i)) ∧
        ∀ i, Stored child name (sub i)

/-- The depth-first walk of a tree below node `c` at level `L`. -/
def visits (W : StackWalk ν β) (name : κ → ν) : ℕ → ν → Octree κ β → List (StackVisit ν β)
  | _, _, .empty => []
  | _, _, .leaf b => [.leaf b]
  | L, c, .cell d sub =>
      if W.accepts L c (name d) then [.accept L c (name d)]
      else .enter (name d) ::
        (List.finRange 8).flatMap fun i => W.visits name (L + 1) (name d) (sub i)

def visitsBelow (W : StackWalk ν β) (name : κ → ν) (L : ℕ) (c : κ) (sub : Fin 8 → Octree κ β) :
    List (StackVisit ν β) :=
  (List.finRange 8).flatMap fun i => W.visits name L (name c) (sub i)

variable {W : StackWalk ν β} {name : κ → ν} {visit : σ → StackVisit ν β → σ}

theorem flatMap_filter_of_nil {ι γ : Type*} (l : List ι) (keep : ι → Bool) (f : ι → List γ)
    (h : ∀ i, keep i = false → f i = []) : (l.filter keep).flatMap f = l.flatMap f := by
  induction l with
  | nil => rfl
  | cons i l ih =>
      cases hi : keep i with
      | true => rw [List.filter_cons_of_pos hi, List.flatMap_cons, List.flatMap_cons, ih]
      | false =>
          rw [List.filter_cons_of_neg (by simp [hi]), List.flatMap_cons, h i hi, ih,
            List.nil_append]

theorem run_done {c : ν} {rest : List (ν × ℕ)} {k : ℕ}
    (done : ∀ j, k ≤ j → j < 8 → W.child c j = none) :
    ∃ n, ∀ extra s, W.run visit (n + extra) ((c, k) :: rest) s = W.run visit extra rest s := by
  generalize left : 8 - k = m
  induction m generalizing k with
  | zero =>
      refine ⟨1, fun extra s => ?_⟩
      rw [Nat.add_comm, run, if_neg (by omega)]
  | succ m ih =>
      have more : k < 8 := by omega
      cases rest with
      | nil =>
          obtain ⟨n, hn⟩ := ih (k := k + 1) (fun j hj => done j (by omega)) (by omega)
          refine ⟨n + 1, fun extra s => ?_⟩
          rw [Nat.add_right_comm, run, if_pos more, done k le_rfl more]
          exact hn extra s
      | cons f rest =>
          refine ⟨1, fun extra s => ?_⟩
          rw [Nat.add_comm, run, if_pos more, done k le_rfl more]
          rfl

theorem run_children {c : κ} {sub : Fin 8 → Octree κ β} {rest : List (ν × ℕ)}
    (inside : ∀ i, (sub i).isCell → rest.length + 1 + (sub i).deepest < W.limit)
    (each : ∀ i d inner, sub i = .cell d inner → ∀ rest : List (ν × ℕ),
      rest.length + (sub i).deepest < W.limit →
      ∃ (n : ℕ) (l : List (StackVisit ν β)),
        l.Perm (W.visitsBelow name rest.length d inner) ∧ ∀ extra s,
          W.run visit (n + extra) ((name d, 0) :: rest) s =
            W.run visit extra rest (l.foldl visit s))
    (todo : List (Fin 8)) (k : ℕ) (room : k + todo.length ≤ 8)
    (some_ : ∀ i ∈ todo, (top name (sub i)).isSome)
    (stored : ∀ j, k + j < 8 → W.child (name c) (k + j) = todo[j]?.bind fun i => top name (sub i)) :
    ∃ (n : ℕ) (l : List (StackVisit ν β)),
      l.Perm (todo.flatMap fun i => W.visits name rest.length (name c) (sub i)) ∧ ∀ extra s,
        W.run visit (n + extra) ((name c, k) :: rest) s =
          W.run visit extra rest (l.foldl visit s) := by
  induction todo generalizing k with
  | nil =>
      have empty : ∀ j, k ≤ j → j < 8 → W.child (name c) j = none := by
        intro j hj lt
        have slot := stored (j - k) (by omega)
        rw [Nat.add_sub_cancel' hj] at slot
        exact slot
      obtain ⟨n, hn⟩ : ∃ n, ∀ extra s,
          W.run visit (n + extra) ((name c, k) :: rest) s = W.run visit extra rest s :=
        run_done empty
      exact ⟨n, [], .refl _, hn⟩
  | cons i todo ih =>
      have more : k < 8 := by
        rw [List.length_cons] at room
        omega
      have here : W.child (name c) k = top name (sub i) := stored 0 more
      obtain ⟨n, l, perm, later⟩ := ih (k + 1)
        (by rw [List.length_cons] at room; omega)
        (fun j hj => some_ j (List.mem_cons_of_mem _ hj)) fun j hj => by
          have slot := stored (j + 1) (by omega)
          rw [show k + (j + 1) = k + 1 + j by omega] at slot
          exact slot
      rw [List.flatMap_cons]
      cases hT : sub i with
      | empty =>
          have none_ := some_ i (by simp)
          rw [hT] at none_
          cases none_
      | leaf b =>
          refine ⟨n + 1, .leaf b :: l, perm.cons _, fun extra s => ?_⟩
          rw [Nat.add_right_comm, run, if_pos more, here, hT]
          exact later extra _
      | cell d inner =>
          by_cases accept : W.accepts rest.length (name c) (name d)
          · refine ⟨n + 1, .accept rest.length (name c) (name d) :: l, ?_, fun extra s => ?_⟩
            · rw [visits, if_pos accept]
              exact perm.cons _
            · rw [Nat.add_right_comm, run, if_pos more, here, hT]
              simp only [top, accept, if_true]
              exact later extra _
          · have room := inside i (by rw [hT]; rfl)
            obtain ⟨n', l', perm', below⟩ := each i d inner hT ((name c, k + 1) :: rest) room
            refine ⟨n' + n + 1, .enter (name d) :: (l' ++ l), ?_, fun extra s => ?_⟩
            · rw [visits, if_neg accept]
              exact (perm'.append perm).cons _
            · rw [Nat.add_right_comm, run, if_pos more, here, hT]
              simp only [top, accept, if_neg (by decide : ¬false = true), if_pos
                (show rest.length + 1 < W.limit by omega)]
              rw [Nat.add_assoc, below, later, List.foldl_cons, List.foldl_append]

theorem run_stored (T : Octree κ β) (stored : Stored W.child name T) {c : κ}
    {sub : Fin 8 → Octree κ β} (isCell : T = .cell c sub) (rest : List (ν × ℕ))
    (inside : rest.length + T.deepest < W.limit) :
    ∃ (n : ℕ) (l : List (StackVisit ν β)),
      l.Perm (W.visitsBelow name rest.length c sub) ∧ ∀ extra s,
        W.run visit (n + extra) ((name c, 0) :: rest) s =
          W.run visit extra rest (l.foldl visit s) := by
  induction T generalizing c sub rest with
  | empty => cases isCell
  | leaf b => cases isCell
  | cell a slots ih =>
      cases isCell
      obtain ⟨⟨order, perm, children⟩, below⟩ := stored
      have deep := (Octree.deepest_le a slots _).mp le_rfl
      have short : order.length ≤ 8 := by
        rw [perm.length_eq]
        exact (List.length_filter_le _ _).trans (by simp)
      obtain ⟨n, l, perm', runs⟩ := @run_children _ _ _ _ W name visit a slots rest
        (fun i hi => by have := deep i hi; omega)
        (fun i e inner hi rest' => ih i (below i) hi rest') order 0 (by omega)
        (fun i hi => (List.mem_filter.mp (perm.mem_iff.mp hi)).2)
        (fun j hj => by rw [Nat.zero_add]; exact children j (by omega))
      refine ⟨n, l, perm'.trans ?_, runs⟩
      refine (perm.flatMap_right _).trans ?_
      rw [visitsBelow, flatMap_filter_of_nil]
      intro i none_
      cases hT : slots i with
      | empty => rfl
      | leaf b => simp [hT, top] at none_
      | cell e inner => simp [hT, top] at none_

end StackWalk

end MilkyWay.Foundation
