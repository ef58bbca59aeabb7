import MilkyWay.NBody.TreeInvariant
import MilkyWay.Foundation.Simulation

/-! The tree with test particles behind the bodies it is made of. `Enlarged` relates the
two memories; every function of the construction keeps it, with any larger fuel on the
second side, so that `nbMakeTree_enlarged` makes the same tree of both. -/

namespace MilkyWay.NBody

open Foundation

def LeadsBelow (n : ℕ) : NodePtr → Prop
  | .leaf b => b < n
  | _ => True

theorem LeadsBelow.update {n : ℕ} {s : Fin 8 → NodePtr} (h : ∀ i, LeadsBelow n (s i)) {q : NodePtr}
    (hq : LeadsBelow n q) (j i : Fin 8) : LeadsBelow n (Function.update s j q i) := by
  by_cases hij : i = j
  · subst hij
    rw [Function.update_self]
    exact hq
  · rw [Function.update_of_ne hij]
    exact h i

structure CellBelow {R : Type} (n : ℕ) (q : NBodyCell R) : Prop where
  next : LeadsBelow n q.next
  more : LeadsBelow n q.more
  sub : ∀ s, q.stuff = .subp s → ∀ i, LeadsBelow n (s i)

section
variable {R : Type} [Zero R] [BEq R]

/-- The memory `t'` is `t` with test particles behind its `n` bodies, to which no pointer
leads; no incest has been met. -/
structure Enlarged (n : ℕ) (t t' : TreeState R) : Prop where
  tree : t'.tree = t.tree
  freeCell : t'.freeCell = t.freeCell
  heap : t'.heap = t.heap
  heapTop : t'.heapTop = t.heapTop
  nbody : t.nbody = n
  le_nbody : n ≤ t'.nbody
  body : ∀ b < n, t'.bodytab b = t.bodytab b
  massless : ∀ b, n ≤ b → ((t'.bodytab b).mass != 0) = false
  root : LeadsBelow n t.tree.root
  free : LeadsBelow n t.freeCell
  cell : ∀ c, CellBelow n (t.heap c)
  next : ∀ b < n, LeadsBelow n (t.bodytab b).next
  treeIncest : t.treeIncest = false
  treeIncest' : t'.treeIncest = false

namespace Enlarged

variable {n : ℕ} {t t' : TreeState R}

theorem pos (h : Enlarged n t t') {p : NodePtr} (known : LeadsBelow n p) :
    t'.pos p = t.pos p := by
  cases p with
  | leaf b => rw [TreeState.pos, TreeState.pos, h.body b known]
  | cell c => rw [TreeState.pos, TreeState.pos, h.heap]
  | null => rfl
  | wild => rfl

theorem mass (h : Enlarged n t t') {p : NodePtr} (known : LeadsBelow n p) :
    t'.mass p = t.mass p := by
  cases p with
  | leaf b => rw [TreeState.mass, TreeState.mass, h.body b known]
  | cell c => rw [TreeState.mass, TreeState.mass, h.heap]
  | null => rfl
  | wild => rfl

theorem isBody (h : Enlarged n t t') {b : ℕ} (known : b < n) : t'.isBody b = t.isBody b := by
  rw [TreeState.isBody, TreeState.isBody, h.body b known]

theorem subp (h : Enlarged n t t') (c : ℕ) :
    Simulates (fun s s' => s' = s ∧ ∀ i, LeadsBelow n (s i)) (t.subp c) (t'.subp c) := by
  rw [TreeState.subp, TreeState.subp, h.heap]
  cases stuff : (t.heap c).stuff with
  | subp s => exact .some ⟨rfl, (h.cell c).sub s stuff⟩
  | quad m => exact .none _

theorem setCell (h : Enlarged n t t') (c : ℕ) {f : NBodyCell R → NBodyCell R}
    (below : CellBelow n (t.heap c) → CellBelow n (f (t.heap c))) :
    Enlarged n (t.setCell c f) (t'.setCell c f) :=
  { h with
    heap := by rw [TreeState.setCell_heap, TreeState.setCell_heap, h.heap]
    cell := fun a => by
      rw [TreeState.setCell_heap]
      by_cases ha : a = c
      · subst ha
        rw [Function.update_self]
        exact below (h.cell a)
      · rw [Function.update_of_ne ha]
        exact h.cell a }

theorem setTree (h : Enlarged n t t') {f : NBodyTree R → NBodyTree R}
    (root : LeadsBelow n (f t.tree).root) : Enlarged n (t.setTree f) (t'.setTree f) :=
  { h with
    tree := by rw [TreeState.setTree_tree, TreeState.setTree_tree, h.tree]
    root := root }

theorem setFree (h : Enlarged n t t') {p : NodePtr} (below : LeadsBelow n p) :
    Enlarged n { t with freeCell := p } { t' with freeCell := p } :=
  { h with
    freeCell := rfl
    free := below }

theorem setTop (h : Enlarged n t t') (top : ℕ) :
    Enlarged n { t with heapTop := top } { t' with heapTop := top } :=
  { h with heapTop := rfl }

theorem setSubp (h : Enlarged n t t') (c : ℕ) {s : Fin 8 → NodePtr}
    (below : ∀ i, LeadsBelow n (s i)) : Enlarged n (t.setSubp c s) (t'.setSubp c s) :=
  h.setCell c fun q => ⟨q.next, q.more, fun s' hs' => by cases hs'; exact below⟩

theorem setNext (h : Enlarged n t t') {p q : NodePtr} (known : LeadsBelow n p)
    (below : LeadsBelow n q) : Simulates (Enlarged n) (t.setNext p q) (t'.setNext p q) := by
  cases p with
  | null => exact .none _
  | wild => exact .none _
  | cell c => exact .some (h.setCell c fun q => ⟨below, q.more, q.sub⟩)
  | leaf b =>
      refine .some
        { h with
          body := fun a ha => ?_
          massless := fun a ha => ?_
          next := fun a ha => ?_ }
      · by_cases hab : a = b
        · subst hab
          simp only [Function.update_self, h.body a ha]
        · simp only [Function.update_of_ne hab, h.body a ha]
      · have hab : a ≠ b := by
          rintro rfl
          exact absurd known (not_lt.mpr ha)
        simp only [Function.update_of_ne hab]
        exact h.massless a ha
      · by_cases hab : a = b
        · subst hab
          simp only [Function.update_self]
          exact below
        · simp only [Function.update_of_ne hab]
          exact h.next a ha

end Enlarged

def SameCell (n : ℕ) (x y : ℕ × TreeState R) : Prop := y.1 = x.1 ∧ Enlarged n x.2 y.2

section
variable {n : ℕ} {t t' : TreeState R}

theorem nbMakeCell_enlarged (h : Enlarged n t t') :
    Simulates (SameCell n) (nbMakeCell t) (nbMakeCell t') := by
  have finish : ∀ {s s' : TreeState R} (c : ℕ), Enlarged n s s' → SameCell n
      (c, (s.setCell c fun q => { q with more := .null, stuff := .subp fun _ => .null }).setTree
        fun b => { b with cellUsed := b.cellUsed + 1 })
      (c, (s'.setCell c fun q => { q with more := .null, stuff := .subp fun _ => .null }).setTree
        fun b => { b with cellUsed := b.cellUsed + 1 }) := by
    intro s s' c h
    have made := h.setCell c (f := fun q => { q with more := .null, stuff := .subp fun _ => .null })
      fun q => ⟨q.next, trivial, fun s hs i => by cases hs; trivial⟩
    exact ⟨rfl, made.setTree (f := fun b => { b with cellUsed := b.cellUsed + 1 }) made.root⟩
  simp only [nbMakeCell, h.freeCell, Option.bind_eq_bind, Option.pure_def]
  have next : ∀ c, (t'.heap c).next = (t.heap c).next := fun c => by rw [h.heap]
  cases free : t.freeCell with
  | null =>
      rw [h.heapTop]
      exact .some (finish _ ((h.setFree (p := .null) trivial).setTop _))
  | cell c =>
      simp only [Option.bind_some, next]
      exact .some (finish c (h.setFree (h.cell c).next))
  | wild => exact .none _
  | leaf b => exact .none _

theorem reclaimLoop_enlarged {fuel fuel' : ℕ} (le : fuel ≤ fuel') {p : NodePtr}
    (h : Enlarged n t t') (known : LeadsBelow n p) :
    Simulates (Enlarged n) (reclaimLoop fuel t p) (reclaimLoop fuel' t' p) := by
  induction fuel generalizing t t' fuel' p with
  | zero => exact .none _
  | succ fuel ih =>
      obtain ⟨more, rfl⟩ := Nat.exists_eq_add_of_le le
      rw [Nat.add_right_comm]
      have le : fuel ≤ fuel + more := Nat.le_add_right ..
      cases p with
      | null => exact .some h
      | wild => exact .none _
      | leaf b =>
          rw [reclaimLoop, reclaimLoop, h.isBody known, h.body b known]
          exact .guard (ih le h (h.next b known))
      | cell c =>
          rw [reclaimLoop, reclaimLoop, h.heap, h.freeCell]
          have one := (h.setCell c (f := fun q => { q with next := t.freeCell })
            fun q => ⟨h.free, q.more, q.sub⟩).setFree (p := .cell c) trivial
          exact ih le one (h.cell c).more

theorem nbNewTree_enlarged {fuel fuel' : ℕ} (le : fuel ≤ fuel') (h : Enlarged n t t') :
    Simulates (Enlarged n) (nbNewTree fuel t) (nbNewTree fuel' t') := by
  rw [nbNewTree, nbNewTree, h.tree]
  refine .bind (reclaimLoop_enlarged le h h.root) fun s s' h => ?_
  have cleared := h.setTree (f := fun b => { b with cellUsed := 0, maxDepth := 0 }) h.root
  refine .bind (nbMakeCell_enlarged cleared) fun s s' related => ?_
  obtain ⟨c, s⟩ := s
  obtain ⟨c', s'⟩ := s'
  obtain ⟨same, h⟩ := related
  cases same
  have rooted := h.setTree (f := fun b => { b with root := .cell c }) trivial
  exact .some (rooted.setCell c fun q => ⟨q.next, q.more, q.sub⟩)

end

end

section
variable {R : Type} [Zero R] [Add R] [Neg R] [Sub R] [Mul R] [Div R] [OfScientific R] [BEq R]
  [LT R] [DecidableLT R] [LE R] [DecidableLE R] {n : ℕ} {t t' : TreeState R}

section
omit [Sub R] [Div R]

theorem splitSlot_enlarged (h : Enlarged n t t') (q : ℕ) (qind : Fin 8) (x : Vec3 R) {o : ℕ}
    (known : o < n) (qsize : R) :
    Simulates (SameCell n) (splitSlot t q qind x o qsize) (splitSlot t' q qind x o qsize) := by
  refine .bind (nbMakeCell_enlarged h) fun ⟨c, s⟩ ⟨c', s'⟩ ⟨same, h⟩ => ?_
  cases same
  dsimp only at h ⊢
  rw [h.heap]
  have placed := h.setCell c
    (f := fun r => { r with pos := nbInitMidpoint x (s.heap q).pos qsize })
    fun q => ⟨q.next, q.more, q.sub⟩
  refine .bind (placed.subp c) fun sub _ ⟨same, below⟩ => ?_
  cases same
  rw [placed.heap, placed.body o known]
  have filled := placed.setSubp c fun i => LeadsBelow.update below (q := .leaf o) known
    (nbSubIndex (s.bodytab o).pos
      ((s.setCell c fun r => { r with pos := nbInitMidpoint x (s.heap q).pos qsize }).heap c).pos) i
  refine .bind (filled.subp q) fun sub' _ ⟨same, below'⟩ => ?_
  cases same
  exact .some ⟨rfl, filled.setSubp q fun i =>
    LeadsBelow.update below' (q := .cell c) trivial qind i⟩

theorem loadLoop_enlarged {B : Build R} {fuel fuel' : ℕ} (le : fuel ≤ fuel') {p : ℕ} (known : p < n)
    (h : Enlarged n t t') (q : ℕ) (qsize : R) (lev : ℕ) :
    Simulates (Enlarged n) (loadLoop B p fuel t q qsize lev)
      (loadLoop B p fuel' t' q qsize lev) := by
  induction fuel generalizing t t' fuel' q qsize lev with
  | zero => exact .none _
  | succ fuel ih =>
      obtain ⟨more, rfl⟩ := Nat.exists_eq_add_of_le le
      rw [Nat.add_right_comm, loadLoop, loadLoop, h.heap, h.body p known]
      have le : fuel ≤ fuel + more := Nat.le_add_right ..
      refine .bind (h.subp q) fun sub _ related => ?_
      obtain ⟨same, below⟩ := related
      cases same
      have slot := below (nbSubIndex (t.bodytab p).pos (t.heap q).pos)
      have failed := h.setTree (f := fun b => { b with structureError := true }) h.root
      cases hs : sub (nbSubIndex (t.bodytab p).pos (t.heap q).pos) with
      | null =>
          have stored := h.setSubp q fun i => LeadsBelow.update below
            (q := .leaf p) known (nbSubIndex (t.bodytab p).pos (t.heap q).pos) i
          exact .some (stored.setTree (f := fun b => { b with maxDepth := max b.maxDepth lev })
            stored.root)
      | wild => exact .none _
      | leaf o =>
          rw [hs] at slot
          by_cases small : qsize ≤ B.epsilon
          · simp only [if_pos small]
            exact .some failed
          · simp only [if_neg small, h.isBody slot]
            refine .guard (.bind (splitSlot_enlarged h q _ _ slot qsize) fun s s' related => ?_)
            obtain ⟨same, h⟩ := related
            rw [same]
            exact ih le h s.1 (qsize * 0.5) (lev + 1)
      | cell c =>
          by_cases small : qsize ≤ B.epsilon
          · simp only [if_pos small]
            exact .some failed
          · simp only [if_neg small]
            exact ih le h c (qsize * 0.5) (lev + 1)

theorem nbLoadBody_enlarged {B : Build R} {fuel fuel' : ℕ} (le : fuel ≤ fuel') {p : ℕ}
    (known : p < n) (h : Enlarged n t t') :
    Simulates (Enlarged n) (nbLoadBody B fuel t p) (nbLoadBody B fuel' t' p) := by
  rw [nbLoadBody, nbLoadBody, h.tree]
  cases t.tree.root with
  | cell q => exact loadLoop_enlarged le known h q t.tree.rsize 0
  | null => exact .none _
  | wild => exact .none _
  | leaf b => exact .none _

theorem loadBodies_enlarged {B : Build R} {fuel fuel' : ℕ} (le : fuel ≤ fuel')
    (h : Enlarged n t t') :
    Simulates (Enlarged n) (loadBodies B fuel t) (loadBodies B fuel' t') := by
  obtain ⟨added, more⟩ := Nat.exists_eq_add_of_le h.le_nbody
  let load (k : ℕ) (s : TreeState R) (p : ℕ) : Option (TreeState R) :=
    if (s.bodytab p).mass != 0 then nbLoadBody B k s p else some s
  have skip : ∀ (l : List ℕ) (s s' : TreeState R), Enlarged n s s' →
      (l.map (n + ·)).foldlM (load fuel') s' = some s' := by
    intro l s s' h
    induction l with
    | nil => rfl
    | cons p l ih =>
        have massless : load fuel' s' (n + p) = some s' := by
          simp only [load, h.massless _ (Nat.le_add_right ..), Bool.false_eq_true, if_false]
        rw [List.map_cons, List.foldlM_cons, massless]
        exact ih
  have first : Simulates (Enlarged n) ((List.range n).foldlM (load fuel) t)
      ((List.range n).foldlM (load fuel') t') := by
    refine Simulates.foldlM (List.range n) (fun p hp s s' h => ?_) h
    have known := List.mem_range.mp hp
    simp only [load, h.body p known]
    by_cases massive : ((s.bodytab p).mass != 0) = true
    · rw [if_pos massive, if_pos massive]
      exact nbLoadBody_enlarged le known h
    · rw [if_neg massive, if_neg massive]
      exact .some h
  intro s run
  rw [loadBodies, h.nbody] at run
  obtain ⟨s', loaded, kept⟩ := first s run
  refine ⟨s', ?_, kept⟩
  rw [loadBodies, more, List.range_add, List.foldlM_append, loaded]
  exact skip _ s s' kept

end

section
omit [Neg R] [Sub R] [Div R] [OfScientific R] [LT R] [DecidableLT R] [LE R] [DecidableLE R]

theorem sumSubnode_enlarged (h : Enlarged n t t') {q : NodePtr} (known : LeadsBelow n q) (p : ℕ)
    (cmpos : Vec3 R) : Simulates (fun x y => y.2 = x.2 ∧ Enlarged n x.1 y.1)
      (sumSubnode p q t cmpos) (sumSubnode p q t' cmpos) := by
  rw [sumSubnode, sumSubnode, h.mass known, h.pos known]
  refine .bind_same fun m _ => .bind_same fun x _ => .some ⟨rfl, ?_⟩
  exact h.setCell p (f := fun c => { c with mass := c.mass + m }) fun q => ⟨q.next, q.more, q.sub⟩

theorem sumTurn_enlarged {pass pass' : TreeState R → ℕ → Option (TreeState R)}
    (passes : ∀ s s' c, Enlarged n s s' → Simulates (Enlarged n) (pass s c) (pass' s' c)) (p : ℕ)
    (i : Fin 8) (h : Enlarged n t t') (cmpos : Vec3 R) :
    Simulates (fun x y => y.2 = x.2 ∧ Enlarged n x.1 y.1)
      (sumTurn pass p (t, cmpos) i) (sumTurn pass' p (t', cmpos) i) := by
  refine .bind (h.subp p) fun sub _ ⟨same, below⟩ => ?_
  cases same
  have slot := below i
  cases hs : sub i with
  | null => exact .some ⟨rfl, h⟩
  | wild => exact .none _
  | leaf b =>
      rw [hs] at slot
      dsimp only
      rw [h.isBody slot]
      exact .guard (sumSubnode_enlarged h slot p cmpos)
  | cell c =>
      refine .bind (passes t t' c h) fun s s' h => ?_
      exact sumSubnode_enlarged h (q := .cell c) trivial p cmpos

end

omit [Neg R] [LE R] [DecidableLE R] in
theorem finishCofM_enlarged {B : Build R} {ctx : NBodyCtx R} (h : Enlarged n t t') (p : ℕ)
    (psize : R) (cmpos : Vec3 R) : Simulates (Enlarged n) (finishCofM B ctx p psize t cmpos)
      (finishCofM B ctx p psize t' cmpos) := by
  rw [finishCofM, finishCofM, h.heap]
  dsimp only [TreeState.setTree_tree]
  rw [h.tree]
  refine .bind_same fun rcrit2 _ => .some ?_
  have checked := h.setTree (f := fun b => nbCheckTreeStructure b (t.heap p).pos
    (if 0 < (t.heap p).mass then mw_divvs cmpos (t.heap p).mass else (t.heap p).pos) psize) h.root
  exact checked.setCell p fun q => ⟨q.next, q.more, q.sub⟩

omit [Neg R] in
theorem hackCofM_enlarged {B : Build R} {ctx : NBodyCtx R} {fuel fuel' : ℕ} (le : fuel ≤ fuel')
    (h : Enlarged n t t') (p : ℕ) (psize : R) :
    Simulates (Enlarged n) (hackCofM B ctx fuel t p psize) (hackCofM B ctx fuel' t' p psize) := by
  induction fuel generalizing t t' fuel' p psize with
  | zero => exact .none _
  | succ fuel ih =>
      obtain ⟨more, rfl⟩ := Nat.exists_eq_add_of_le le
      rw [Nat.add_right_comm, hackCofM, hackCofM]
      have le : fuel ≤ fuel + more := Nat.le_add_right ..
      refine .bind_same fun _ _ => ?_
      have cleared := h.setCell p (f := fun c => { c with mass := 0 }) fun q =>
        ⟨q.next, q.more, q.sub⟩
      refine .bind (r := fun x y => y.2 = x.2 ∧ Enlarged n x.1 y.1)
        (Simulates.foldlM _ ?_ ⟨rfl, cleared⟩) ?_
      · rintro i - ⟨s, _⟩ ⟨s', cmpos⟩ ⟨rfl, h⟩
        exact sumTurn_enlarged (fun s s' c h => ih le h c (0.5 * psize)) p i h cmpos
      · rintro ⟨s, _⟩ ⟨s', cmpos⟩ ⟨rfl, h⟩
        exact finishCofM_enlarged h p psize cmpos

section
omit [Add R] [Neg R] [Sub R] [Mul R] [Div R] [OfScientific R] [LT R] [DecidableLT R] [LE R]
  [DecidableLE R]

theorem leadsBelow_of_mem_occupied {sub : Fin 8 → NodePtr} (below : ∀ i, LeadsBelow n (sub i))
    {q : NodePtr} (hq : q ∈ occupied sub) : LeadsBelow n q := by
  obtain ⟨i, -, rfl⟩ := List.mem_map.mp (List.mem_filter.mp hq).1
  exact below i

theorem threadTree_enlarged {fuel fuel' : ℕ} (le : fuel ≤ fuel') (h : Enlarged n t t')
    {p q : NodePtr} (known : LeadsBelow n p) (below : LeadsBelow n q) :
    Simulates (Enlarged n) (threadTree fuel t p q) (threadTree fuel' t' p q) := by
  induction fuel generalizing t t' fuel' p q with
  | zero => exact .none _
  | succ fuel ih =>
      obtain ⟨more, rfl⟩ := Nat.exists_eq_add_of_le le
      rw [Nat.add_right_comm, threadTree, threadTree]
      have le : fuel ≤ fuel + more := Nat.le_add_right ..
      refine .bind (h.setNext known below) fun s s' h => ?_
      cases p with
      | cell c =>
          refine .bind (h.subp c) fun sub _ related => ?_
          obtain ⟨same, inside⟩ := related
          cases same
          have head : LeadsBelow n ((occupied sub).headD .wild) := by
            cases hd : occupied sub with
            | nil => exact trivial
            | cons d l =>
                exact leadsBelow_of_mem_occupied inside (q := d) (by rw [hd]; exact .head _)
          have opened := h.setCell c (f := fun q => { q with more := (occupied sub).headD .wild })
            fun q => ⟨q.next, head, q.sub⟩
          refine Simulates.foldlM _ (fun d hd s s' h => ?_) opened
          refine ih le h (leadsBelow_of_mem_occupied inside (List.of_mem_zip hd).1) ?_
          obtain tail | last := List.mem_append.mp (List.of_mem_zip hd).2
          · exact leadsBelow_of_mem_occupied inside (List.mem_of_mem_tail tail)
          · rw [List.mem_singleton.mp last]
            exact below
      | null => exact .none _
      | wild => exact .none _
      | leaf b =>
          dsimp only
          rw [h.isBody known]
          exact .guard (.some h)

end

section
omit [Neg R] [Div R] [LT R] [DecidableLT R] [LE R] [DecidableLE R]

theorem sumQuad_enlarged {B : Build R} (h : Enlarged n t t') {q : NodePtr}
    (known : LeadsBelow n q) (p : ℕ) (own : Option (NBodyQuadMatrix R)) :
    Simulates (Enlarged n) (sumQuad B p q own t) (sumQuad B p q own t') := by
  have quads : quad B t' p = quad B t p := by rw [quad, quad, h.heap]
  rw [sumQuad, sumQuad, h.mass known, h.pos known, h.heap, quads]
  refine .bind_same fun x _ => .bind_same fun m _ => .some ?_
  exact h.setCell p fun q => ⟨q.next, q.more, fun s hs => by cases hs⟩

theorem hackQuad_enlarged {B : Build R} {fuel fuel' : ℕ} (le : fuel ≤ fuel')
    (h : Enlarged n t t') (p : ℕ) :
    Simulates (Enlarged n) (hackQuad B fuel t p) (hackQuad B fuel' t' p) := by
  induction fuel generalizing t t' fuel' p with
  | zero => exact .none _
  | succ fuel ih =>
      obtain ⟨more, rfl⟩ := Nat.exists_eq_add_of_le le
      rw [Nat.add_right_comm, hackQuad, hackQuad]
      have le : fuel ≤ fuel + more := Nat.le_add_right ..
      refine .bind (h.subp p) fun sub _ related => ?_
      obtain ⟨same, inside⟩ := related
      cases same
      refine Simulates.foldlM _ (fun q hq s s' h => ?_) h
      have known := leadsBelow_of_mem_occupied inside hq
      cases q with
      | cell c =>
          refine .bind (ih le h c) fun s s' h => ?_
          have quads : quad B s' c = quad B s c := by rw [quad, quad, h.heap]
          rw [quads]
          exact sumQuad_enlarged h (q := .cell c) trivial p _
      | null => exact .none _
      | wild => exact .none _
      | leaf b =>
          rw [quadTurn, quadTurn, h.isBody known]
          exact .guard (sumQuad_enlarged h (q := .leaf b) known p none)

end

end

section
variable {R : Type} [Field R] [LinearOrder R] [IsStrictOrderedRing R] {n : ℕ} {t t' : TreeState R}

theorem expandLoop_enlarged {m m' rsize r : R} {fuel fuel' : ℕ} (le : fuel ≤ fuel') (less : m ≤ m')
    (holds : 2 * m' ≤ r) (run : expandLoop m fuel rsize = some r) :
    expandLoop m' fuel' rsize = some r := by
  have two : (2.0 : R) = 2 := by norm_num
  induction fuel generalizing rsize fuel' with
  | zero => cases run
  | succ fuel ih =>
      obtain ⟨more, rfl⟩ := Nat.exists_eq_add_of_le le
      have le : fuel ≤ fuel + more := Nat.le_add_right ..
      rw [expandLoop] at run
      rw [Nat.add_right_comm, expandLoop]
      by_cases small : rsize < 2.0 * m
      · rw [if_pos small] at run
        have small' : rsize < 2.0 * m' := by
          rw [two] at small ⊢
          linarith
        rw [if_pos small']
        exact ih le run
      · rw [if_neg small, Option.some.injEq] at run
        have large : ¬rsize < 2.0 * m' := by
          rw [two, run]
          exact not_lt.mpr holds
        rw [if_neg large, run]

theorem expandBox_enlarged {B : Build R} {fuel fuel' : ℕ} (le : fuel ≤ fuel')
    (h : Enlarged n t t') {s : TreeState R} (root : t.pos t.tree.root = some 0)
    (run : expandBox B fuel t = some s)
    (inside : ∀ b, n ≤ b → b < t'.nbody →
      (Cube.mk 0 s.tree.rsize).Contains (t'.bodytab b).pos) :
    ∃ s', expandBox B fuel' t' = some s' ∧ Enlarged n s s' := by
  obtain ⟨o, r, ho, loop, rfl⟩ := expandBox_eq run
  rw [root, Option.some.injEq] at ho
  subst ho
  have bound := expandLoop_le loop
  obtain ⟨nonneg, -⟩ := (xyzmax_le_iff t 0 _).mp le_rfl
  obtain ⟨nonneg', far⟩ := (xyzmax_le_iff t' 0 _).mp le_rfl
  have less : xyzmax t 0 ≤ xyzmax t' 0 := by
    refine (xyzmax_le_iff t 0 _).mpr ⟨nonneg', fun b hb => ?_⟩
    rw [h.nbody] at hb
    rw [← h.body b hb]
    exact far b (hb.trans_le h.le_nbody)
  have holds : xyzmax t' 0 ≤ r / 2 := by
    refine (xyzmax_le_iff t' 0 _).mpr ⟨by linarith, fun b hb => ?_⟩
    by_cases known : b < n
    · obtain ⟨hx, hy, hz⟩ := le_xyzmax t 0 b (by rw [h.nbody]; exact known)
      rw [h.body b known]
      exact ⟨by linarith, by linarith, by linarith⟩
    · exact inside b (not_lt.mp known) hb
  have loop' := expandLoop_enlarged le less (by linarith) loop
  have assertion : B.assert (0 < t.tree.rsize) = some () := by
    simp only [expandBox, Option.bind_eq_bind, Option.bind_eq_some_iff] at run
    obtain ⟨-, -, ⟨⟩, assertion, -⟩ := run
    exact assertion
  refine ⟨t'.setTree fun b => { b with rsize := r }, ?_, h.setTree h.root⟩
  simp only [expandBox, h.tree, h.pos h.root, root, assertion, loop', Option.bind_eq_bind,
    Option.bind_some, Option.pure_def]

theorem nbMakeTree_enlarged {B : Build R} {ctx : NBodyCtx R} {fuel fuel' : ℕ} (le : fuel ≤ fuel')
    (h : Enlarged n t t') (ok : TreeOk t) (ok' : TreeOk t') {rc : NBodyStatus} {s : TreeState R}
    (run : nbMakeTree B ctx fuel t = some (rc, s))
    (inside : ∀ b, n ≤ b → b < t'.nbody →
      (Cube.mk 0 s.tree.rsize).Contains (t'.bodytab b).pos) :
    ∃ s', nbMakeTree B ctx fuel' t' = some (rc, s') ∧ Enlarged n s s' := by
  obtain ⟨t₁, t₂, -, new, expand, -⟩ := nbMakeTree_stages run
  rw [nbMakeTree_rsize ok run new expand] at inside
  obtain ⟨t₁', new', h₁⟩ := nbNewTree_enlarged le h t₁ new
  obtain ⟨c, -, -, -, -, tree, pos, -⟩ := nbNewTree_spec ok new
  obtain ⟨-, -, -, -, bodies, -⟩ := nbNewTree_spec ok' new'
  have root : t₁.pos t₁.tree.root = some 0 := by
    rw [tree, TreeState.pos, pos]
  obtain ⟨t₂', expand', h₂⟩ := expandBox_enlarged le h₁ root expand fun b known hb => by
    rw [bodies.nbody] at hb
    rw [bodies.bodytab]
    exact inside b known hb
  have rest : Simulates (fun x y : NBodyStatus × TreeState R => y.1 = x.1 ∧ Enlarged n x.2 y.2)
      (nbMakeTree B ctx fuel t) (nbMakeTree B ctx fuel' t') := by
    rw [nbMakeTree, nbMakeTree, new, new', Option.bind_eq_bind, Option.bind_eq_bind,
      Option.bind_some, Option.bind_some, expand, expand']
    refine .bind (Simulates.some (r := Enlarged n) h₂) fun _ _ h₂ => ?_
    refine .bind (loadBodies_enlarged le h₂) fun t₃ t₃' h₃ => ?_
    rw [h₃.tree]
    by_cases error₃ : t₃.tree.structureError = true
    · rw [if_pos error₃, if_pos error₃]
      exact .some ⟨rfl, h₃⟩
    · rw [if_neg error₃, if_neg error₃]
      refine .bind_same fun c _ => .bind (hackCofM_enlarged le h₃ c _) fun t₄ t₄' h₄ => ?_
      rw [h₄.tree]
      by_cases error₄ : t₄.tree.structureError = true
      · rw [if_pos error₄, if_pos error₄]
        exact .some ⟨rfl, h₄⟩
      · rw [if_neg error₄, if_neg error₄]
        refine .bind (threadTree_enlarged le h₄ (p := .cell c) (q := .null) trivial trivial)
          fun t₅ t₅' h₅ => ?_
        refine .map (r := Enlarged n) ?_ fun _ _ h => ⟨rfl, h⟩
        by_cases quads : ctx.useQuad = true
        · rw [if_pos quads, if_pos quads]
          exact hackQuad_enlarged le h₅ c
        · rw [if_neg quads, if_neg quads]
          exact .some h₅
  obtain ⟨⟨rc', s'⟩, run', rfl, kept⟩ := rest _ run
  exact ⟨s', run', kept⟩

end

end MilkyWay.NBody
