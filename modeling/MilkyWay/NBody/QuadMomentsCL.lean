import MilkyWay.NBody.Quadrupole
import MilkyWay.NBody.SortCL

/-! The kernel `quadMoments` by the accesses of its work-items. An item adds up the moments of the
children of its cells about the centre of mass and waits for the cells that other items have not
finished; `_quadXX` is stored last and tells the others that the cell is ready. The rest of the
moment of a cell that is ready is read in one step, and that of the own cell stored in one. -/

namespace MilkyWay.NBody

open Foundation Foundation.Octree

inductive QuadPc (R : Type) where
  | check
  | slot (i : ℕ)
  | flag (i d : ℕ)
  | load (d : ℕ) (xx : R) (back : Option ℕ)
  | poll
  | storeRest
  | storeXX
  | done

structure QuadItem (R : Type) where
  pc : QuadPc R
  k : ℕ
  missing : List ℕ
  kq : NBodyQuadMatrix R

def QuadItem.next {R : Type} (l : PassLaunch) (it : QuadItem R) : QuadItem R :=
  { it with k := it.k + l.items, missing := [], pc := .check }

def QuadItem.settle {R : Type} (l : PassLaunch) (it : QuadItem R) : QuadItem R :=
  if it.missing = [] then { it with pc := .storeRest }
  else if l.consistent || l.groups == 1 then { it with pc := .poll }
  else it.next l

variable {R : Type} [Field R]

open Foundation.Numerals in
/-- The moment of a mass `w` at `dr`. -/
def quadCalc (w : R) (dr : Vec3 R) : NBodyQuadMatrix R :=
  let drSq := mad dr.z dr.z (mad dr.y dr.y (dr.x * dr.x))
  { xx := w * (3 * (dr.x * dr.x) - drSq)
    xy := w * (3 * (dr.x * dr.y))
    xz := w * (3 * (dr.x * dr.z))
    yy := w * (3 * (dr.y * dr.y) - drSq)
    yz := w * (3 * (dr.y * dr.z))
    zz := w * (3 * (dr.z * dr.z) - drSq) }

theorem quadCalc_eq (w : R) (dr : Vec3 R) : quadCalc w dr = w • momentMap dr := by
  have square : mad dr.z dr.z (mad dr.y dr.y (dr.x * dr.x)) = dr.normSq := by
    rw [mad, mad, Vec3.normSq]
    ring
  rw [quadCalc, square]
  rfl

/-- The moment that the arrays hold for a cell whose `_quadXX` is `xx`. -/
def NodeCL.moment (r : NodeCL R) (xx : R) : NBodyQuadMatrix R :=
  ⟨xx, r.quadXY, r.quadXZ, r.quadYY, r.quadYZ, r.quadZZ⟩

/-- The next access of a work-item. -/
def quadItemStep (l : PassLaunch) (m : TreeMemory R) (it : QuadItem R) : TreeMemory R × QuadItem R :=
  let node := m.nodes it.k
  match it.pc with
  | .check =>
      if it.k ≤ l.NNODE then
        if l.consistent || node.quadXX.isNone then
          (m, if it.missing = [] then { it with pc := .slot 0, kq := 0 }
            else { it with pc := .poll })
        else (m, it.next l)
      else (m, { it with pc := .done })
  | .slot i =>
      if i < 8 then
        match node.child (slotNumber i) with
        | .body b =>
            let ch := m.nodes b
            (m, { it with pc := .slot (i + 1), kq := it.kq + quadCalc ch.mass (ch.pos - node.pos) })
        | .cell d => (m, { it with pc := .flag i d })
        | _ => (m, { it with pc := .slot (i + 1) })
      else (m, it.settle l)
  | .flag i d =>
      match (m.nodes d).quadXX with
      | some xx => (m, { it with pc := .load d xx (some (i + 1)) })
      | none => (m, { it with missing := d :: it.missing, pc := .slot (i + 1) })
  | .load d xx back =>
      let ch := m.nodes d
      let it := { it with
        kq := it.kq + (quadCalc ch.mass (ch.pos - node.pos) + ch.moment xx) }
      (m, back.elim (it.settle l) fun i => { it with pc := .slot i })
  | .poll =>
      match it.missing with
      | [] => (m, it.settle l)
      | d :: missing =>
          match (m.nodes d).quadXX with
          | some xx => (m, { it with missing, pc := .load d xx none })
          | none => (m, if l.consistent then { it with pc := .check } else it.next l)
  | .storeRest =>
      (m.setNode it.k { node with
        quadXY := it.kq.xy
        quadXZ := it.kq.xz
        quadYY := it.kq.yy
        quadYZ := it.kq.yz
        quadZZ := it.kq.zz }, { it with pc := .storeXX })
  | .storeXX => (m.setNode it.k { node with quadXX := some it.kq.xx }, it.next l)
  | .done => (m, it)

def quadStart (l : PassLaunch) (m : TreeMemory R) : Crew (TreeMemory R) (QuadItem R) :=
  ⟨m, fun w => ⟨.check, l.first m.bottom w, [], 0⟩⟩

def QuadPc.isDone : QuadPc R → Bool
  | .done => true
  | _ => false

/-- The kernel in the order of `order`, when all items have ended. A tree that is too deep is an
error. -/
def quadMoments (l : PassLaunch) (MAXDEPTH : ℕ) (m : TreeMemory R) (order : List (Fin l.items)) :
    Option (TreeMemory R) :=
  if MAXDEPTH < m.maxDepth then none
  else
    let s := (quadStart l m).steps (quadItemStep l) order
    if ∀ w : Fin l.items, (s.workers w).pc.isDone then some s.mem else none

/-- The launches of `quadMoments`, with an order for each. -/
def quadLaunches (l : PassLaunch) (MAXDEPTH : ℕ) (orders : List (List (Fin l.items)))
    (m : TreeMemory R) : Option (TreeMemory R) :=
  orders.foldlM (quadMoments l MAXDEPTH) m

/-! ## The invariant -/

namespace QuadPass

variable (P : SumPass R)

def about (k : ℕ) (bs : List ℕ) : NBodyQuadMatrix R :=
  secondMoment momentMap (fun b => (P.start b).mass) (fun b => (P.start b).pos) (P.start k).pos bs

def part (k : ℕ) (ch : SlotCL) : NBodyQuadMatrix R := about P k (childBodies P.T ch)

/-- What the slots from `i` on add. -/
def rest (k i : ℕ) : NBodyQuadMatrix R :=
  (((front (P.start k).child 8).drop i).map (part P k)).sum

structure Ready (rows : ℕ → Fin 8 → SlotCL) : Prop where
  device : OnDevice P.l P.bottom rows P.T
  warp : 0 < P.l.WARPSIZE
  items : P.l.WARPSIZE ≤ P.l.items
  order : ∀ c ∈ P.T.cells, children (P.start c).child = children (rows c)
  mass : ∀ c ∈ P.T.cells, (P.start c).mass = ((P.T.under c).map fun b => (P.start b).mass).sum
  centre : ∀ c ∈ P.T.cells, (P.start c).mass • (P.start c).pos =
    ((P.T.under c).map fun b => (P.start b).mass • (P.start b).pos).sum

structure Kept (m : TreeMemory R) : Prop where
  child : ∀ n, (m.nodes n).child = (P.start n).child
  pos : ∀ n, (m.nodes n).pos = (P.start n).pos
  mass : ∀ n, (m.nodes n).mass = (P.start n).mass
  cells : ∀ c ∈ P.T.cells, ∀ xx, (m.nodes c).quadXX = some xx →
    (m.nodes c).moment xx = about P c (P.T.under c)
  status : m.bottom = P.bottom
  earlier : ∀ c, P.before c → (m.nodes c).quadXX ≠ none

def Ahead (r : NodeCL R) : Prop := r.quadXX = none ∨ P.l.consistent = false

def Behind (c : ℕ) (r : NodeCL R) : Prop :=
  r.quadXX ≠ none ∨ P.l.consistent = false ∧
    ∃ d, .cell d ∈ children (P.start c).child ∧ ¬ P.before d

structure Working (r : NodeCL R) (k : ℕ) (missing : List ℕ) : Prop where
  unready : r.quadXX = none
  missing : ∀ d ∈ missing, .cell d ∈ children (P.start k).child ∧ ¬ P.before d

def Lacks (it : QuadItem R) (rest : NBodyQuadMatrix R) : Prop :=
  it.kq + (it.missing.map fun d => part P it.k (.cell d)).sum + rest =
    about P it.k (P.T.under it.k)

def Holds (sees : ℕ → R → Prop) (r : NodeCL R) (it : QuadItem R) : Prop :=
  match it.pc with
  | .check => it.missing = [] ∧ Ahead P r ∨ P.l.consistent = true ∧ it.missing ≠ [] ∧
      Working P r it.k it.missing ∧ Lacks P it 0
  | .slot i => i ≤ 8 ∧ Working P r it.k it.missing ∧ Lacks P it (rest P it.k i)
  | .flag i d => i < 8 ∧ (P.start it.k).child (slotNumber i) = .cell d ∧
      Working P r it.k it.missing ∧ Lacks P it (rest P it.k i)
  | .load d xx back => Working P r it.k it.missing ∧ sees d xx ∧ d ∈ P.T.cells ∧
      (∀ i, back = some i → i ≤ 8) ∧
      Lacks P it (part P it.k (.cell d) + back.elim 0 (rest P it.k))
  | .poll => Working P r it.k it.missing ∧ Lacks P it 0
  | .storeRest => Working P r it.k it.missing ∧ it.kq = about P it.k (P.T.under it.k)
  | .storeXX => Working P r it.k it.missing ∧ r.moment it.kq.xx = about P it.k (P.T.under it.k)
  | .done => False

def Sees (m : TreeMemory R) (d : ℕ) (xx : R) : Prop := (m.nodes d).quadXX = some xx

abbrev course : Course (TreeMemory R) (NodeCL R) (QuadItem R) where
  record := TreeMemory.nodes
  position := QuadItem.k
  Ahead _ := Ahead P
  Behind := Behind P
  Holds m := Holds P (Sees m)
  Rests it := it.pc = .check ∨ it.pc = .done

abbrev Passing (w : ℕ) (m : TreeMemory R) (it : QuadItem R) : Prop :=
  (course P).Passing P.range w m it

/-! ## The moments -/

variable {P : SumPass R} {rows : ℕ → Fin 8 → SlotCL} {m m' : TreeMemory R} {it it' : QuadItem R}
  {w : ℕ}

theorem about_append (k : ℕ) (as bs : List ℕ) :
    about P k (as ++ bs) = about P k as + about P k bs := by
  rw [about, secondMoment, List.map_append, List.sum_append]
  rfl

theorem about_flatMap (k : ℕ) (l : List SlotCL) :
    about P k (l.flatMap (childBodies P.T)) = (l.map (part P k)).sum := by
  induction l with
  | nil => rfl
  | cons ch l ih =>
      rw [List.flatMap_cons, about_append, ih, List.map_cons, List.sum_cons, part]

theorem rest_succ (k : ℕ) {i : ℕ} (inside : i < 8) :
    rest P k i = part P k ((P.start k).child (slotNumber i)) + rest P k (i + 1) := by
  rw [rest, drop_front _ inside, List.map_cons, List.sum_cons, rest]

theorem rest_eight (k : ℕ) : rest P k 8 = 0 := by
  have none : (front (P.start k).child 8).drop 8 = [] := by
    rw [List.drop_eq_nil_iff, front, List.length_map, List.length_range]
  rw [rest, none, List.map_nil, List.sum_nil]

theorem rest_zero (ready : Ready P rows) {k : ℕ} (mem : k ∈ P.T.cells) :
    rest P k 0 = about P k (P.T.under k) := by
  rw [rest, List.drop_zero, ← about_flatMap, flatMap_children, ready.order k mem,
    ready.device.under_eq mem]

theorem part_body (k b : ℕ) : part P k (.body b) =
    quadCalc (P.start b).mass ((P.start b).pos - (P.start k).pos) := by
  rw [quadCalc_eq, part, childBodies, about, secondMoment_cons, secondMoment_nil, add_zero]

theorem part_cell (ready : Ready P rows) {k d : ℕ} (mem : d ∈ P.T.cells) : part P k (.cell d) =
    quadCalc (P.start d).mass ((P.start d).pos - (P.start k).pos) +
      about P d (P.T.under d) := by
  have centre := ready.centre d mem
  rw [ready.mass d mem] at centre
  rw [quadCalc_eq, part, childBodies, about, about, ready.mass d mem]
  exact secondMoment_steiner momentMap _ _ _ _ _ centre

theorem Ready.child_mem (ready : Ready P rows) {k d : ℕ} (mem : k ∈ P.T.cells)
    (child : .cell d ∈ children (P.start k).child) : d ∈ P.T.cells := by
  rw [ready.order k mem] at child
  exact ready.device.cell_mem mem child

theorem Lacks.move {r r' : NBodyQuadMatrix R} (h : Lacks P it r) (same : it'.k = it.k)
    (sum : it'.kq + (it'.missing.map fun d => part P it.k (.cell d)).sum + r' =
      it.kq + (it.missing.map fun d => part P it.k (.cell d)).sum + r) : Lacks P it' r' := by
  rw [Lacks, same, sum]
  exact h

omit [Field R] in
theorem nodes_setNode_self (m : TreeMemory R) (n : ℕ) (r : NodeCL R) :
    (m.setNode n r).nodes n = r := Function.update_self _ _ _

/-! ## The steps of the others -/

abbrev Guarantees (P : SumPass R) (w : ℕ) (m m' : TreeMemory R) : Prop :=
  Crew.Guarantees TreeMemory.nodes P.range.mine (fun _ r => r.quadXX ≠ none) w m m'

theorem Passing.mine (h : Passing P w m it) (ready : Ready P rows) (hw : w < P.l.items)
    (le : it.k ≤ P.l.NNODE) : P.range.mine w it.k ∧ it.k ∈ P.T.cells := by
  have own := Course.Passing.mine h ready.warp ready.items hw le
  exact ⟨own, (ready.device.cells _).mp ⟨own.2.1, own.2.2.1⟩⟩

theorem Passing.holds (h : Passing P w m it) (le : it.k ≤ P.l.NNODE) :
    Holds P (Sees m) (m.nodes it.k) it := h.here le

theorem Holds.mono {sees sees' : ℕ → R → Prop} {r : NodeCL R} (h : Holds P sees r it)
    (more : ∀ d xx, sees d xx → sees' d xx) : Holds P sees' r it := by
  obtain ⟨pc, k, missing, kq⟩ := it
  cases pc with
  | load d xx back =>
      obtain ⟨working, seen, others⟩ := h
      exact ⟨working, more d xx seen, others⟩
  | _ => exact h

theorem Passing.stable (ready : Ready P rows) (hw : w < P.l.items) (h : Passing P w m it)
    (leaves : Crew.Leaves TreeMemory.nodes P.range.mine (fun _ r => r.quadXX ≠ none) w m m') :
    Passing P w m' it := by
  refine Course.Passing.stable h (fun le => (h.mine ready hw le).1) leaves fun _ here =>
    Holds.mono here fun d xx seen => ?_
  have done : (m.nodes d).quadXX ≠ none := by
    rw [show (m.nodes d).quadXX = some xx from seen]
    exact Option.some_ne_none xx
  rw [Sees, leaves d (.inr done)]
  exact seen

/-! ## The own step -/

theorem Passing.stay (h : Passing P w m it) (same : it'.k = it.k) (le : it.k ≤ P.l.NNODE)
    (others : ∀ n, n ≠ it.k → m'.nodes n = m.nodes n)
    (here : Holds P (Sees m') (m'.nodes it.k) it') : Passing P w m' it' :=
  Course.Passing.stay h same le others here

theorem Passing.advance (h : Passing P w m it) (ready : Ready P rows) (hw : w < P.l.items)
    (same : it'.k = it.k) (le : it.k ≤ P.l.NNODE)
    (others : ∀ n, n ≠ it.k → m'.nodes n = m.nodes n)
    (behind : Behind P it.k (m'.nodes it.k)) : Passing P w m' (it'.next P.l) := by
  have further : (it'.next P.l).k = it.k + P.l.items := by rw [QuadItem.next, same]
  exact Course.Passing.advance h hw (h.mine ready hw le).1.2.1 further (.inl rfl) others behind
    fun r ahead => .inl ⟨rfl, ahead⟩

/-- What a step keeps. -/
def Keeps (P : SumPass R) (w : ℕ) (m m' : TreeMemory R) (it' : QuadItem R) : Prop :=
  Passing P w m' it' ∧ Kept P m' ∧ Guarantees P w m m'

theorem Passing.quiet (h : Passing P w m it') (all : Kept P m) : Keeps P w m m it' :=
  ⟨h, all, fun _ _ => rfl⟩

theorem Kept.store (all : Kept P m) {k : ℕ} {r : NodeCL R} (mine : P.range.mine w k)
    (unready : (m.nodes k).quadXX = none)
    (child : r.child = (m.nodes k).child) (pos : r.pos = (m.nodes k).pos)
    (mass : r.mass = (m.nodes k).mass)
    (total : ∀ xx, r.quadXX = some xx → r.moment xx = about P k (P.T.under k)) :
    Kept P (m.setNode k r) ∧ Guarantees P w m (m.setNode k r) := by
  have own := nodes_setNode_self m k r
  have others : ∀ n, n ≠ k → (m.setNode k r).nodes n = m.nodes n :=
    fun n ne => Function.update_of_ne ne _ _
  refine ⟨⟨fun n => ?_, fun n => ?_, fun n => ?_, fun c hc xx done => ?_, all.status,
    fun c before => ?_⟩, fun n kept => others n fun here => ?_⟩
  · by_cases here : n = k
    · rw [here, own, child]
      exact all.child k
    · rw [others n here]
      exact all.child n
  · by_cases here : n = k
    · rw [here, own, pos]
      exact all.pos k
    · rw [others n here]
      exact all.pos n
  · by_cases here : n = k
    · rw [here, own, mass]
      exact all.mass k
    · rw [others n here]
      exact all.mass n
  · by_cases here : c = k
    · rw [here] at done ⊢
      rw [own] at done ⊢
      exact total xx done
    · rw [others c here] at done ⊢
      exact all.cells c hc xx done
  · have done := all.earlier c before
    rwa [others c fun here => done (by rw [here]; exact unready)]
  · rw [here] at kept
    exact kept.elim (fun other => other mine) fun done => done unready

theorem Passing.settle (h : Passing P w m it) (all : Kept P m) (ready : Ready P rows)
    (hw : w < P.l.items) (le : it.k ≤ P.l.NNODE) (same : it'.k = it.k)
    (working : Working P (m.nodes it.k) it.k it'.missing) (lacks : Lacks P it' 0) :
    Keeps P w m m (it'.settle P.l) := by
  refine Passing.quiet ?_ all
  rw [← same] at working
  rw [QuadItem.settle]
  split
  · next none =>
      rw [Lacks, none, List.map_nil, List.sum_nil, add_zero, add_zero] at lacks
      refine h.stay same le (fun _ _ => rfl) ?_
      rw [← same]
      exact ⟨working, lacks⟩
  · next some =>
      split
      · refine h.stay same le (fun _ _ => rfl) ?_
        rw [← same]
        exact ⟨working, lacks⟩
      · next alone =>
          rw [Bool.or_eq_true, not_or] at alone
          obtain ⟨d, others, cons⟩ := List.exists_cons_of_ne_nil some
          refine h.advance ready hw same le (fun _ _ => rfl)
            (.inr ⟨Bool.eq_false_of_not_eq_true alone.1, d, ?_⟩)
          rw [← same]
          exact working.missing d (by rw [cons]; exact List.mem_cons_self)

theorem Passing.inside (h : Passing P w m it) (check : ¬ it.pc = .check) (done : ¬ it.pc = .done) :
    it.k ≤ P.l.NNODE :=
  not_lt.mp fun lt => Or.elim (h.ended lt) check done

theorem Passing.step_check (h : Passing P w m it) (all : Kept P m) (ready : Ready P rows)
    (hw : w < P.l.items) (pc : it.pc = .check) :
    Keeps P w m (quadItemStep P.l m it).1 (quadItemStep P.l m it).2 := by
  rw [quadItemStep, pc]
  dsimp only
  split
  · next le =>
      have here := h.holds le
      rw [Holds, pc] at here
      dsimp only at here
      split
      · next looks =>
          rcases here with ⟨none, ahead⟩ | ⟨consistent, some, working, lacks⟩
          · have unready : (m.nodes it.k).quadXX = Option.none := by
              rw [Bool.or_eq_true] at looks
              rcases looks with consistent | empty
              · refine ahead.resolve_right fun again => ?_
                rw [consistent] at again
                cases again
              · exact Option.isNone_iff_eq_none.mp empty
            rw [if_pos none]
            refine Passing.quiet (h.stay rfl le (fun _ _ => rfl) ⟨Nat.zero_le _, ⟨unready, ?_⟩, ?_⟩)
              all
            · simp [none]
            · rw [Lacks, rest_zero ready (h.mine ready hw le).2]
              simp [none]
          · rw [if_neg some]
            exact Passing.quiet (h.stay rfl le (fun _ _ => rfl) ⟨working, lacks⟩) all
      · next skips =>
          refine (h.advance ready hw rfl le (fun _ _ => rfl) (.inl fun none => skips ?_)).quiet all
          rw [none]
          exact Bool.or_true _
  · next beyond =>
      exact Passing.quiet ⟨h.place, h.behind, h.ahead, fun le => absurd le beyond,
        fun _ => .inr rfl⟩ all

theorem Passing.step_slot (h : Passing P w m it) (all : Kept P m) (ready : Ready P rows)
    (hw : w < P.l.items) {i : ℕ} (pc : it.pc = .slot i) :
    Keeps P w m (quadItemStep P.l m it).1 (quadItemStep P.l m it).2 := by
  have le := h.inside (by rw [pc]; simp) (by rw [pc]; simp)
  have here := h.holds le
  rw [Holds, pc] at here
  obtain ⟨small, working, lacks⟩ := here
  rw [quadItemStep, pc]
  dsimp only
  rw [all.child it.k]
  split
  · next inside =>
      rw [rest_succ _ inside] at lacks
      cases slot : (P.start it.k).child (slotNumber i) with
      | cell d =>
          rw [← rest_succ _ inside] at lacks
          exact Passing.quiet (h.stay rfl le (fun _ _ => rfl) ⟨inside, slot, working, lacks⟩) all
      | body b =>
          refine Passing.quiet (h.stay rfl le (fun _ _ => rfl) ⟨inside, working, ?_⟩) all
          rw [slot, part_body] at lacks
          refine lacks.move rfl ?_
          dsimp only
          rw [all.mass b, all.pos b, all.pos it.k]
          abel
      | null =>
          refine Passing.quiet (h.stay rfl le (fun _ _ => rfl) ⟨inside, working, ?_⟩) all
          have none : part P it.k .null = 0 := rfl
          rw [slot, none, zero_add] at lacks
          exact lacks
      | lock =>
          refine Passing.quiet (h.stay rfl le (fun _ _ => rfl) ⟨inside, working, ?_⟩) all
          have none : part P it.k .lock = 0 := rfl
          rw [slot, none, zero_add] at lacks
          exact lacks
  · next past =>
      have last : i = 8 := by omega
      rw [last, rest_eight] at lacks
      exact h.settle all ready hw le rfl working lacks

theorem Passing.step_flag (h : Passing P w m it) (all : Kept P m) (ready : Ready P rows)
    (hw : w < P.l.items) {i d : ℕ} (pc : it.pc = .flag i d) :
    Keeps P w m (quadItemStep P.l m it).1 (quadItemStep P.l m it).2 := by
  have le := h.inside (by rw [pc]; simp) (by rw [pc]; simp)
  have here := h.holds le
  rw [Holds, pc] at here
  obtain ⟨inside, slot, working, lacks⟩ := here
  have mem := (h.mine ready hw le).2
  have child : SlotCL.cell d ∈ children (P.start it.k).child := mem_children.mpr ⟨rfl, _, slot⟩
  rw [rest_succ _ inside, slot] at lacks
  rw [quadItemStep, pc]
  dsimp only
  cases done : (m.nodes d).quadXX with
  | some xx =>
      refine Passing.quiet (h.stay rfl le (fun _ _ => rfl) ⟨working, done,
        ready.child_mem mem child, fun j same => ?_, lacks⟩) all
      cases same
      exact inside
  | none =>
      refine Passing.quiet (h.stay rfl le (fun _ _ => rfl) ⟨inside, ⟨working.unready, ?_⟩, ?_⟩) all
      · intro e he
        rcases List.mem_cons.mp he with rfl | he
        · exact ⟨child, fun before => all.earlier e before done⟩
        · exact working.missing e he
      · refine lacks.move rfl ?_
        rw [List.map_cons, List.sum_cons]
        abel

theorem Passing.step_load (h : Passing P w m it) (all : Kept P m) (ready : Ready P rows)
    (hw : w < P.l.items) {d : ℕ} {xx : R} {back : Option ℕ} (pc : it.pc = .load d xx back) :
    Keeps P w m (quadItemStep P.l m it).1 (quadItemStep P.l m it).2 := by
  have le := h.inside (by rw [pc]; simp) (by rw [pc]; simp)
  have here := h.holds le
  rw [Holds, pc] at here
  obtain ⟨working, seen, mem, small, lacks⟩ := here
  have value : part P it.k (.cell d) = quadCalc (m.nodes d).mass
      ((m.nodes d).pos - (m.nodes it.k).pos) + (m.nodes d).moment xx := by
    rw [part_cell ready mem, all.mass d, all.pos d, all.pos it.k, all.cells d mem xx seen]
  rw [quadItemStep, pc]
  dsimp only
  rw [← value]
  have added : Lacks P { it with kq := it.kq + part P it.k (.cell d) }
      (back.elim 0 (rest P it.k)) := by
    refine lacks.move rfl ?_
    dsimp only
    abel
  cases back with
  | none => exact h.settle all ready hw le rfl working added
  | some i =>
      exact Passing.quiet (h.stay rfl le (fun _ _ => rfl) ⟨small i rfl, working, added⟩) all

theorem Passing.step_poll (h : Passing P w m it) (all : Kept P m) (ready : Ready P rows)
    (hw : w < P.l.items) (pc : it.pc = .poll) :
    Keeps P w m (quadItemStep P.l m it).1 (quadItemStep P.l m it).2 := by
  have le := h.inside (by rw [pc]; simp) (by rw [pc]; simp)
  have here := h.holds le
  rw [Holds, pc] at here
  obtain ⟨working, lacks⟩ := here
  obtain ⟨pc', k, missing, kq⟩ := it
  dsimp only at pc
  subst pc
  cases missing with
  | nil => exact h.settle all ready hw le rfl working lacks
  | cons d others =>
      obtain ⟨child, later⟩ := working.missing d List.mem_cons_self
      rw [quadItemStep]
      dsimp only
      cases done : (m.nodes d).quadXX with
      | some xx =>
          refine Passing.quiet (h.stay rfl le (fun _ _ => rfl) ⟨⟨working.unready,
            fun e he => working.missing e (List.mem_cons_of_mem _ he)⟩, done,
            ready.child_mem (h.mine ready hw le).2 child, (fun i same => by cases same), ?_⟩) all
          refine lacks.move rfl ?_
          rw [List.map_cons, List.sum_cons]
          show _ + _ + (_ + 0) = _
          abel
      | none =>
          dsimp only
          split
          · next consistent =>
              exact Passing.quiet (h.stay rfl le (fun _ _ => rfl)
                (.inr ⟨consistent, List.cons_ne_nil _ _, working, lacks⟩)) all
          · next inconsistent =>
              exact Passing.quiet (h.advance ready hw rfl le (fun _ _ => rfl)
                (.inr ⟨Bool.eq_false_of_not_eq_true inconsistent, d, child, later⟩)) all

theorem Passing.step_storeRest (h : Passing P w m it) (all : Kept P m) (ready : Ready P rows)
    (hw : w < P.l.items) (pc : it.pc = .storeRest) :
    Keeps P w m (quadItemStep P.l m it).1 (quadItemStep P.l m it).2 := by
  have le := h.inside (by rw [pc]; simp) (by rw [pc]; simp)
  have here := h.holds le
  rw [Holds, pc] at here
  obtain ⟨working, total⟩ := here
  obtain ⟨mine, -⟩ := h.mine ready hw le
  rw [quadItemStep, pc]
  dsimp only
  refine ⟨h.stay rfl le (fun n ne => Function.update_of_ne ne _ _) ?_,
    all.store mine working.unready rfl rfl rfl fun xx done => ?_⟩
  · rw [nodes_setNode_self]
    exact ⟨⟨working.unready, working.missing⟩, total⟩
  · have none := working.unready
    rw [show (m.nodes it.k).quadXX = some xx from done] at none
    cases none

theorem Passing.step_storeXX (h : Passing P w m it) (all : Kept P m) (ready : Ready P rows)
    (hw : w < P.l.items) (pc : it.pc = .storeXX) :
    Keeps P w m (quadItemStep P.l m it).1 (quadItemStep P.l m it).2 := by
  have le := h.inside (by rw [pc]; simp) (by rw [pc]; simp)
  have here := h.holds le
  rw [Holds, pc] at here
  obtain ⟨working, total⟩ := here
  obtain ⟨mine, -⟩ := h.mine ready hw le
  rw [quadItemStep, pc]
  dsimp only
  refine ⟨h.advance ready hw rfl le (fun n ne => Function.update_of_ne ne _ _) (.inl ?_),
    all.store mine working.unready rfl rfl rfl fun xx done => ?_⟩
  · rw [nodes_setNode_self]
    exact Option.some_ne_none _
  · have same : it.kq.xx = xx := Option.some.inj done
    rw [← same]
    exact total

theorem Passing.step (h : Passing P w m it) (all : Kept P m) (ready : Ready P rows)
    (hw : w < P.l.items) : Keeps P w m (quadItemStep P.l m it).1 (quadItemStep P.l m it).2 := by
  cases pc : it.pc with
  | check => exact h.step_check all ready hw pc
  | slot i => exact h.step_slot all ready hw pc
  | flag i d => exact h.step_flag all ready hw pc
  | load d xx back => exact h.step_load all ready hw pc
  | poll => exact h.step_poll all ready hw pc
  | storeRest => exact h.step_storeRest all ready hw pc
  | storeXX => exact h.step_storeXX all ready hw pc
  | done =>
      rw [quadItemStep, pc]
      exact h.quiet all

/-! ## The launches -/

omit [Field R] in
theorem isDone_eq {pc : QuadPc R} (h : pc.isDone = true) : pc = .done := by
  cases pc <;> first | rfl | cases h

theorem quadMoments_behind (ready : Ready P rows) (all : Kept P m)
    (ahead : ∀ c ∈ P.T.cells, Ahead P (m.nodes c)) {MAXDEPTH : ℕ} {order : List (Fin P.l.items)}
    (run : quadMoments P.l MAXDEPTH m order = some m') :
    Kept P m' ∧ ∀ c ∈ P.T.cells, Behind P c (m'.nodes c) := by
  rw [quadMoments, Option.ite_none_left_eq_some] at run
  obtain ⟨-, run⟩ := run
  dsimp only at run
  rw [Option.ite_none_right_eq_some, Option.some.injEq] at run
  obtain ⟨done, rfl⟩ := run
  have items : 0 < P.l.items := lt_of_lt_of_le ready.warp ready.items
  have first : ∀ w < P.l.items, Passing P w m ((quadStart P.l m).workers w) := by
    intro w hw
    have place : ((quadStart P.l m).workers w).k = P.l.first P.bottom w := by
      rw [← all.status]
      rfl
    refine Course.Passing.start place (.inl rfl)
      (fun n mine => ahead n ((ready.device.cells n).mp ⟨mine.2.1, mine.2.2.1⟩))
      fun le => .inl ⟨rfl, ahead _ ?_⟩
    exact (ready.device.cells _).mp
      ⟨(le_alignedStart ready.warp ready.items).trans_eq place.symm, le⟩
  have through : ∀ w < P.l.items, ∀ m' r, ¬ (course P).Holds m' r
      (((quadStart P.l m).steps (quadItemStep P.l) order).workers w) := by
    intro w hw m' r holds
    have ended := isDone_eq (done ⟨w, hw⟩)
    dsimp only at holds
    rw [Holds, ended] at holds
    exact holds
  obtain ⟨kept, behind⟩ := (course P).steps_behind P.range items
    (fun w hw m m' it leaves passing => Passing.stable ready hw passing leaves)
    (fun w hw m it all passing => Passing.step passing all ready hw) ⟨all, first⟩ through
  refine ⟨kept, fun c hc => ?_⟩
  obtain ⟨lower, upper⟩ := (ready.device.cells c).mpr hc
  exact behind c lower upper

def since (P : SumPass R) (m : TreeMemory R) : SumPass R :=
  { P with before := fun c => (m.nodes c).quadXX ≠ none }

theorem Ready.since (ready : Ready P rows) (m : TreeMemory R) : Ready (since P m) rows :=
  ⟨ready.device, ready.warp, ready.items, ready.order, ready.mass, ready.centre⟩

structure Between (P : SumPass R) (m : TreeMemory R) : Prop where
  kept : Kept (since P m) m
  ahead : ∀ c ∈ P.T.cells, Ahead P (m.nodes c)

theorem Between.launch (h : Between P m) (ready : Ready P rows) {MAXDEPTH : ℕ}
    {order : List (Fin P.l.items)} (run : quadMoments P.l MAXDEPTH m order = some m') {n : ℕ}
    (levels : Levels P.T (fun c => (m.nodes c).quadXX ≠ none) n) :
    Kept (since P m') m' ∧
      (P.l.consistent = true → ∀ c ∈ P.T.cells, (m'.nodes c).quadXX ≠ none) ∧
      (P.l.consistent = false → Levels P.T (fun c => (m'.nodes c).quadXX ≠ none) (n + 1)) := by
  obtain ⟨kept, behind⟩ := quadMoments_behind (ready.since m) h.kept h.ahead run
  refine ⟨⟨kept.child, kept.pos, kept.mass, kept.cells, kept.status, fun _ => id⟩,
    fun mode c hc => (behind c hc).resolve_right fun given => ?_, fun mode => ?_⟩
  · have again : P.l.consistent = false := given.1
    rw [mode] at again
    cases again
  · refine levels.succ fun c sub within below => (behind c within.mem).resolve_right ?_
    rintro ⟨-, d, child, later⟩
    have among : SlotCL.cell d ∈ children (rows c) := by
      rw [← ready.order c within.mem]
      exact child
    obtain ⟨i, inner, cell⟩ := ready.device.below within among
    exact later (below i d inner cell)

theorem Between.launches (h : Between P m) (ready : Ready P rows) {MAXDEPTH : ℕ}
    {orders : List (List (Fin P.l.items))}
    (run : quadLaunches P.l MAXDEPTH orders m = some m') {n : ℕ}
    (levels : Levels P.T (fun c => (m.nodes c).quadXX ≠ none) n)
    (enough : P.l.consistent = true ∧ orders.length = 1 ∨
      P.l.consistent = false ∧ P.T.deepest < n + orders.length) :
    Kept (since P m') m' ∧ ∀ c ∈ P.T.cells, (m'.nodes c).quadXX ≠ none := by
  induction orders generalizing m n with
  | nil =>
      rw [quadLaunches, List.foldlM_nil, Option.pure_def, Option.some.injEq] at run
      subst run
      rcases enough with ⟨-, one⟩ | ⟨-, deep⟩
      · cases one
      · exact ⟨h.kept, fun c hc => levels.all deep hc⟩
  | cons order orders ih =>
      rw [quadLaunches, List.foldlM_cons] at run
      obtain ⟨m₁, launch, others⟩ := Option.bind_eq_some_iff.mp run
      obtain ⟨kept, once, again⟩ := h.launch ready launch levels
      rw [List.length_cons] at enough
      rcases enough with ⟨mode, one⟩ | ⟨mode, deep⟩
      · have none : orders = [] := List.length_eq_zero_iff.mp (by omega)
        subst none
        rw [List.foldlM_nil, Option.pure_def, Option.some.injEq] at others
        subst others
        exact ⟨kept, once mode⟩
      · exact ih ⟨kept, fun _ _ => .inr mode⟩ others (again mode) (.inr ⟨mode, by omega⟩)

end QuadPass

/-! ## The host -/

variable [LinearOrder R]

/-- Whatever the order in which the work-items take their steps, after the launches of
`summarization` and `quadMoments` each cell of the tree holds the quadrupole moment of the bodies
below it about their centre of mass. -/
theorem deviceTree_moments [IsStrictOrderedRing R] (B : Build R) (ctx : NBodyCtx R)
    (l : PassLaunch) (inc quadItems quadGroups MAXDEPTH : ℕ) (T : Octree ℕ ℕ)
    (m m₁ m₂ : TreeMemory R) (writes : List ℕ) (sums : List (List (Fin l.items)))
    (quads : List (List (Fin quadItems))) (tree : Summable l T m) (clears : l.WARPSIZE ≤ inc)
    (cleared : writes.Perm (l.cleared inc m.bottom)) (items : l.WARPSIZE ≤ quadItems)
    (useQuad : ctx.useQuad = true) (sumTimes : sums.length = l.times m.maxDepth)
    (quadTimes : quads.length = l.times m.maxDepth)
    (deep : l.consistent = false → T.deepest < m.maxDepth)
    (summed : summarizationLaunches B ctx l sums (summarizationClear ctx m writes) = some m₁)
    (run : quadLaunches { l with
      items := quadItems
      groups := quadGroups } MAXDEPTH quads m₁ = some m₂) :
    ∀ c ∈ T.cells,
      (m₂.nodes c).mass = ((T.under c).map fun b => (m.nodes b).mass).sum ∧
      (m₂.nodes c).mass • (m₂.nodes c).pos =
        ((T.under c).map fun b => (m.nodes b).mass • (m.nodes b).pos).sum ∧
      ∃ xx, (m₂.nodes c).quadXX = some xx ∧ (m₂.nodes c).moment xx =
        secondMoment momentMap (fun b => (m.nodes b).mass) (fun b => (m.nodes b).pos)
          (m₂.nodes c).pos (T.under c) := by
  obtain ⟨nodes, same, -⟩ := summarizationClear_eq ctx m writes
  have recorded : (summarizationClear ctx m writes).maxDepth = m.maxDepth := by rw [same]
  rw [← recorded] at sumTimes
  obtain ⟨kept, done⟩ := (tree.between B ctx clears cleared).ready tree.ready sumTimes
    (fun mode => by rw [recorded]; exact deep mode) summed
  have totalled : ∀ c ∈ T.cells, Totalled B ctx m.radius m.nodes T c (m₁.nodes c) :=
    fun c hc => kept.cells c hc (done c hc)
  have bodies : ∀ b ∈ T.leaves, m₁.nodes b = m.nodes b := kept.bodies
  have below : ∀ c ∈ T.cells, ∀ b ∈ T.under c, m₁.nodes b = m.nodes b := by
    intro c hc b hb
    obtain ⟨sub, within, -, under, -⟩ := tree.device.slots hc
    rw [under] at hb
    exact bodies b (within.leaves_sub hb)
  have masses : ∀ c ∈ T.cells, (T.under c).map (fun b => (m₁.nodes b).mass) =
      (T.under c).map fun b => (m.nodes b).mass := fun c hc =>
    List.map_congr_left fun b hb => by rw [below c hc b hb]
  have moments : ∀ c ∈ T.cells, (T.under c).map (fun b => (m₁.nodes b).mass • (m₁.nodes b).pos) =
      (T.under c).map fun b => (m.nodes b).mass • (m.nodes b).pos := fun c hc =>
    List.map_congr_left fun b hb => by rw [below c hc b hb]
  let P : SumPass R := ⟨{ l with
    items := quadItems
    groups := quadGroups }, m₁.bottom, m₁.radius, m₁.nodes, T, fun _ => False⟩
  have device : OnDevice P.l P.bottom (fun c => (m.nodes c).child) T := by
    have laid := tree.device
    show OnDevice P.l m₁.bottom _ T
    rw [show m₁.bottom = m.bottom from kept.status.2]
    exact ⟨laid.root, laid.laid, laid.cellsNodup, laid.bodies, laid.above, laid.cells⟩
  have ready : QuadPass.Ready P fun c => (m.nodes c).child := by
    refine ⟨device, tree.warp, items, fun c hc => (totalled c hc).order, fun c hc => ?_,
      fun c hc => ?_⟩
    · show (m₁.nodes c).mass = ((T.under c).map fun b => (m₁.nodes b).mass).sum
      rw [masses c hc]
      exact (totalled c hc).mass
    · show (m₁.nodes c).mass • (m₁.nodes c).pos =
        ((T.under c).map fun b => (m₁.nodes b).mass • (m₁.nodes b).pos).sum
      rw [moments c hc]
      exact (totalled c hc).moment
  have fresh : ∀ c ∈ T.cells, (m₁.nodes c).quadXX = none := fun c hc => (totalled c hc).quad useQuad
  have between : QuadPass.Between P m₁ := by
    refine ⟨⟨fun _ => rfl, fun _ => rfl, fun _ => rfl, fun c hc xx done => ?_, rfl, fun _ => id⟩,
      fun c hc => .inl (fresh c hc)⟩
    rw [fresh c hc] at done
    cases done
  have enough : P.l.consistent = true ∧ quads.length = 1 ∨
      P.l.consistent = false ∧ T.deepest < 0 + quads.length := by
    show l.consistent = true ∧ _ ∨ l.consistent = false ∧ _
    rw [quadTimes, PassLaunch.times]
    cases mode : l.consistent with
    | true => exact .inl ⟨rfl, if_pos rfl⟩
    | false => exact .inr ⟨rfl, by rw [Nat.zero_add]; exact deep mode⟩
  obtain ⟨quad, all⟩ := between.launches ready run (Levels.zero _ _) enough
  intro c hc
  have mass : (m₂.nodes c).mass = (m₁.nodes c).mass := quad.mass c
  have pos : (m₂.nodes c).pos = (m₁.nodes c).pos := quad.pos c
  obtain ⟨xx, some⟩ := Option.ne_none_iff_exists'.mp (all c hc)
  refine ⟨mass.trans (totalled c hc).mass, ?_, xx, some, ?_⟩
  · rw [mass, pos]
    exact (totalled c hc).moment
  · refine (quad.cells c hc xx some).trans ?_
    rw [pos, QuadPass.about, secondMoment, secondMoment]
    refine congrArg List.sum (List.map_congr_left fun b hb => ?_)
    show (m₁.nodes b).mass • momentMap ((m₁.nodes b).pos - (m₁.nodes c).pos) = _
    rw [below c hc b hb]

def waitQuads : List (List (Fin 2)) := [(List.replicate 20 (List.finRange 2).reverse).flatten]

theorem deviceTree_moments_wait : ∃ m₁ m₂ : TreeMemory ℚ,
    summarizationLaunches rowBuild halfCtx waitLaunch [waitOrder]
      (summarizationClear halfCtx waitMemory [7]) = some m₁ ∧
    quadLaunches { waitLaunch with
      items := 2
      groups := 2 } 4 waitQuads m₁ = some m₂ ∧
    ∀ c ∈ waitTree.cells,
      (m₂.nodes c).mass = ((waitTree.under c).map fun b => (waitMemory.nodes b).mass).sum ∧
      (m₂.nodes c).mass • (m₂.nodes c).pos =
        ((waitTree.under c).map fun b => (waitMemory.nodes b).mass • (waitMemory.nodes b).pos).sum ∧
      ∃ xx, (m₂.nodes c).quadXX = some xx ∧ (m₂.nodes c).moment xx =
        secondMoment momentMap (fun b => (waitMemory.nodes b).mass)
          (fun b => (waitMemory.nodes b).pos) (m₂.nodes c).pos (waitTree.under c) := by
  have ends : ((summarizationLaunches rowBuild halfCtx waitLaunch [waitOrder]
      (summarizationClear halfCtx waitMemory [7])).bind fun m₁ =>
        quadLaunches { waitLaunch with
          items := 2
          groups := 2 } 4 waitQuads m₁).isSome = true := by decide +kernel
  obtain ⟨m₂, both⟩ := Option.isSome_iff_exists.mp ends
  obtain ⟨m₁, summed, run⟩ := Option.bind_eq_some_iff.mp both
  exact ⟨m₁, m₂, summed, run, deviceTree_moments rowBuild halfCtx waitLaunch 1 2 2 4 waitTree
    waitMemory m₁ m₂ [7] [waitOrder] waitQuads waitTree_summable (by decide) (by decide) (by decide)
    rfl rfl rfl (by decide) summed run⟩

end MilkyWay.NBody
