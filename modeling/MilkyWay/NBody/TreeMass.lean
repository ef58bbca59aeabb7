import MilkyWay.NBody.TreeMemory
import MilkyWay.Foundation.Fold
import MilkyWay.Foundation.Placement

/-! The bottom-up pass. For any arithmetic it changes only positions, masses and
critical radii of the cells below its root; in exact arithmetic a pass that reports
no structure error leaves every cell with the mass and the centre of mass of the
bodies below it. -/

namespace MilkyWay.NBody

open Foundation

variable {R : Type}

/-- What the pass may change: positions, masses and critical radii of `cells`, and
the structure error, which it only ever raises. -/
structure MassFrame (st st' : TreeState R) (cells : List ℕ) : Prop where
  bodies : SameBodies st st'
  outside : ∀ a, a ∉ cells → st'.heap a = st.heap a
  kept : ∀ a, (st'.heap a).next = (st.heap a).next ∧ (st'.heap a).more = (st.heap a).more ∧
    (st'.heap a).stuff = (st.heap a).stuff
  tree : st'.tree = { st.tree with structureError := st'.tree.structureError }
  noError : st'.tree.structureError = false → st.tree.structureError = false
  heapTop : st'.heapTop = st.heapTop
  freeCell : st'.freeCell = st.freeCell

namespace MassFrame

variable {st st' st'' : TreeState R} {cells cells' : List ℕ}

theorem refl (st : TreeState R) (cells : List ℕ) : MassFrame st st cells :=
  ⟨⟨rfl, rfl, rfl⟩, fun _ _ => rfl, fun _ => ⟨rfl, rfl, rfl⟩, rfl, id, rfl, rfl⟩

theorem trans (h : MassFrame st st' cells) (h' : MassFrame st' st'' cells') :
    MassFrame st st'' (cells ++ cells') where
  bodies := h.bodies.trans h'.bodies
  outside a ha := by
    rw [List.mem_append, not_or] at ha
    rw [h'.outside a ha.2, h.outside a ha.1]
  kept a := ⟨(h'.kept a).1.trans (h.kept a).1, (h'.kept a).2.1.trans (h.kept a).2.1,
    (h'.kept a).2.2.trans (h.kept a).2.2⟩
  tree := by rw [h'.tree, h.tree]
  noError := h.noError ∘ h'.noError
  heapTop := h'.heapTop.trans h.heapTop
  freeCell := h'.freeCell.trans h.freeCell

theorem mono (h : MassFrame st st' cells) (sub : ∀ a ∈ cells, a ∈ cells') :
    MassFrame st st' cells' :=
  { h with outside := fun a ha => h.outside a fun m => ha (sub a m) }

theorem represents (h : MassFrame st st' cells) {T : Octree ℕ ℕ} {p : NodePtr}
    (rep : Represents st.heap T p) : Represents st'.heap T p :=
  rep.congr fun c _ => (h.kept c).2.2

end MassFrame

theorem massFrame_setCell (st : TreeState R) (c : ℕ) (x : NBodyCell R → Vec3 R)
    (m r : NBodyCell R → R) :
    MassFrame st (st.setCell c fun q => { q with pos := x q, mass := m q, rcrit2 := r q }) [c] where
  bodies := ⟨rfl, rfl, rfl⟩
  outside a ha := Function.update_of_ne (fun e => ha (by simp [e])) _ _
  kept a := by
    by_cases hac : a = c
    · subst hac
      rw [TreeState.setCell_heap, Function.update_self]
      exact ⟨rfl, rfl, rfl⟩
    · rw [TreeState.setCell_heap, Function.update_of_ne hac]
      exact ⟨rfl, rfl, rfl⟩
  tree := rfl
  noError := id
  heapTop := rfl
  freeCell := rfl

section
variable [Add R] [Mul R]

theorem sumSubnode_eq {p : ℕ} {q : NodePtr} {st : TreeState R} {cmpos : Vec3 R}
    {s : TreeState R × Vec3 R} (run : sumSubnode p q st cmpos = some s) :
    ∃ m x, st.mass q = some m ∧ st.pos q = some x ∧
      s = (st.setCell p fun c => { c with mass := c.mass + m }, cmpos + m • x) := by
  simp only [sumSubnode, Option.bind_eq_bind, Option.bind_eq_some_iff, Option.pure_def,
    Option.some.injEq] at run
  obtain ⟨m, hm, x, hx, rfl⟩ := run
  exact ⟨m, x, hm, hx, rfl⟩

theorem sumTurn_cases {pass : TreeState R → ℕ → Option (TreeState R)} {p : ℕ}
    {s s' : TreeState R × Vec3 R} {i : Fin 8} {sub : Fin 8 → NodePtr} {T : Octree ℕ ℕ}
    (hs : (s.1.heap p).stuff = .subp sub) (rep : Represents s.1.heap T (sub i))
    (run : sumTurn pass p s i = some s') :
    (T = .empty ∧ s' = s) ∨ ∃ q st m x, st.mass q = some m ∧ st.pos q = some x ∧
      s' = (st.setCell p fun c => { c with mass := c.mass + m }, s.2 + m • x) ∧
      ((∃ b, T = .leaf b ∧ q = .leaf b ∧ st = s.1 ∧ s.1.isBody b = true) ∨
        ∃ d inner, T = .cell d inner ∧ q = .cell d ∧ pass s.1 d = some st) := by
  simp only [sumTurn, TreeState.subp, hs, Option.bind_eq_bind, Option.bind_some] at run
  cases T with
  | empty =>
      rw [show sub i = .null from rep] at run
      exact .inl ⟨rfl, (Option.some.inj run).symm⟩
  | leaf b =>
      rw [show sub i = .leaf b from rep] at run
      obtain ⟨body, run⟩ := Option.ite_none_right_eq_some.mp run
      obtain ⟨m, x, hm, hx, rfl⟩ := sumSubnode_eq run
      exact .inr ⟨_, _, m, x, hm, hx, rfl, .inl ⟨b, rfl, rfl, rfl, body⟩⟩
  | cell d inner =>
      rw [rep.1] at run
      obtain ⟨st, deeper, run⟩ := Option.bind_eq_some_iff.mp run
      obtain ⟨m, x, hm, hx, rfl⟩ := sumSubnode_eq run
      exact .inr ⟨_, _, m, x, hm, hx, rfl, .inr ⟨d, inner, rfl, rfl, deeper⟩⟩

end

variable [Zero R] [Add R] [Sub R] [Mul R] [Div R] [OfScientific R] [BEq R] [LT R] [DecidableLT R]

theorem finishCofM_eq {B : Build R} {ctx : NBodyCtx R} {p : ℕ} {psize : R} {st st' : TreeState R}
    {cmpos : Vec3 R} (run : finishCofM B ctx p psize st cmpos = some st') :
    let x := if 0 < (st.heap p).mass then mw_divvs cmpos (st.heap p).mass else (st.heap p).pos
    ∃ rcrit2, findRCrit B ctx (st.heap p).pos st.tree.rsize x psize = some rcrit2 ∧
      st' = (st.setTree fun t => nbCheckTreeStructure t (st.heap p).pos x psize).setCell p
        fun c => { c with rcrit2, pos := x } := by
  simp only [finishCofM, Option.bind_eq_bind, Option.bind_eq_some_iff, Option.pure_def,
    Option.some.injEq] at run
  obtain ⟨rcrit2, hr, rfl⟩ := run
  exact ⟨rcrit2, hr, rfl⟩

theorem finishCofM_frame {B : Build R} {ctx : NBodyCtx R} {p : ℕ} {psize : R}
    {st st' : TreeState R} {cmpos : Vec3 R} (run : finishCofM B ctx p psize st cmpos = some st') :
    MassFrame st st' [p] := by
  obtain ⟨rcrit2, -, rfl⟩ := finishCofM_eq run
  have check : MassFrame st (st.setTree fun t => nbCheckTreeStructure t (st.heap p).pos
      (if 0 < (st.heap p).mass then mw_divvs cmpos (st.heap p).mass else (st.heap p).pos) psize)
      [] := by
    refine ⟨⟨rfl, rfl, rfl⟩, fun _ _ => rfl, fun _ => ⟨rfl, rfl, rfl⟩, rfl, ?_, rfl, rfl⟩
    intro h
    exact (Bool.or_eq_false_iff.mp h).1
  exact check.trans (massFrame_setCell _ p _ _ _)

variable [LE R] [DecidableLE R]

theorem hackCofM_succ {B : Build R} {ctx : NBodyCtx R} {fuel p : ℕ} {psize : R}
    {st st' : TreeState R} (run : hackCofM B ctx (fuel + 1) st p psize = some st') :
    ∃ s : TreeState R × Vec3 R,
      (List.finRange 8).foldlM
        (sumTurn (fun st c => hackCofM B ctx fuel st c (0.5 * psize)) p)
        (st.setCell p fun c => { c with mass := 0 }, 0) = some s ∧
      finishCofM B ctx p psize s.1 s.2 = some st' := by
  simp only [hackCofM, Option.bind_eq_bind, Option.bind_eq_some_iff] at run
  obtain ⟨-, -, s, loop, finish⟩ := run
  exact ⟨s, loop, finish⟩

theorem hackCofM_pass {B : Build R} {ctx : NBodyCtx R} {fuel c : ℕ} {psize : R}
    {st st' : TreeState R} {T : Octree ℕ ℕ} (rep : Represents st.heap T (.cell c))
    (run : hackCofM B ctx fuel st c psize = some st') :
    MassFrame st st' T.cells ∧ ∀ b ∈ T.leaves, st.isBody b = true := by
  induction T generalizing fuel c psize st st' with
  | empty => simp [Represents] at rep
  | leaf b => simp [Represents] at rep
  | cell d sub ih =>
      cases fuel with
      | zero => simp [hackCofM] at run
      | succ fuel =>
          obtain ⟨hcd, s, hs, hsub⟩ := rep
          rw [Ref.cell.injEq] at hcd
          subst hcd
          obtain ⟨⟨st₁, cmpos⟩, loop, finish⟩ := hackCofM_succ run
          have inTree : ∀ i, ∀ a ∈ (sub i).cells, a ∈ (Octree.cell c sub).cells := fun i a ha =>
            (Octree.mem_cells_cell c sub a).mpr (.inr ⟨i, ha⟩)
          have rootIn : ∀ a ∈ [c], a ∈ (Octree.cell c sub).cells := by simp [Octree.cells]
          have zero : MassFrame st (st.setCell c fun q => { q with mass := 0 })
              (Octree.cell c sub).cells :=
            (massFrame_setCell st c _ _ _).mono rootIn
          obtain ⟨frame, leaves⟩ : MassFrame st st₁ (Octree.cell c sub).cells ∧
              ∀ i ∈ List.finRange 8, ∀ b ∈ (sub i).leaves, st.isBody b = true := by
            refine foldlM_invariant (fun done s => MassFrame st s.1 (Octree.cell c sub).cells ∧
              ∀ i ∈ done, ∀ b ∈ (sub i).leaves, st.isBody b = true)
              ⟨zero, fun i hi => absurd hi List.not_mem_nil⟩ ?_ loop
            rintro done i rest ⟨st₂, x⟩ s' - ⟨inv, before⟩ turn
            have bodies : ∀ b, st₂.isBody b = st.isBody b := fun b => by
              rw [TreeState.isBody, inv.bodies.bodytab]
              rfl
            have upTo : (∀ b ∈ (sub i).leaves, st₂.isBody b = true) →
                ∀ j ∈ done ++ [i], ∀ b ∈ (sub j).leaves, st.isBody b = true := by
              intro here j hj b hb
              obtain hj | hj := List.mem_append.mp hj
              · exact before j hj b hb
              · rw [List.mem_singleton.mp hj] at hb
                rw [← bodies]
                exact here b hb
            have twice := fun {st'} (h : MassFrame st₂ st' (Octree.cell c sub).cells) =>
              (inv.trans h).mono fun a ha => (List.mem_append.mp ha).elim id id
            have stuff : (st₂.heap c).stuff = .subp s := (inv.kept c).2.2.trans hs
            have here := inv.represents (hsub i)
            obtain ⟨hT, rfl⟩ | ⟨q, st₃, m, y, -, -, rfl, leaf | ⟨e, inner, hT, -, deeper⟩⟩ :=
              sumTurn_cases stuff here turn
            · exact ⟨inv, upTo fun b hb => by simp [hT, Octree.leaves] at hb⟩
            · obtain ⟨b, hT, -, rfl, body⟩ := leaf
              have counted := massFrame_setCell st₃ c NBodyCell.pos (fun q => q.mass + m)
                NBodyCell.rcrit2
              refine ⟨twice (counted.mono rootIn), upTo fun a ha => ?_⟩
              rw [hT, Octree.leaves, List.mem_singleton] at ha
              rw [ha]
              exact body
            · rw [hT] at here
              obtain ⟨child, below⟩ := ih i (by rw [hT]; exact ⟨rfl, here.2⟩) deeper
              have counted := (child.mono (inTree i)).trans (massFrame_setCell st₃ c NBodyCell.pos
                (fun q => q.mass + m) NBodyCell.rcrit2)
              refine ⟨twice (counted.mono fun a ha => ?_), upTo below⟩
              exact (List.mem_append.mp ha).elim id (rootIn a)
          refine ⟨(frame.trans (finishCofM_frame finish)).mono fun a ha => ?_, fun b hb => ?_⟩
          · exact (List.mem_append.mp ha).elim id (rootIn a)
          · obtain ⟨i, hi⟩ := (Octree.mem_leaves_cell c sub b).mp hb
            exact leaves i (List.mem_finRange i) b hi

theorem hackCofM_frame {B : Build R} {ctx : NBodyCtx R} {fuel c : ℕ} {psize : R}
    {st st' : TreeState R} {T : Octree ℕ ℕ} (rep : Represents st.heap T (.cell c))
    (run : hackCofM B ctx fuel st c psize = some st') : MassFrame st st' T.cells :=
  (hackCofM_pass rep run).1

/-! ## Exact arithmetic -/

section Exact
variable {R : Type} [Field R] [LinearOrder R]

structure Weighed (B : Build R) (ctx : NBodyCtx R) (st : TreeState R) (Q : Cube R) (c : ℕ)
    (T : Octree ℕ ℕ) : Prop where
  mass : (st.heap c).mass = T.total fun b => (st.bodytab b).mass
  moment : (st.heap c).mass • (st.heap c).pos =
    T.total fun b => (st.bodytab b).mass • (st.bodytab b).pos
  massless : (st.heap c).mass = 0 → (st.heap c).pos = Q.center
  inside : Q.Contains (st.heap c).pos
  rcrit2 : findRCrit B ctx Q.center st.tree.rsize (st.heap c).pos Q.size =
    some (st.heap c).rcrit2

theorem Weighed.congr {B : Build R} {ctx : NBodyCtx R} {st st' : TreeState R} {Q : Cube R} {c : ℕ}
    {T : Octree ℕ ℕ} (h : Weighed B ctx st Q c T)
    (heap : (st'.heap c).mass = (st.heap c).mass ∧ (st'.heap c).pos = (st.heap c).pos ∧
      (st'.heap c).rcrit2 = (st.heap c).rcrit2)
    (body : ∀ b, (st'.bodytab b).mass = (st.bodytab b).mass ∧
      (st'.bodytab b).pos = (st.bodytab b).pos)
    (rsize : st'.tree.rsize = st.tree.rsize) : Weighed B ctx st' Q c T := by
  obtain ⟨mass, pos, rcrit2⟩ := heap
  have masses := fun b => (body b).1
  have poss := fun b => (body b).2
  constructor
  · rw [mass, h.mass]
    simp only [masses]
  · rw [mass, pos, h.moment]
    simp only [masses, poss]
  · rw [mass, pos]
    exact h.massless
  · rw [pos]
    exact h.inside
  · rw [rsize, pos, rcrit2]
    exact h.rcrit2

variable [IsStrictOrderedRing R]

theorem nbCheckTreeDim_false {p cm half : R} (h : nbCheckTreeDim p cm half = false) :
    |cm - p| ≤ half := by
  simp only [nbCheckTreeDim, Bool.or_eq_false_iff, decide_eq_false_iff_not, not_lt] at h
  rw [abs_le]
  constructor <;> linarith [h.1, h.2]

theorem nbCheckTreeStructure_false {tree : NBodyTree R} {Q : Cube R} {x : Vec3 R}
    (h : (nbCheckTreeStructure tree Q.center x Q.size).structureError = false) : Q.Contains x := by
  simp only [nbCheckTreeStructure, Bool.or_eq_false_iff] at h
  obtain ⟨-, ⟨hx, hy⟩, hz⟩ := h
  have half : (0.5 : R) * Q.size = Q.size / 2 := by
    rw [show (0.5 : R) = 1 / 2 by norm_num]
    ring
  rw [half] at hx hy hz
  exact ⟨nbCheckTreeDim_false hx, nbCheckTreeDim_false hy, nbCheckTreeDim_false hz⟩

omit [LinearOrder R] [IsStrictOrderedRing R] in
theorem smul_mw_divvs {m : R} (v : Vec3 R) (hm : m ≠ 0) : m • mw_divvs v m = v := by
  ext <;> simp only [mw_divvs, Vec3.smul_x, Vec3.smul_y, Vec3.smul_z] <;>
    exact mul_div_cancel₀ _ hm

theorem finishCofM_weighed {B : Build R} {ctx : NBodyCtx R} {c : ℕ} {st st' : TreeState R}
    {x : Vec3 R} {Q : Cube R} {T : Octree ℕ ℕ} (mid : (st.heap c).pos = Q.center)
    (mass : (st.heap c).mass = T.total fun b => (st.bodytab b).mass)
    (moment : x = T.total fun b => (st.bodytab b).mass • (st.bodytab b).pos)
    (nonneg : ∀ b ∈ T.leaves, 0 ≤ (st.bodytab b).mass)
    (run : finishCofM B ctx c Q.size st x = some st') (noError : st'.tree.structureError = false) :
    Weighed B ctx st' Q c T := by
  obtain ⟨rcrit2, hr, rfl⟩ := finishCofM_eq run
  rw [mid] at hr noError
  have inside := nbCheckTreeStructure_false noError
  constructor
  · simpa using mass
  · simp only [TreeState.setCell_heap, Function.update_self, TreeState.setTree_heap,
      TreeState.setCell_bodytab, TreeState.setTree_bodytab]
    rw [← moment]
    by_cases pos : 0 < (st.heap c).mass
    · rw [if_pos pos]
      exact smul_mw_divvs x pos.ne'
    · have zero : T.total (fun b => (st.bodytab b).mass) = 0 :=
        le_antisymm (by rw [← mass]; exact not_lt.mp pos) (Octree.total_nonneg nonneg)
      rw [moment, mass, zero, zero_smul, Octree.moment_eq_zero nonneg zero]
  · intro zero
    have zero : (st.heap c).mass = 0 := by simpa using zero
    simp [zero, mid]
  · simpa [mid] using inside
  · simpa [mid, nbCheckTreeStructure] using hr

structure Summed (B : Build R) (ctx : NBodyCtx R) (st : TreeState R) (c : ℕ) (Q : Cube R)
    (sub : Fin 8 → Octree ℕ ℕ) (done : List (Fin 8)) (s : TreeState R × Vec3 R) : Prop where
  frame : MassFrame st s.1 (c :: done.flatMap fun i => (sub i).cells)
  pos : (s.1.heap c).pos = (st.heap c).pos
  mass : s.1.tree.structureError = false →
    (s.1.heap c).mass = (done.map fun i => (sub i).total fun b => (st.bodytab b).mass).sum
  moment : s.1.tree.structureError = false → s.2 = (done.map fun i =>
    (sub i).total fun b => (st.bodytab b).mass • (st.bodytab b).pos).sum
  below : s.1.tree.structureError = false →
    ∀ i ∈ done, (sub i).EachCell (Weighed B ctx s.1) (Q.octant i)

omit [IsStrictOrderedRing R] in
theorem eachCell_count {B : Build R} {ctx : NBodyCtx R} {st : TreeState R} {c : ℕ} {m : R}
    {Q : Cube R} {T : Octree ℕ ℕ} (h : T.EachCell (Weighed B ctx st) Q) (hc : c ∉ T.cells) :
    T.EachCell (Weighed B ctx (st.setCell c fun q => { q with mass := q.mass + m })) Q := by
  refine h.imp fun Q d T' hd w => ?_
  have hdc : d ≠ c := fun e => hc (e ▸ hd)
  refine w.congr ?_ (fun _ => ⟨rfl, rfl⟩) rfl
  simp [Function.update_of_ne hdc]

omit [IsStrictOrderedRing R] in
theorem eachCell_frame {B : Build R} {ctx : NBodyCtx R} {st st' : TreeState R} {cells : List ℕ}
    {Q : Cube R} {T : Octree ℕ ℕ} (h : T.EachCell (Weighed B ctx st) Q)
    (frame : MassFrame st st' cells) (out : ∀ a ∈ T.cells, a ∉ cells) :
    T.EachCell (Weighed B ctx st') Q := by
  refine h.imp fun Q d T' hd w => w.congr ?_ ?_ ?_
  · rw [frame.outside d (out d hd)]
    exact ⟨rfl, rfl, rfl⟩
  · intro b
    rw [frame.bodies.bodytab]
    exact ⟨rfl, rfl⟩
  · rw [frame.tree]

variable {B : Build R} {ctx : NBodyCtx R} {fuel c : ℕ} {psize : R} {st : TreeState R}
  {Q : Cube R} {sub : Fin 8 → Octree ℕ ℕ} {slots : Fin 8 → NodePtr} {done : List (Fin 8)}
  {i : Fin 8} {s s' : TreeState R × Vec3 R}

omit [IsStrictOrderedRing R] in
theorem Summed.count {st₃ : TreeState R} {m : R} {x : Vec3 R}
    (nodup : (Octree.cell c sub).cells.Nodup) (fresh : i ∉ done)
    (h : Summed B ctx st c Q sub done s) (frame : MassFrame s.1 st₃ (sub i).cells)
    (mass : st₃.tree.structureError = false →
      m = (sub i).total fun b => (st.bodytab b).mass)
    (moment : st₃.tree.structureError = false →
      m • x = (sub i).total fun b => (st.bodytab b).mass • (st.bodytab b).pos)
    (below : st₃.tree.structureError = false →
      (sub i).EachCell (Weighed B ctx st₃) (Q.octant i)) :
    Summed B ctx st c Q sub (done ++ [i])
      (st₃.setCell c fun q => { q with mass := q.mass + m }, s.2 + m • x) := by
  obtain ⟨cOut, nodups, disjoint⟩ := (Octree.nodup_cells_cell c sub).mp nodup
  have same : st₃.heap c = s.1.heap c := frame.outside c (cOut i)
  have counted := massFrame_setCell st₃ c NBodyCell.pos (fun q => q.mass + m) NBodyCell.rcrit2
  refine ⟨((h.frame.trans frame).trans counted).mono fun a ha => ?_, ?_, ?_, ?_, ?_⟩
  · simp only [List.cons_append, List.mem_cons, List.mem_append, List.flatMap_append,
      List.flatMap_cons, List.flatMap_nil, List.append_nil, List.not_mem_nil, or_false] at ha ⊢
    rcases ha with ha | (ha | ha) | ha
    · exact .inl ha
    · exact .inr (.inl ha)
    · exact .inr (.inr ha)
    · exact .inl ha
  · simpa [same] using h.pos
  · intro noError
    simp [same, h.mass (frame.noError noError), mass noError]
  · intro noError
    simp [h.moment (frame.noError noError), moment noError]
  · intro noError j hj
    rcases List.mem_append.mp hj with hj | hj
    · have apart : j ≠ i := fun e => fresh (e ▸ hj)
      exact eachCell_count (eachCell_frame (h.below (frame.noError noError) j hj) frame
        fun a ha m => disjoint j i apart ha m) (cOut j)
    · rw [List.mem_singleton.mp hj]
      exact eachCell_count (below noError) (cOut i)

omit [IsStrictOrderedRing R] in
theorem Summed.step (nodup : (Octree.cell c sub).cells.Nodup)
    (hs : (st.heap c).stuff = .subp slots) (hsub : ∀ i, Represents st.heap (sub i) (slots i))
    (fresh : i ∉ done)
    (child : ∀ d inner st₂ st₃, sub i = .cell d inner → Represents st₂.heap (sub i) (.cell d) →
      (∀ a ∈ (sub i).cells, st₂.heap a = st.heap a) → st₂.bodytab = st.bodytab →
      hackCofM B ctx fuel st₂ d psize = some st₃ →
      st₃.tree.structureError = false → (sub i).EachCell (Weighed B ctx st₃) (Q.octant i))
    (h : Summed B ctx st c Q sub done s)
    (turn : sumTurn (fun st c => hackCofM B ctx fuel st c psize) c s i = some s') :
    Summed B ctx st c Q sub (done ++ [i]) s' := by
  obtain ⟨cOut, nodups, disjoint⟩ := (Octree.nodup_cells_cell c sub).mp nodup
  have before : ∀ a ∈ (sub i).cells, s.1.heap a = st.heap a := by
    intro a ha
    refine h.frame.outside a fun m => ?_
    rcases List.mem_cons.mp m with rfl | m
    · exact cOut i ha
    · obtain ⟨j, hj, haj⟩ := List.mem_flatMap.mp m
      exact disjoint i j (fun e => fresh (e ▸ hj)) ha haj
  have rep := h.frame.represents (hsub i)
  have bodytab := h.frame.bodies.bodytab
  obtain ⟨empty, rfl⟩ |
      ⟨q, st₃, m, x, hm, hx, rfl, ⟨b, leaf, rfl, rfl, -⟩ | ⟨d, inner, cell, rfl, run⟩⟩ :=
    sumTurn_cases ((h.frame.kept c).2.2.trans hs) rep turn
  · refine ⟨h.frame.mono fun a ha => ?_, h.pos, ?_, ?_, ?_⟩
    · simp only [List.mem_cons, List.flatMap_append, List.mem_append] at ha ⊢
      exact ha.imp id .inl
    · intro noError
      simp [h.mass noError, empty, Octree.total, Octree.leaves]
    · intro noError
      simp [h.moment noError, empty, Octree.total, Octree.leaves]
    · intro noError j hj
      rcases List.mem_append.mp hj with hj | hj
      · exact h.below noError j hj
      · rw [List.mem_singleton.mp hj, empty]
        trivial
  · rw [TreeState.mass, Option.some.injEq, bodytab] at hm
    rw [TreeState.pos, Option.some.injEq, bodytab] at hx
    refine h.count nodup fresh (MassFrame.refl _ _) (fun _ => ?_) (fun _ => ?_) fun _ => ?_
    · simp [leaf, hm, Octree.total, Octree.leaves]
    · simp [leaf, hm, hx, Octree.total, Octree.leaves]
    · rw [leaf]
      trivial
  · have rep_d : Represents s.1.heap (sub i) (.cell d) := by
      rw [cell] at rep ⊢
      exact ⟨rfl, rep.2⟩
    have frame := hackCofM_frame rep_d run
    have weighed := child d inner s.1 st₃ cell rep_d before bodytab run
    have bodytab₃ := frame.bodies.bodytab.trans bodytab
    rw [TreeState.mass, Option.some.injEq] at hm
    rw [TreeState.pos, Option.some.injEq] at hx
    refine h.count nodup fresh frame (fun noError => ?_) (fun noError => ?_) weighed
    · have top := weighed noError
      rw [cell] at top ⊢
      rw [← hm, top.1.mass, bodytab₃]
    · have top := weighed noError
      rw [cell] at top ⊢
      rw [← hm, ← hx, top.1.moment, bodytab₃]

theorem hackCofM_weighed {st' : TreeState R} {T : Octree ℕ ℕ}
    (rep : Represents st.heap T (.cell c)) (nodup : T.cells.Nodup)
    (placed : T.Placed (fun a => (st.heap a).pos) (fun b => (st.bodytab b).pos) Q)
    (nonneg : ∀ b ∈ T.leaves, 0 ≤ (st.bodytab b).mass)
    (run : hackCofM B ctx fuel st c Q.size = some st')
    (noError : st'.tree.structureError = false) : T.EachCell (Weighed B ctx st') Q := by
  induction T generalizing fuel c st st' Q with
  | empty => trivial
  | leaf b => trivial
  | cell d sub ih =>
      cases fuel with
      | zero => simp [hackCofM] at run
      | succ fuel =>
          obtain ⟨hcd, slots, hs, hsub⟩ := rep
          rw [Ref.cell.injEq] at hcd
          subst hcd
          obtain ⟨⟨st₁, x⟩, loop, finish⟩ := hackCofM_succ run
          set st₀ := st.setCell c fun q => { q with mass := 0 } with hst₀
          have cOut := ((Octree.nodup_cells_cell c sub).mp nodup).1
          have nodups := ((Octree.nodup_cells_cell c sub).mp nodup).2.1
          have away : ∀ i, ∀ a ∈ (sub i).cells, st₀.heap a = st.heap a := by
            intro i a ha
            have hac : a ≠ c := fun e => cOut i (e ▸ ha)
            simp [hst₀, Function.update_of_ne hac]
          have half : ∀ i, (0.5 : R) * Q.size = (Q.octant i).size := fun i => by
            rw [show (Q.octant i).size = Q.size / 2 from rfl]
            rw [show (0.5 : R) = 1 / 2 by norm_num]
            ring
          have summed : Summed B ctx st₀ c Q sub (List.finRange 8) (st₁, x) := by
            refine foldlM_invariant (Summed B ctx st₀ c Q sub) ?_ ?_ loop
            · exact ⟨MassFrame.refl _ _, rfl, fun _ => by simp [hst₀], fun _ => rfl, by simp⟩
            · intro done i rest s s' split inv turn
              have fresh : i ∉ done := fun m => by
                have nodup := List.nodup_finRange 8
                rw [← split] at nodup
                exact (List.nodup_append.mp nodup).2.2 i m i (by simp) rfl
              refine inv.step nodup (by simpa [hst₀] using hs)
                (fun i => (hsub i).congr fun a ha => by rw [away i a ha]) fresh ?_ turn
              intro d inner st₂ st₃ hT rep₂ heap bodytab deeper noError₃
              refine ih i rep₂ (nodups i) ?_ ?_ (half i ▸ deeper) noError₃
              · rw [bodytab]
                refine Octree.Placed.congr (placed.2 i) fun a ha => ?_
                rw [heap a ha, away i a ha]
              · rw [bodytab]
                exact fun b hb => nonneg b ((Octree.mem_leaves_cell c sub b).mpr ⟨i, hb⟩)
          have last := finishCofM_frame finish
          have noError₁ := last.noError noError
          have bodytab := summed.frame.bodies.bodytab
          refine ⟨finishCofM_weighed ?_ ?_ ?_ ?_ finish noError, fun i => ?_⟩
          · rw [summed.pos, ← placed.1]
            simp [hst₀]
          · rw [summed.mass noError₁, Octree.total_cell, bodytab]
          · rw [summed.moment noError₁, Octree.total_cell, bodytab]
          · rw [bodytab]
            exact nonneg
          · exact eachCell_frame (summed.below noError₁ i (List.mem_finRange i)) last
              fun a ha m => cOut i (List.mem_singleton.mp m ▸ ha)

end Exact

end MilkyWay.NBody
