import MilkyWay.NBody.TreeLoad
import MilkyWay.NBody.TreeMass
import MilkyWay.NBody.TreeThread

/-! The whole construction. Every state that moves and constructions reach meets
`TreeOk`, so that each construction that succeeds leaves a tree with every massive
body in one leaf: for any arithmetic by `Reachable.built`, in exact arithmetic with
cubes, masses and centres by `nbMakeTree_invariant`. -/

namespace MilkyWay.NBody

open Foundation

variable {R : Type} [Zero R] [Add R] [Neg R] [Sub R] [Mul R] [Div R] [OfScientific R] [BEq R]
  [LT R] [DecidableLT R] [LE R] [DecidableLE R]

/-- The states a program reaches by moving its bodies and making trees. -/
inductive Reachable (B : Build R) : TreeState R → Prop
  | start (rsize : R) (bodytab : ℕ → Body R) (nbody : ℕ) (heap : ℕ → NBodyCell R) (heapTop : ℕ)
      (treeIncest : Bool) :
      Reachable B ⟨⟨.null, rsize, 0, 0, false⟩, .null, bodytab, nbody, heap, heapTop, treeIncest⟩
  | move (st : TreeState R) (bodytab : ℕ → Body R) (treeIncest : Bool)
      (links : ∀ b, (bodytab b).next = (st.bodytab b).next) (before : Reachable B st) :
      Reachable B { st with bodytab, treeIncest }
  | make (ctx : NBodyCtx R) (fuel : ℕ) (st st' : TreeState R) (rc : NBodyStatus)
      (before : Reachable B st) (run : nbMakeTree B ctx fuel st = some (rc, st')) :
      Reachable B st'

/-! ## The run of `nbMakeTree` -/

omit [Add R] [Div R] [LE R] [DecidableLE R] in
theorem expandBox_eq {B : Build R} {fuel : ℕ} {st st' : TreeState R}
    (run : expandBox B fuel st = some st') :
    ∃ root rsize, st.pos st.tree.root = some root ∧
      expandLoop (xyzmax st root) fuel st.tree.rsize = some rsize ∧
      st' = st.setTree fun t => { t with rsize } := by
  simp only [expandBox, Option.bind_eq_bind, Option.bind_eq_some_iff, Option.pure_def,
    Option.some.injEq] at run
  obtain ⟨root, hroot, -, -, rsize, loop, rfl⟩ := run
  exact ⟨root, rsize, hroot, loop, rfl⟩

structure LoadedFrom (st st₂ st₃ : TreeState R) (c : ℕ) (leaked free : List ℕ)
    (T : Octree ℕ ℕ) : Prop where
  bodies : SameBodies st st₃
  loaded : Loaded st₂ st₃ c leaked (List.range st.nbody) T free
  bodies₂ : SameBodies st st₂
  more : (st₃.heap c).more = .null

omit [Div R] in
theorem nbMakeTree_load {B : Build R} {fuel : ℕ} {st st₁ st₂ st₃ : TreeState R} (ok : TreeOk st)
    (Kept : TreeState R → Octree ℕ ℕ → Prop) (new : nbNewTree fuel st = some st₁)
    (expand : expandBox B fuel st₁ = some st₂) (load : loadBodies B fuel st₂ = some st₃)
    (kept₂ : ∀ c, st₂.tree.root = .cell c → (st₂.heap c).pos = 0 →
      Kept st₂ (.cell c fun _ => .empty))
    (keep : ∀ (s s' : TreeState R) (b : ℕ) (T U : Octree ℕ ℕ) (new : List ℕ) (n : ℕ)
      (stored : Bool), b < st.nbody → SameBodies st s' → s.tree.rsize = st₂.tree.rsize →
      Insertion (slotOf s') (· * 0.5) (SplitAt s') (· ≤ B.epsilon) b s.tree.rsize T U new n
        stored →
      (∀ a ∈ T.cells, (s'.heap a).pos = (s.heap a).pos) → Kept s T → Kept s' U) :
    ∃ c leaked free T, LoadedFrom st st₂ st₃ c leaked free T ∧ Kept st₃ T := by
  obtain ⟨c, leaked, free, cells, bodies₁, tree, pos, more, stuff⟩ := nbNewTree_spec ok new
  obtain ⟨root, rsize, -, -, rfl⟩ := expandBox_eq expand
  have bodies₂ : SameBodies st (st₁.setTree fun t => { t with rsize }) :=
    ⟨bodies₁.bodytab, bodies₁.nbody, bodies₁.treeIncest⟩
  have start : Loaded (st₁.setTree fun t => { t with rsize })
      (st₁.setTree fun t => { t with rsize }) c leaked [] (.cell c fun _ => .empty) free :=
    Loaded.start (cells.congr rfl rfl fun _ _ => rfl) (by simp [tree]) (by simp [tree])
      (by simp [tree]) stuff
  obtain ⟨T, free', loaded, kept⟩ := loadBodies_spec Kept start (kept₂ c (by simp [tree]) pos)
    (fun s s' b T U new n stored hb same => keep s s' b T U new n stored
      (by rw [← bodies₂.nbody]; exact hb) (bodies₂.trans same)) load
  refine ⟨c, leaked, free', T, ⟨bodies₂.trans loaded.bodies, bodies₂.nbody ▸ loaded, bodies₂, ?_⟩,
    kept⟩
  rw [loaded.rootCell]
  exact more

theorem nbMakeTree_stages {B : Build R} {ctx : NBodyCtx R} {fuel : ℕ} {st st' : TreeState R}
    {rc : NBodyStatus} (run : nbMakeTree B ctx fuel st = some (rc, st')) :
    ∃ st₁ st₂ st₃, nbNewTree fuel st = some st₁ ∧ expandBox B fuel st₁ = some st₂ ∧
      loadBodies B fuel st₂ = some st₃ ∧
      ((rc = .treeStructureError ∧ st₃.tree.structureError = true ∧ st' = st₃) ∨
        st₃.tree.structureError = false ∧ ∃ c st₄, st₃.tree.root = .cell c ∧
          hackCofM B ctx fuel st₃ c st₃.tree.rsize = some st₄ ∧
          ((rc = .treeStructureError ∧ st₄.tree.structureError = true ∧ st' = st₄) ∨
            rc = .success ∧ st₄.tree.structureError = false ∧ ∃ st₅,
              threadTree fuel st₄ (.cell c) .null = some st₅ ∧
              (if ctx.useQuad then hackQuad B fuel st₅ c else some st₅) = some st')) := by
  simp only [nbMakeTree, Option.bind_eq_bind, Option.bind_eq_some_iff] at run
  obtain ⟨st₁, new, st₂, expand, st₃, load, run⟩ := run
  refine ⟨st₁, st₂, st₃, new, expand, load, ?_⟩
  cases error₃ : st₃.tree.structureError with
  | true =>
      simp only [error₃, if_true, Option.pure_def, Option.some.injEq, Prod.mk.injEq] at run
      exact .inl ⟨run.1.symm, rfl, run.2.symm⟩
  | false =>
      simp only [error₃, Bool.false_eq_true, if_false, Option.bind_eq_some_iff] at run
      obtain ⟨c, root, st₄, mass, run⟩ := run
      have root : st₃.tree.root = .cell c := by
        cases h : st₃.tree.root <;> simp_all [Ref.cell?]
      refine .inr ⟨rfl, c, st₄, root, mass, ?_⟩
      cases error₄ : st₄.tree.structureError with
      | true =>
          simp only [error₄, if_true, Option.pure_def, Option.some.injEq, Prod.mk.injEq] at run
          exact .inl ⟨run.1.symm, rfl, run.2.symm⟩
      | false =>
          simp only [error₄, Bool.false_eq_true, if_false, Option.bind_eq_some_iff,
            Option.map_eq_some_iff, Prod.mk.injEq] at run
          obtain ⟨st₅, thread, st₆, quadPass, rfl, rfl⟩ := run
          exact .inr ⟨rfl, rfl, st₅, thread, quadPass⟩

/-! ## What a construction leaves -/

/-- The links a construction leaves: the threading of the tree, unless no body was
loaded; then the root leads to a pointer never set. -/
structure Linked (st : TreeState R) (c : ℕ) (T : Octree ℕ ℕ) : Prop where
  threaded : T.leaves ≠ [] → (links st).Threaded T .null
  bare : T.leaves = [] → T = .cell c (fun _ => .empty) ∧ (st.heap c).next = .null ∧
    (st.heap c).more = .wild

structure LinkFrame (st st' : TreeState R) (cells : List ℕ) : Prop where
  tree : st'.tree = st.tree
  nbody : st'.nbody = st.nbody
  heapTop : st'.heapTop = st.heapTop
  freeCell : st'.freeCell = st.freeCell
  body : ∀ b, st'.bodytab b = { st.bodytab b with next := (st'.bodytab b).next }
  heap : ∀ a, (st'.heap a).pos = (st.heap a).pos ∧ (st'.heap a).mass = (st.heap a).mass ∧
    (st'.heap a).rcrit2 = (st.heap a).rcrit2
  heapOut : ∀ a, a ∉ cells → st'.heap a = st.heap a

section
omit [Zero R] [Neg R] [Div R] [BEq R] [LT R] [DecidableLT R] [LE R] [DecidableLE R]

omit [Add R] [Sub R] [Mul R] [OfScientific R] in
theorem threadTree_linked {fuel c : ℕ} {sub : Fin 8 → Octree ℕ ℕ} {st st₅ : TreeState R}
    (rep : Represents st.heap (.cell c sub) (.cell c)) (cells : (Octree.cell c sub).cells.Nodup)
    (leaves : (Octree.cell c sub).leaves.Nodup) (grounded : (Octree.cell c sub).Grounded)
    (thread : threadTree fuel st (.cell c) .null = some st₅) :
    Linked st₅ c (.cell c sub) ∧
      ThreadFrame st st₅ (Octree.cell c sub).cells (Octree.cell c sub).leaves := by
  by_cases none : (Octree.cell c sub).leaves = []
  · have bare := grounded.bare none
    subst bare
    obtain ⟨next, more, frame⟩ := threadTree_bare rep thread
    exact ⟨⟨fun h => absurd none h, fun _ => ⟨rfl, next, more⟩⟩,
      frame.mono (by simp) (by simp)⟩
  · obtain ⟨threaded, frame⟩ := threadTree_spec rep cells leaves (fun _ => none) grounded thread
    exact ⟨⟨fun _ => threaded, fun h => absurd h none⟩, frame⟩

theorem quadPass_frame {B : Build R} {ctx : NBodyCtx R} {fuel c : ℕ} {T : Octree ℕ ℕ}
    {st₅ st' : TreeState R} (rep₅ : Represents st₅.heap T (.cell c)) (cells : T.cells.Nodup)
    (quadPass : (if ctx.useQuad then hackQuad B fuel st₅ c else some st₅) = some st') :
    QuadFrame st₅ st' T.cells := by
  cases useQuad : ctx.useQuad with
  | false =>
      rw [useQuad, if_neg (by decide), Option.some.injEq] at quadPass
      subst quadPass
      exact QuadFrame.refl _ _
  | true =>
      rw [useQuad, if_pos rfl] at quadPass
      exact hackQuad_frame rep₅ cells quadPass

theorem thread_linked {B : Build R} {ctx : NBodyCtx R} {fuel c : ℕ} {sub : Fin 8 → Octree ℕ ℕ}
    {st st₅ st' : TreeState R} (rep : Represents st.heap (.cell c sub) (.cell c))
    (cells : (Octree.cell c sub).cells.Nodup) (leaves : (Octree.cell c sub).leaves.Nodup)
    (grounded : (Octree.cell c sub).Grounded)
    (thread : threadTree fuel st (.cell c) .null = some st₅)
    (quadPass : (if ctx.useQuad then hackQuad B fuel st₅ c else some st₅) = some st') :
    Represents st₅.heap (.cell c sub) (.cell c) ∧ Linked st' c (.cell c sub) ∧
      LinkFrame st st' (Octree.cell c sub).cells := by
  obtain ⟨linked, frame⟩ := threadTree_linked rep cells leaves grounded thread
  have rep₅ := frame.represents rep
  have quadFrame := quadPass_frame rep₅ cells quadPass
  have sameLinks : links st' = links st₅ := by
    have bodytab : st'.bodytab = st₅.bodytab := by rw [quadFrame.same]
    simp only [links, bodytab, Links.mk.injEq, true_and]
    exact ⟨funext fun a => by rw [quadFrame.heap a], funext fun a => by rw [quadFrame.heap a]⟩
  refine ⟨rep₅, ⟨?_, ?_⟩, ?_⟩
  · rw [sameLinks]
    exact linked.threaded
  · intro none
    obtain ⟨bare, next, more⟩ := linked.bare none
    rw [quadFrame.heap c]
    exact ⟨bare, next, more⟩
  · constructor
    · rw [quadFrame.same, frame.same]
    · rw [quadFrame.same, frame.same]
    · rw [quadFrame.same, frame.same]
    · rw [quadFrame.same, frame.same]
    · intro b
      have bodytab : st'.bodytab = st₅.bodytab := by rw [quadFrame.same]
      rw [bodytab]
      exact frame.body b
    · intro a
      rw [quadFrame.heap a, frame.heap a]
      exact ⟨rfl, rfl, rfl⟩
    · intro a ha
      rw [quadFrame.heapOut a ha, frame.heapOut a ha]

end

/-- What a construction that reports success leaves, for any arithmetic. -/
structure Built (B : Build R) (ctx : NBodyCtx R) (fuel : ℕ) (st st' : TreeState R) (c : ℕ)
    (T : Octree ℕ ℕ) : Prop where
  root : st'.tree.root = .cell c
  isRoot : ∃ sub, T = .cell c sub
  slots : ∃ st₅, Represents st₅.heap T (.cell c) ∧
    (if ctx.useQuad then hackQuad B fuel st₅ c else some st₅) = some st'
  leaves : T.leaves.Perm ((List.range st.nbody).filter fun b => (st.bodytab b).mass != 0)
  isBody : ∀ b ∈ T.leaves, st.isBody b = true
  cells : ∃ leaked free, Cells st' (T.cells ++ leaked) free
  cellUsed : st'.tree.cellUsed = T.cells.length
  maxDepth : st'.tree.maxDepth = T.deepest
  linked : Linked st' c T
  body : ∀ b, st'.bodytab b = { st.bodytab b with next := (st'.bodytab b).next }
  nbody : st'.nbody = st.nbody

section
omit [Add R] [Neg R] [Sub R] [Mul R] [Div R] [OfScientific R] [LT R] [DecidableLT R] [LE R]
  [DecidableLE R]

theorem LoadedFrom.isRoot {st st₂ st₃ : TreeState R} {c : ℕ} {leaked free : List ℕ}
    {T : Octree ℕ ℕ} (h : LoadedFrom st st₂ st₃ c leaked free T) : ∃ sub, T = .cell c sub := by
  obtain ⟨sub, isRoot, -⟩ := h.loaded.loadable
  exact ⟨sub, isRoot⟩

theorem LoadedFrom.leaves {st st₂ st₃ : TreeState R} {c : ℕ} {leaked free : List ℕ}
    {T : Octree ℕ ℕ} (h : LoadedFrom st st₂ st₃ c leaked free T)
    (noError : st₃.tree.structureError = false) :
    T.leaves.Perm ((List.range st.nbody).filter fun b => (st.bodytab b).mass != 0) := by
  have leaves := (h.loaded.noError noError).2.1
  rw [h.bodies₂.bodytab] at leaves
  exact leaves

theorem LoadedFrom.treeOk {st st₂ st₃ st' : TreeState R} {c : ℕ} {leaked free : List ℕ}
    {T : Octree ℕ ℕ} (h : LoadedFrom st st₂ st₃ c leaked free T)
    (frame : MassFrame st₃ st' T.cells) : TreeOk st' := by
  obtain ⟨sub, rfl⟩ := h.isRoot
  have cells : Cells st' ((Octree.cell c sub).cells ++ leaked) free :=
    h.loaded.cells.congr frame.heapTop frame.freeCell fun a _ => (frame.kept a).1
  refine ⟨.cell c fun _ => .empty, ((List.finRange 8).flatMap fun i => (sub i).cells) ++ leaked,
    free, ?_, ?_, .inr ⟨c, rfl, .inl ?_⟩⟩
  · rw [Octree.cells_bare]
    exact cells
  · rw [frame.tree]
    exact h.loaded.root
  · rw [(frame.kept c).2.1, h.more]

end

omit [Neg R] in
theorem LoadedFrom.built {B : Build R} {ctx : NBodyCtx R} {fuel : ℕ}
    {st st₂ st₃ st₄ st₅ st' : TreeState R} {c : ℕ} {leaked free : List ℕ} {T : Octree ℕ ℕ}
    (h : LoadedFrom st st₂ st₃ c leaked free T) (noError : st₃.tree.structureError = false)
    (mass : hackCofM B ctx fuel st₃ c st₃.tree.rsize = some st₄)
    (thread : threadTree fuel st₄ (.cell c) .null = some st₅)
    (quadPass : (if ctx.useQuad then hackQuad B fuel st₅ c else some st₅) = some st') :
    Built B ctx fuel st st' c T ∧ LinkFrame st₄ st' T.cells ∧ SameBodies st st₄ ∧
      T.cells.Nodup := by
  obtain ⟨sub, rfl⟩ := h.isRoot
  obtain ⟨frame, isBody⟩ := hackCofM_pass h.loaded.rep mass
  have nodup : (Octree.cell c sub).cells.Nodup := h.loaded.cells.nodup.of_append_left.of_append_left
  have leaves := h.leaves noError
  have leavesNodup : (Octree.cell c sub).leaves.Nodup :=
    leaves.nodup_iff.mpr (List.nodup_range.filter _)
  obtain ⟨rep₅, linked, links⟩ := thread_linked (frame.represents h.loaded.rep) nodup leavesNodup
    h.loaded.grounded thread quadPass
  have bodies : SameBodies st st₄ := h.bodies.trans frame.bodies
  have cells₄ : Cells st₄ ((Octree.cell c sub).cells ++ leaked) free :=
    h.loaded.cells.congr frame.heapTop frame.freeCell fun a _ => (frame.kept a).1
  refine ⟨⟨?_, ⟨sub, rfl⟩, ⟨st₅, rep₅, quadPass⟩, leaves, ?_, ⟨leaked, free, ?_⟩, ?_, ?_, linked,
    ?_, ?_⟩, links, bodies, nodup⟩
  · rw [links.tree, frame.tree]
    exact h.loaded.root
  · intro b hb
    rw [← isBody b hb, TreeState.isBody, TreeState.isBody, h.bodies.bodytab]
  · refine cells₄.congr links.heapTop links.freeCell fun a ha => ?_
    have out : a ∉ (Octree.cell c sub).cells := fun m =>
      h.loaded.cells.disjoint (List.mem_append_left _ m) ha rfl
    rw [links.heapOut a out]
  · rw [links.tree, frame.tree]
    exact h.loaded.cellUsed
  · rw [links.tree, frame.tree]
    exact (h.loaded.noError noError).2.2
  · intro b
    rw [← bodies.bodytab]
    exact links.body b
  · rw [links.nbody, bodies.nbody]

omit [Neg R] [LT R] [DecidableLT R] [LE R] [DecidableLE R] [Div R] in
theorem Built.treeOk {B : Build R} {ctx : NBodyCtx R} {fuel : ℕ} {st st' : TreeState R} {c : ℕ}
    {T : Octree ℕ ℕ} (h : Built B ctx fuel st st' c T) : TreeOk st' := by
  obtain ⟨leaked, free, cells⟩ := h.cells
  obtain ⟨sub, rfl⟩ := h.isRoot
  refine ⟨_, leaked, free, cells, h.root, ?_⟩
  by_cases none : (Octree.cell c sub).leaves = []
  · obtain ⟨bare, -, more⟩ := h.linked.bare none
    exact .inr ⟨c, bare, .inr more⟩
  · exact .inl (h.linked.threaded none)

theorem nbMakeTree_ok {B : Build R} {ctx : NBodyCtx R} {fuel : ℕ} {st st' : TreeState R}
    {rc : NBodyStatus} (ok : TreeOk st) (run : nbMakeTree B ctx fuel st = some (rc, st')) :
    TreeOk st' := by
  obtain ⟨st₁, st₂, st₃, new, expand, load, rest⟩ := nbMakeTree_stages run
  obtain ⟨c, leaked, free, T, from_, -⟩ := nbMakeTree_load ok (fun _ _ => True) new expand load
    (fun _ _ _ => trivial) (fun _ _ _ _ _ _ _ _ _ _ _ _ _ _ => trivial)
  obtain ⟨-, -, rfl⟩ | ⟨noError, d, st₄, root, mass, rest⟩ := rest
  · exact from_.treeOk (MassFrame.refl _ _)
  · rw [from_.loaded.root, Ref.cell.injEq] at root
    subst root
    obtain ⟨-, -, rfl⟩ | ⟨-, -, st₅, thread, quadPass⟩ := rest
    · exact from_.treeOk (hackCofM_frame from_.loaded.rep mass)
    · exact (from_.built noError mass thread quadPass).1.treeOk

theorem Reachable.treeOk {B : Build R} {st : TreeState R} (h : Reachable B st) : TreeOk st := by
  induction h with
  | start rsize bodytab nbody heap heapTop treeIncest =>
      exact ⟨.empty, [], [], ⟨rfl, List.nodup_nil, by simp [Octree.cells]⟩, rfl, .inl trivial⟩
  | move st bodytab treeIncest same before ih =>
      obtain ⟨T, leaked, free, cells, root, rest⟩ := ih
      refine ⟨T, leaked, free, ⟨cells.chain, cells.nodup, cells.below⟩, root, ?_⟩
      refine rest.imp (fun threaded => ?_) id
      have sameLinks : links { st with bodytab, treeIncest } = links st := by
        simp only [links, same]
      rw [sameLinks]
      exact threaded
  | make ctx fuel st st' rc before run ih => exact nbMakeTree_ok ih run

theorem Reachable.built {B : Build R} {ctx : NBodyCtx R} {fuel : ℕ} {st st' : TreeState R}
    (h : Reachable B st) (run : nbMakeTree B ctx fuel st = some (.success, st')) :
    ∃ c T, Built B ctx fuel st st' c T := by
  obtain ⟨st₁, st₂, st₃, new, expand, load, rest⟩ := nbMakeTree_stages run
  obtain ⟨c, leaked, free, T, from_, -⟩ := nbMakeTree_load h.treeOk (fun _ _ => True) new expand
    load (fun _ _ _ => trivial) (fun _ _ _ _ _ _ _ _ _ _ _ _ _ _ => trivial)
  obtain ⟨rc, -⟩ | ⟨noError, d, st₄, root, mass, rest⟩ := rest
  · cases rc
  · rw [from_.loaded.root, Ref.cell.injEq] at root
    subst root
    obtain ⟨rc, -⟩ | ⟨-, -, st₅, thread, quadPass⟩ := rest
    · cases rc
    · exact ⟨c, T, (from_.built noError mass thread quadPass).1⟩

theorem nbMakeTree_rsize {B : Build R} {ctx : NBodyCtx R} {fuel : ℕ} {s t t₁ t₂ : TreeState R}
    (ok : TreeOk t) {rc : NBodyStatus} (run : nbMakeTree B ctx fuel t = some (rc, s))
    (new : nbNewTree fuel t = some t₁) (expand : expandBox B fuel t₁ = some t₂) :
    s.tree.rsize = t₂.tree.rsize := by
  obtain ⟨s₁, s₂, t₃, new', expand', load, stages⟩ := nbMakeTree_stages run
  rw [new, Option.some.injEq] at new'
  subst new'
  rw [expand, Option.some.injEq] at expand'
  subst expand'
  obtain ⟨c, leaked, free, T, from_, -⟩ := nbMakeTree_load ok (fun _ _ => True) new expand
    load (fun _ _ _ => trivial) (fun _ _ _ _ _ _ _ _ _ _ _ _ _ _ => trivial)
  obtain ⟨-, -, rfl⟩ | ⟨noError, d, t₄, root, mass, stages⟩ := stages
  · exact from_.loaded.rsize
  · rw [from_.loaded.root, Ref.cell.injEq] at root
    subst root
    have massed : t₄.tree.rsize = t₂.tree.rsize := by
      rw [(hackCofM_frame from_.loaded.rep mass).tree]
      exact from_.loaded.rsize
    obtain ⟨-, -, rfl⟩ | ⟨-, -, t₅, thread, quadPass⟩ := stages
    · exact massed
    · obtain ⟨-, links, -, -⟩ := from_.built noError mass thread quadPass
      rw [links.tree, massed]

theorem nbMakeTree_treeIncest {B : Build R} {ctx : NBodyCtx R} {fuel : ℕ} {st st' : TreeState R}
    (ok : TreeOk st) (run : nbMakeTree B ctx fuel st = some (.success, st')) :
    st'.treeIncest = st.treeIncest := by
  obtain ⟨st₁, st₂, st₃, new, expand, load, rest⟩ := nbMakeTree_stages run
  obtain ⟨c, leaked, free, T, from_, -⟩ := nbMakeTree_load ok (fun _ _ => True) new expand load
    (fun _ _ _ => trivial) (fun _ _ _ _ _ _ _ _ _ _ _ _ _ _ => trivial)
  obtain ⟨rc, -⟩ | ⟨noError, d, st₄, root, mass, rest⟩ := rest
  · cases rc
  · rw [from_.loaded.root, Ref.cell.injEq] at root
    subst root
    obtain ⟨rc, -⟩ | ⟨-, -, st₅, thread, quadPass⟩ := rest
    · cases rc
    · obtain ⟨sub, rfl⟩ := from_.isRoot
      have frame := hackCofM_frame from_.loaded.rep mass
      have nodup := from_.loaded.cells.nodup.of_append_left.of_append_left
      have leaves := (from_.leaves noError).nodup_iff.mpr (List.nodup_range.filter _)
      obtain ⟨-, threaded⟩ := threadTree_linked (frame.represents from_.loaded.rep) nodup leaves
        from_.loaded.grounded thread
      have quads := quadPass_frame (threaded.represents (frame.represents from_.loaded.rep)) nodup
        quadPass
      calc st'.treeIncest = st₅.treeIncest := by rw [quads.same]
        _ = st₄.treeIncest := by rw [threaded.same]
        _ = st₃.treeIncest := frame.bodies.treeIncest
        _ = st.treeIncest := from_.bodies.treeIncest

end MilkyWay.NBody
