import MilkyWay.NBody.BodyOctree
import MilkyWay.NBody.TreeInvariant

/-! Where the cells of the tree are between constructions. A cell ever allocated is
reached from the root along the links or stands on the free list, and is freed once at
the end, as long as each construction threads a tree that has a body: what is left
early, or has no body to thread, is lost with all its cells but the root. Where the bodies
have an octree with every centre of mass in its cube no construction is left early. -/

namespace MilkyWay.NBody

open Foundation

variable {R : Type}

/-! ## The end of a state -/

/-- Free the cells of the tree, in the order of the links. Freeing a cell again fails. -/
def freeNBodyTree : ℕ → TreeState R → List ℕ → NodePtr → Option (List ℕ)
  | 0, _, _, _ => none
  | _ + 1, _, freed, .null => some freed
  | _ + 1, _, _, .wild => none
  | fuel + 1, st, freed, .leaf b => freeNBodyTree fuel st freed (st.bodytab b).next
  | fuel + 1, st, freed, .cell c =>
      if c ∈ freed then none else freeNBodyTree fuel st (freed ++ [c]) (st.heap c).more

def freeFreeCells : ℕ → TreeState R → List ℕ → NodePtr → Option (List ℕ)
  | 0, _, _, _ => none
  | _ + 1, _, freed, .null => some freed
  | fuel + 1, st, freed, .cell c =>
      if c ∈ freed then none else freeFreeCells fuel st (freed ++ [c]) (st.heap c).next
  | _ + 1, _, _, _ => none

/-- The cells that the end of a state frees, in order. -/
def destroyNBodyState (fuel : ℕ) (st : TreeState R) : Option (List ℕ) := do
  let freed ← freeNBodyTree fuel st [] st.tree.root
  freeFreeCells fuel st freed st.freeCell

/-! ## Where the cells are -/

def collect (cells : List ℕ) (p : NodePtr) : List ℕ := cells ++ p.cell?.toList

def treeCells (fuel : ℕ) (st : TreeState R) : Option (List ℕ) :=
  (links st).walk (fun _ => true) collect fuel st.tree.root []

/-- Every cell ever allocated is in the tree or on the free list, in one place only, and
is freed once with the state. -/
structure Conserved (st : TreeState R) : Prop where
  places : ∃ fuel reached free, treeCells fuel st = some reached ∧
    FreeChain st.heap free st.freeCell ∧ (reached ++ free).Perm (List.range st.heapTop)
  freed : ∃ fuel freed, destroyNBodyState fuel st = some freed ∧
    freed.Perm (List.range st.heapTop)

theorem FreeChain.unique {heap : ℕ → NBodyCell R} {L L' : List ℕ} {p : NodePtr}
    (h : FreeChain heap L p) (h' : FreeChain heap L' p) : L = L' := by
  induction L generalizing p L' with
  | nil =>
      cases L' with
      | nil => rfl
      | cons a L' => cases (show p = .null from h).symm.trans h'.1
  | cons a L ih =>
      cases L' with
      | nil => cases h.1.symm.trans (show p = .null from h')
      | cons b L' =>
          have same := h.1.symm.trans h'.1
          rw [Ref.cell.injEq] at same
          subst same
          rw [ih h.2 h'.2]

theorem prefix_of_collect (L : Links ℕ ℕ) {fuel : ℕ} {p : NodePtr} {cells r : List ℕ}
    (way : L.walk (fun _ => true) collect fuel p cells = some r) : cells <+: r := by
  induction fuel generalizing p cells with
  | zero => cases way
  | succ fuel ih =>
      cases p with
      | null =>
          cases way
          exact List.prefix_rfl
      | wild => cases way
      | leaf b => exact (List.prefix_append _ _).trans (ih way)
      | cell c => exact (List.prefix_append _ _).trans (ih way)

theorem freeNBodyTree_eq {st : TreeState R} {fuel : ℕ} {p : NodePtr} {freed r : List ℕ}
    (way : (links st).walk (fun _ => true) collect fuel p freed = some r) (nodup : r.Nodup) :
    freeNBodyTree fuel st freed p = some r := by
  induction fuel generalizing p freed with
  | zero => cases way
  | succ fuel ih =>
      cases p with
      | null => exact way
      | wild => cases way
      | leaf b =>
          have same : collect freed (.leaf b) = freed := List.append_nil freed
          rw [Links.walk, same] at way
          exact ih way
      | cell c =>
          have way : (links st).walk (fun _ => true) collect fuel (st.heap c).more
            (freed ++ [c]) = some r := way
          have once : (freed ++ [c]).Nodup := nodup.sublist (prefix_of_collect _ way).sublist
          have fresh : c ∉ freed := fun m =>
            (List.nodup_append.mp once).2.2 c m c (List.mem_singleton_self c) rfl
          rw [freeNBodyTree, if_neg fresh]
          exact ih way

theorem freeFreeCells_eq {st : TreeState R} {L freed : List ℕ} {p : NodePtr} {fuel : ℕ}
    (chain : FreeChain st.heap L p) (nodup : (freed ++ L).Nodup) (enough : L.length < fuel) :
    freeFreeCells fuel st freed p = some (freed ++ L) := by
  obtain ⟨fuel, rfl⟩ := Nat.exists_eq_add_of_lt enough
  induction L generalizing p freed with
  | nil =>
      rw [show p = .null from chain, freeFreeCells, List.append_nil]
  | cons a L ih =>
      have fresh : a ∉ freed := fun m =>
        (List.nodup_append.mp nodup).2.2 a m a (List.mem_cons_self ..) rfl
      rw [chain.1, List.length_cons,
        show L.length + 1 + fuel + 1 = (L.length + fuel + 1) + 1 by omega, freeFreeCells,
        if_neg fresh, ih chain.2 (by simpa using nodup) (by omega), List.append_assoc]
      rfl

theorem destroyNBodyState_eq {st : TreeState R} {fuel : ℕ} {reached free : List ℕ}
    (way : treeCells fuel st = some reached) (chain : FreeChain st.heap free st.freeCell)
    (nodup : (reached ++ free).Nodup) :
    destroyNBodyState (fuel + (free.length + 1)) st = some (reached ++ free) := by
  have tree := freeNBodyTree_eq ((links st).walk_add _ _ (free.length + 1) way)
    nodup.of_append_left
  rw [destroyNBodyState, tree]
  exact freeFreeCells_eq chain nodup (by omega)

/-! ## The count of the cells -/

/-- The cells allocated are those of the present tree, those on the free list and as many
as `lost` others. -/
def Balanced (lost : ℕ) (st : TreeState R) : Prop :=
  ∃ used free, Cells st used free ∧ st.heapTop = lost + st.tree.cellUsed + free.length

theorem Balanced.count {lost : ℕ} {st : TreeState R} (h : Balanced lost st) {used free : List ℕ}
    (cells : Cells st used free) : st.heapTop = lost + st.tree.cellUsed + free.length := by
  obtain ⟨used', free', cells', count⟩ := h
  rw [cells.chain.unique cells'.chain]
  exact count

theorem Balanced.congr {lost : ℕ} {st st' : TreeState R} (h : Balanced lost st)
    {used free : List ℕ} (cells : Cells st used free) (heapTop : st'.heapTop = st.heapTop)
    (freeCell : st'.freeCell = st.freeCell)
    (next : ∀ a ∈ free, (st'.heap a).next = (st.heap a).next)
    (cellUsed : st'.tree.cellUsed = st.tree.cellUsed) : Balanced lost st' := by
  refine ⟨used, free, cells.congr heapTop freeCell next, ?_⟩
  rw [heapTop, cellUsed]
  exact h.count cells

theorem nbMakeCell_balanced {lost c : ℕ} {st st' : TreeState R} (h : Balanced lost st)
    (made : nbMakeCell st = some (c, st')) : Balanced lost st' := by
  obtain ⟨used, free, cells, count⟩ := h
  obtain ⟨new, -, free', cells', supply⟩ := nbMakeCell_spec cells made
  refine ⟨c :: used, free', cells', ?_⟩
  rw [new.tree]
  show _ = lost + (st.tree.cellUsed + 1) + free'.length
  rcases supply with ⟨rfl, same⟩ | ⟨rfl, rfl, -, more⟩
  · rw [List.length_cons] at count
    omega
  · omega

section
variable [Add R] [Neg R] [Mul R] [OfScientific R] [LT R] [DecidableLT R] [LE R] [DecidableLE R]

theorem splitSlot_balanced {lost : ℕ} {st st' : TreeState R} {c n : ℕ} {i : Fin 8} {x : Vec3 R}
    {o : ℕ} {size : R} {used free : List ℕ} (cells : Cells st used free) (hc : c ∈ used)
    (h : Balanced lost st) (hsplit : splitSlot st c i x o size = some (n, st')) :
    Balanced lost st' := by
  simp only [splitSlot, Option.bind_eq_bind, Option.bind_eq_some_iff, Option.pure_def,
    Prod.exists] at hsplit
  obtain ⟨m, st₁, made, sub, -, sub', -, done⟩ := hsplit
  obtain ⟨-, fresh, free', cells', -⟩ := nbMakeCell_spec cells made
  simp only [Option.some.injEq, Prod.mk.injEq] at done
  obtain ⟨rfl, rfl⟩ := done
  refine (nbMakeCell_balanced h made).congr cells' rfl rfl (fun a ha => ?_) rfl
  have ham : a ≠ m := (cells'.disjoint (List.mem_cons_self ..) ha).symm
  have hac : a ≠ c := (cells'.disjoint (List.mem_cons_of_mem _ hc) ha).symm
  simp [TreeState.setCell, TreeState.setSubp, Function.update_of_ne ham, Function.update_of_ne hac]

theorem loadLoop_balanced {B : Build R} {lost b fuel : ℕ} {st st' : TreeState R} {c : ℕ}
    {sub : Fin 8 → Octree ℕ ℕ} {size : R} {lev : ℕ} {used free : List ℕ}
    (loadable : Loadable st c sub used free) (h : Balanced lost st)
    (run : loadLoop B b fuel st c size lev = some st') : Balanced lost st' := by
  induction fuel generalizing st c sub size lev used free with
  | zero => cases run
  | succ fuel ih =>
      obtain ⟨-, s, hs, -⟩ := loadable.rep
      rw [loadLoop_succ B b fuel st c size lev s hs] at run
      have slot := loadable.slots hs (slotOf st c b)
      have stop : Balanced lost (st.setTree fun t => { t with structureError := true }) :=
        h.congr loadable.cells rfl rfl (fun _ _ => rfl) rfl
      cases hT : sub (slotOf st c b) with
      | empty =>
          rw [hT] at slot
          rw [show s (slotOf st c b) = .null from slot, Option.some.injEq] at run
          subst run
          refine h.congr loadable.cells rfl rfl (fun a ha => ?_) rfl
          have hac : a ≠ c := (loadable.cells.disjoint loadable.root_inUse ha).symm
          simp [TreeState.setSubp, Function.update_of_ne hac]
      | leaf o =>
          rw [hT] at slot
          rw [show s (slotOf st c b) = .leaf o from slot] at run
          dsimp only at run
          by_cases small : size ≤ B.epsilon
          · rw [if_pos small, Option.some.injEq] at run
            exact run ▸ stop
          · rw [if_neg small, Option.ite_none_right_eq_some, Option.bind_eq_some_iff] at run
            obtain ⟨-, ⟨m, st₁⟩, hsplit, run⟩ := run
            obtain ⟨-, ⟨free₁, cells₁⟩, -, stuff, -⟩ :=
              splitSlot_spec loadable.cells loadable.root_inUse hs hsplit
            exact ih (Loadable.made cells₁ stuff)
              (splitSlot_balanced loadable.cells loadable.root_inUse h hsplit) run
      | cell d inner =>
          obtain ⟨slot, inside⟩ := loadable.child hs hT
          rw [slot] at run
          dsimp only at run
          by_cases small : size ≤ B.epsilon
          · rw [if_pos small, Option.some.injEq] at run
            exact run ▸ stop
          · rw [if_neg small] at run
            exact ih inside h run

variable [BEq R] [Zero R]

theorem loadBodies_balanced {B : Build R} {lost fuel c : ℕ} {st₀ st' : TreeState R}
    {leaked free : List ℕ} {T₀ : Octree ℕ ℕ} (start : Loaded st₀ st₀ c leaked [] T₀ free)
    (h : Balanced lost st₀) (run : loadBodies B fuel st₀ = some st') : Balanced lost st' := by
  refine (foldlM_invariant (fun done st =>
    (∃ T free', Loaded st₀ st c leaked done T free') ∧ Balanced lost st)
    ⟨⟨T₀, free, start⟩, h⟩ ?_ run).2
  rintro done b rest st st₁ - ⟨⟨T, free₁, loaded⟩, balanced⟩ turn
  rw [loaded.bodies.bodytab] at turn
  by_cases massive : (st₀.bodytab b).mass != 0
  · rw [if_pos massive] at turn
    obtain ⟨U, free₂, -, -, -, loaded', -⟩ := loaded.step massive turn
    obtain ⟨sub, rfl, loadable⟩ := loaded.loadable
    simp only [nbLoadBody, loaded.root] at turn
    exact ⟨⟨U, free₂, loaded'⟩, loadLoop_balanced loadable balanced turn⟩
  · rw [if_neg massive, Option.some.injEq] at turn
    subst turn
    exact ⟨⟨T, free₁, loaded.skip massive⟩, balanced⟩

end

/-! ## What a construction leaves of the cells -/

theorem perm_range {l : List ℕ} {n : ℕ} (nodup : l.Nodup) (below : ∀ a ∈ l, a < n)
    (all : n ≤ l.length) : l.Perm (List.range n) := by
  have sub : l.Subperm (List.range n) :=
    List.subperm_of_subset nodup fun a ha => List.mem_range.mpr (below a ha)
  exact sub.perm_of_length_le (by rw [List.length_range]; exact all)

theorem Cells.count_le {st : TreeState R} {used free : List ℕ} (h : Cells st used free) :
    (used ++ free).length ≤ st.heapTop := by
  have sub : (used ++ free).Subperm (List.range st.heapTop) :=
    List.subperm_of_subset h.nodup fun a ha => List.mem_range.mpr (h.below a ha)
  simpa using sub.length_le

def Whole (st : TreeState R) : Prop :=
  ∃ T free, Cells st T.cells free ∧ st.tree.root = T.entry .null ∧
    ((links st).Threaded T .null ∨
      ∃ c, T = .cell c (fun _ => .empty) ∧ (st.heap c).more = .null) ∧
    st.heapTop = T.cells.length + free.length

theorem foldl_collect (refs : List NodePtr) (cells : List ℕ) :
    refs.foldl collect cells = cells ++ refs.filterMap Ref.cell? := by
  induction refs generalizing cells with
  | nil => exact (List.append_nil cells).symm
  | cons p refs ih =>
      rw [List.foldl_cons, ih, collect]
      cases p <;> simp [Ref.cell?, List.filterMap_cons]

theorem treeCells_alone {st : TreeState R} {c : ℕ} (root : st.tree.root = .cell c)
    (more : (st.heap c).more = .null) : treeCells 2 st = some [c] := by
  have links : (links st).more c = .null := more
  rw [treeCells, root, Links.walk, if_pos rfl, links]
  rfl

theorem treeCells_unique {st : TreeState R} {fuel fuel' : ℕ} {r r' : List ℕ}
    (h : treeCells fuel st = some r) (h' : treeCells fuel' st = some r') : r = r' := by
  have first := (links st).walk_add _ _ fuel' h
  have second := (links st).walk_add _ _ fuel h'
  rw [Nat.add_comm, first, Option.some.injEq] at second
  exact second

theorem Whole.conserved {st : TreeState R} (h : Whole st) : Conserved st := by
  obtain ⟨T, free, cells, root, scan, count⟩ := h
  have perm : (T.cells ++ free).Perm (List.range st.heapTop) :=
    perm_range cells.nodup cells.below (by rw [List.length_append, count])
  have way : ∃ fuel, treeCells fuel st = some T.cells := by
    rcases scan with threaded | ⟨c, rfl, more⟩
    · refine ⟨(T.visits fun _ => true).length + 1, ?_⟩
      rw [treeCells, root, Links.walk_threaded _ _ _ T .null 1 [] threaded, foldl_collect,
        T.visits_all_cells]
      rfl
    · refine ⟨2, ?_⟩
      rw [Octree.cells_bare]
      exact treeCells_alone root more
  obtain ⟨fuel, way⟩ := way
  exact ⟨⟨fuel, _, free, way, cells.chain, perm⟩, _, _,
    destroyNBodyState_eq way cells.chain cells.nodup, perm⟩

theorem Balanced.whole {st : TreeState R} (h : Balanced 0 st) {T : Octree ℕ ℕ}
    {leaked free : List ℕ} (cells : Cells st (T.cells ++ leaked) free)
    (cellUsed : st.tree.cellUsed = T.cells.length) :
    Cells st T.cells free ∧ st.heapTop = T.cells.length + free.length := by
  have count := h.count cells
  have bound := cells.count_le
  rw [List.length_append, List.length_append] at bound
  have none : leaked = [] := List.eq_nil_of_length_eq_zero (by omega)
  rw [none, List.append_nil] at cells
  exact ⟨cells, by omega⟩

section
variable [Zero R] [Add R] [Neg R] [Sub R] [Mul R] [Div R] [OfScientific R] [BEq R]
  [LT R] [DecidableLT R] [LE R] [DecidableLE R]

/-- The memory in which a construction is left or goes on to thread the tree. -/
def buildTree (B : Build R) (ctx : NBodyCtx R) (fuel : ℕ) (st : TreeState R) :
    Option (TreeState R) := do
  let st ← nbNewTree fuel st
  let st ← expandBox B fuel st
  let st ← loadBodies B fuel st
  if st.tree.structureError then return st
  let root ← st.tree.root.cell?
  hackCofM B ctx fuel st root st.tree.rsize

/-- A construction that leaves every cell where it is found again: left early, its tree is
the root alone, and otherwise it has a body to thread. -/
def KeepsCells (B : Build R) (ctx : NBodyCtx R) (fuel : ℕ) (st : TreeState R) : Prop :=
  ∀ built, buildTree B ctx fuel st = some built →
    if built.tree.structureError then built.tree.cellUsed = 1
    else ∃ b < st.nbody, (st.bodytab b).mass != 0

def Expands (far side side' : R) : Prop :=
  ∃ k, (∀ j < k, (· * 2.0)^[j] side < 2.0 * far) ∧ ¬(· * 2.0)^[k] side < 2.0 * far ∧
    side' = (· * 2.0)^[k] side

/-- The bodies and the error flag for which a construction loses no cell. There is a body to
thread or an error from before. The root is not divided, as it is too small or no two
bodies share an octant of it, or there is no error from before and the bodies have an octree
with every centre of mass in its cube. -/
def Recycles (B : Build R) (st : TreeState R) : Prop :=
  (st.tree.structureError = true ∨ massive st ≠ []) ∧
    ∀ side, Expands (xyzmax st 0) st.tree.rsize side →
      side ≤ B.epsilon ∨
      (∀ i, (Octree.inSlot (fun mid b => nbSubIndex (positions st b) mid) 0 (massive st)
        i).length ≤ 1) ∨
      st.tree.structureError = false ∧ ∃ T, BodyOctree B (positions st) side T (massive st) ∧
        CentresInside (positions st) (masses st) side T

omit [Add R] [Neg R] [Sub R] [Mul R] [Div R] [OfScientific R] [LT R] [DecidableLT R] [LE R]
  [DecidableLE R] in
theorem LoadedFrom.conserved_iff {st st₂ st₃ st' : TreeState R} {c : ℕ} {leaked free : List ℕ}
    {T : Octree ℕ ℕ} (h : LoadedFrom st st₂ st₃ c leaked free T) (balanced : Balanced 0 st₃)
    (frame : MassFrame st₃ st' T.cells) :
    (st'.tree.cellUsed = 1 → Whole st') ∧ (Conserved st' → st'.tree.cellUsed = 1) := by
  obtain ⟨sub, rfl⟩ := h.isRoot
  have cells : Cells st' ((Octree.cell c sub).cells ++ leaked) free :=
    h.loaded.cells.congr frame.heapTop frame.freeCell fun a _ => (frame.kept a).1
  have cellUsed : st'.tree.cellUsed = (Octree.cell c sub).cells.length := by
    rw [frame.tree]
    exact h.loaded.cellUsed
  have root : st'.tree.root = .cell c := by
    rw [frame.tree]
    exact h.loaded.root
  have more : (st'.heap c).more = .null := by
    rw [(frame.kept c).2.1, h.more]
  have balanced' : Balanced 0 st' := balanced.congr h.loaded.cells frame.heapTop frame.freeCell
    (fun a _ => (frame.kept a).1) (by rw [frame.tree])
  obtain ⟨cells, count⟩ := balanced'.whole cells cellUsed
  rw [cellUsed]
  constructor
  · intro one
    have alone : (Octree.cell c sub).cells = [c] := by
      rw [Octree.cells, List.length_cons] at one
      rw [Octree.cells, List.eq_nil_of_length_eq_zero (Nat.succ.inj one)]
    rw [alone] at cells count
    exact ⟨.cell c fun _ => .empty, free, by rw [Octree.cells_bare]; exact cells, root,
      .inr ⟨c, rfl, more⟩, by rw [Octree.cells_bare]; exact count⟩
  · intro conserved
    obtain ⟨fuel, reached, free', way, chain, perm⟩ := conserved.places
    rw [treeCells_unique way (treeCells_alone root more), chain.unique cells.chain] at perm
    have size := perm.length_eq
    rw [List.length_append, List.length_singleton, List.length_range] at size
    omega

omit [Neg R] [Div R] [LT R] [DecidableLT R] [LE R] [DecidableLE R] in
theorem Built.conserved_iff {B : Build R} {ctx : NBodyCtx R} {fuel : ℕ} {st st' : TreeState R}
    {c : ℕ} {T : Octree ℕ ℕ} (h : Built B ctx fuel st st' c T) (balanced : Balanced 0 st') :
    (T.leaves ≠ [] → Whole st') ∧ (Conserved st' → T.leaves ≠ []) := by
  obtain ⟨leaked, free, cells⟩ := h.cells
  obtain ⟨sub, rfl⟩ := h.isRoot
  obtain ⟨cells, count⟩ := balanced.whole cells h.cellUsed
  refine ⟨fun some => ⟨_, free, cells, h.root, .inl (h.linked.threaded some), count⟩, ?_⟩
  intro conserved none
  obtain ⟨fuel, reached, free', way, -⟩ := conserved.places
  have more : (links st').more c = .wild := (h.linked.bare none).2.2
  rw [treeCells, h.root] at way
  cases fuel with
  | zero => cases way
  | succ fuel =>
      rw [Links.walk, if_pos rfl, more] at way
      cases fuel <;> cases way

theorem keepsCells_iff {B : Build R} {ctx : NBodyCtx R} {fuel : ℕ} {st built : TreeState R}
    (build : buildTree B ctx fuel st = some built) :
    KeepsCells B ctx fuel st ↔ if built.tree.structureError then built.tree.cellUsed = 1
      else ∃ b < st.nbody, (st.bodytab b).mass != 0 := by
  constructor
  · exact fun h => h built build
  · intro h other same
    rw [build, Option.some.injEq] at same
    rw [← same]
    exact h

omit [Div R] in
theorem loaded_balanced {B : Build R} {fuel : ℕ} {st st₁ st₂ st₃ : TreeState R} (whole : Whole st)
    (new : nbNewTree fuel st = some st₁) (expand : expandBox B fuel st₁ = some st₂)
    (load : loadBodies B fuel st₂ = some st₃) : Balanced 0 st₃ := by
  obtain ⟨T, free, cells, root, scan, count⟩ := whole
  have cells₀ : Cells st (T.cells ++ []) free := by
    rw [List.append_nil]
    exact cells
  have scannable : Scannable st T := scan.imp id fun ⟨c, alone, more⟩ => ⟨c, alone, .inl more⟩
  obtain ⟨c, free', cells₁, supply, -, tree, -, -, stuff⟩ :=
    nbNewTree_cells cells₀ root scannable new
  obtain ⟨-, rsize, -, -, rfl⟩ := expandBox_eq expand
  have cells₂ : Cells (st₁.setTree fun t => { t with rsize }) [c] free' :=
    cells₁.congr rfl rfl fun _ _ => rfl
  refine loadBodies_balanced (Loaded.start cells₂ (by simp [tree]) (by simp [tree])
    (by simp [tree]) stuff) ⟨_, _, cells₂, ?_⟩ load
  rw [TreeState.setTree_tree, tree]
  show st₁.heapTop = 0 + 1 + free'.length
  omega

/-- A call on memory without lost cells loses none exactly when it keeps its cells. -/
theorem nbMakeTree_keepsCells {B : Build R} {ctx : NBodyCtx R} {fuel : ℕ} {st st' : TreeState R}
    {rc : NBodyStatus} (whole : Whole st) (run : nbMakeTree B ctx fuel st = some (rc, st')) :
    (KeepsCells B ctx fuel st → Whole st') ∧ (Conserved st' → KeepsCells B ctx fuel st) := by
  have ok : TreeOk st := by
    obtain ⟨T, free, cells, root, scan, -⟩ := whole
    refine ⟨T, [], free, ?_, root, scan.imp id fun ⟨c, alone, more⟩ => ⟨c, alone, .inl more⟩⟩
    rw [List.append_nil]
    exact cells
  obtain ⟨st₁, st₂, st₃, new, expand, load, rest⟩ := nbMakeTree_stages run
  obtain ⟨c, leaked, free, T, from_, -⟩ := nbMakeTree_load ok (fun _ _ => True) new expand load
    (fun _ _ _ => trivial) (fun _ _ _ _ _ _ _ _ _ _ _ _ _ _ => trivial)
  have balanced₃ := loaded_balanced whole new expand load
  obtain ⟨-, error, rfl⟩ | ⟨noError, d, st₄, root, mass, rest⟩ := rest
  · have build : buildTree B ctx fuel st = some st' := by
      simp [buildTree, new, expand, load, error]
    rw [keepsCells_iff build, if_pos error]
    exact from_.conserved_iff balanced₃ (MassFrame.refl _ _)
  have build : buildTree B ctx fuel st = some st₄ := by
    simp [buildTree, new, expand, load, noError, root, Ref.cell?, mass]
  rw [keepsCells_iff build]
  rw [from_.loaded.root, Ref.cell.injEq] at root
  subst root
  have frame := hackCofM_frame from_.loaded.rep mass
  obtain ⟨-, error, rfl⟩ | ⟨-, noError₄, st₅, thread, quadPass⟩ := rest
  · rw [if_pos error]
    exact from_.conserved_iff balanced₃ frame
  rw [noError₄, if_neg Bool.false_ne_true]
  obtain ⟨built, links, -, -⟩ := from_.built noError mass thread quadPass
  have cells₄ : Cells st₄ (T.cells ++ leaked) free :=
    from_.loaded.cells.congr frame.heapTop frame.freeCell fun a _ => (frame.kept a).1
  have balanced₄ : Balanced 0 st₄ := balanced₃.congr from_.loaded.cells frame.heapTop
    frame.freeCell (fun a _ => (frame.kept a).1) (by rw [frame.tree])
  have balanced : Balanced 0 st' := by
    refine balanced₄.congr cells₄ links.heapTop links.freeCell (fun a ha => ?_) (by rw [links.tree])
    rw [links.heapOut a fun m => cells₄.disjoint (List.mem_append_left _ m) ha rfl]
  have massive : T.leaves ≠ [] ↔ ∃ b < st.nbody, (st.bodytab b).mass != 0 := by
    rw [Ne, ← List.length_eq_zero_iff, built.leaves.length_eq, List.length_eq_zero_iff,
      List.filter_eq_nil_iff]
    simp
  rw [← massive]
  exact built.conserved_iff balanced

/-! ## What the bodies say about a construction -/

omit [Zero R] [Add R] [Neg R] [Sub R] [Div R] [BEq R] [LE R] [DecidableLE R] in
theorem expandLoop_expands {far side side' : R} {fuel : ℕ}
    (loop : expandLoop far fuel side = some side') : Expands far side side' := by
  induction fuel generalizing side with
  | zero => cases loop
  | succ fuel ih =>
      rw [expandLoop] at loop
      split at loop
      · next small =>
        obtain ⟨k, before, enough, last⟩ := ih loop
        refine ⟨k + 1, fun j lt => ?_, enough, last⟩
        cases j with
        | zero => exact small
        | succ j => exact before j (Nat.lt_of_succ_lt_succ lt)
      · next enough =>
          exact ⟨0, fun j lt => absurd lt j.not_lt_zero, enough, (Option.some.inj loop).symm⟩

theorem cells_of_alone {κ β : Type} {c : κ} {sub : Fin 8 → Octree κ β}
    (alone : ∀ i, (sub i).isCell = false) : (Octree.cell c sub).cells = [c] := by
  have none : ∀ i, (sub i).cells = [] := by
    intro i
    have here := alone i
    cases child : sub i with
    | empty => rfl
    | leaf b => rfl
    | cell d inner =>
        rw [child] at here
        cases here
  rw [Octree.cells, List.flatMap_eq_nil_iff.mpr fun i _ => none i]

omit [Div R] in
theorem load_grown {B : Build R} {fuel : ℕ} {st st₁ st₂ st₃ : TreeState R} (whole : Whole st)
    (new : nbNewTree fuel st = some st₁) (expand : expandBox B fuel st₁ = some st₂)
    (load : loadBodies B fuel st₂ = some st₃) :
    ∃ c T free, Loaded st₂ st₃ c [] (List.range st.nbody) T free ∧
      GrownOctree B st₂ st₃ c (List.range st.nbody) T ∧ SameBodies st st₂ ∧
      st₂.tree.structureError = st.tree.structureError ∧
      Expands (xyzmax st 0) st.tree.rsize st₂.tree.rsize := by
  obtain ⟨T, free, cells, root, scan, count⟩ := whole
  have cells₀ : Cells st (T.cells ++ []) free := by
    rw [List.append_nil]
    exact cells
  have scannable : Scannable st T := scan.imp id fun ⟨c, alone, more⟩ => ⟨c, alone, .inl more⟩
  obtain ⟨c, free', cells₁, supply, bodies, tree, origin, -, stuff⟩ :=
    nbNewTree_cells cells₀ root scannable new
  obtain ⟨mid, rsize, place, loop, rfl⟩ := expandBox_eq expand
  have centre : mid = 0 := by
    rw [tree] at place
    rw [← Option.some.inj place]
    exact origin
  have far : xyzmax st₁ 0 = xyzmax st 0 := by
    rw [xyzmax, xyzmax, bodies.bodytab, bodies.nbody]
  have cells₂ : Cells (st₁.setTree fun t => { t with rsize }) [c] free' :=
    cells₁.congr rfl rfl fun _ _ => rfl
  obtain ⟨U, free₃, loaded, grown⟩ := loadBodies_grown (Loaded.start cells₂ (by simp [tree])
    (by simp [tree]) (by simp [tree]) stuff) origin load
  rw [centre, far, tree] at loop
  have nbody : (st₁.setTree fun t => { t with rsize }).nbody = st.nbody := bodies.nbody
  rw [nbody] at loaded grown
  exact ⟨c, U, free₃, loaded, grown, ⟨bodies.bodytab, bodies.nbody, bodies.treeIncest⟩,
    by simp [tree], expandLoop_expands loop⟩

omit [Add R] [Neg R] [Sub R] [Mul R] [Div R] [OfScientific R] [LT R] [DecidableLT R] [LE R]
  [DecidableLE R] in
theorem SameBodies.massive {st st' : TreeState R} (same : SameBodies st st') :
    NBody.massive st' = NBody.massive st ∧ positions st' = positions st ∧
      masses st' = masses st := by
  have at_ : positions st' = positions st ∧ masses st' = masses st := by
    constructor <;> funext b <;> simp only [positions, masses, same.bodytab]
  refine ⟨?_, at_⟩
  rw [NBody.massive, NBody.massive, same.bodytab, same.nbody]

omit [Sub R] [Div R] in
theorem GrownOctree.alone_of {B : Build R} {st₂ st₃ : TreeState R} {c : ℕ} {done free : List ℕ}
    {T : Octree ℕ ℕ} (loaded : Loaded st₂ st₃ c [] done T free)
    (grown : GrownOctree B st₂ st₃ c done T)
    (apart : ∀ i, (Octree.inSlot (fun mid b => nbSubIndex (positions st₂ b) mid) 0
      (massive st₂) i).length ≤ 1)
    (all : (done.filter fun b => (st₂.bodytab b).mass != 0) = massive st₂) : T.cells = [c] := by
  have bare : ∃ sub : Fin 8 → Octree (Vec3 R) ℕ, (∀ i, (sub i).isCell = false) ∧
      BodyOctree B (positions st₂) st₂.tree.rsize (.cell 0 sub) (massive st₂) :=
    Octree.exists_holds_alone apart
  obtain ⟨sub, alone, octree⟩ := bare
  obtain ⟨found, -⟩ := grown.octree ⟨_, octree⟩
  rw [all] at found
  obtain ⟨slots, rfl, -⟩ := loaded.loadable
  obtain ⟨-, same⟩ := Octree.cell.inj (Octree.Holds.unique found octree)
  refine cells_of_alone fun i => ?_
  have here := alone i
  rw [← same, Octree.isCell_map] at here
  exact here

theorem Recycles.keepsCells {B : Build R} {ctx : NBodyCtx R} {fuel : ℕ} {st : TreeState R}
    (recycles : Recycles B st) (whole : Whole st) : KeepsCells B ctx fuel st := by
  intro built build
  simp only [buildTree, Option.bind_eq_bind, Option.bind_eq_some_iff] at build
  obtain ⟨st₁, new, st₂, expand, st₃, load, build⟩ := build
  obtain ⟨c, T, free, loaded, grown, bodies, flag, expands⟩ := load_grown whole new expand load
  obtain ⟨threads, sides⟩ := recycles
  obtain ⟨same, still, weights⟩ := bodies.massive
  have all : ((List.range st.nbody).filter fun b => (st₂.bodytab b).mass != 0) = massive st₂ := by
    rw [NBody.massive, bodies.nbody]
  have nodup : T.cells.Nodup := loaded.cells.nodup.of_append_left.of_append_left
  -- the pass keeps the cells and raises the flag
  have pass : built.tree.cellUsed = T.cells.length ∧
      (built.tree.structureError = false → st.tree.structureError = false) ∧
      (st₃.tree.structureError = false →
        CentresInside (positions st₂) (masses st₂) st₂.tree.rsize (midpoints st₃ T) →
          built.tree.structureError = false) := by
    cases error : st₃.tree.structureError with
    | true =>
        rw [error, if_pos rfl] at build
        obtain rfl := Option.some.inj build
        refine ⟨loaded.cellUsed, fun calm => ?_, fun calm => absurd calm (by decide)⟩
        rw [error] at calm
        cases calm
    | false =>
        have before := (loaded.noError error).1
        rw [flag] at before
        rw [error, if_neg Bool.false_ne_true, loaded.root] at build
        have mass : hackCofM B ctx fuel st₃ c st₃.tree.rsize = some built := build
        have frame := hackCofM_frame loaded.rep mass
        obtain ⟨-, raised⟩ := hackCofM_centresInside loaded.rep nodup mass
        obtain ⟨-, still', weights'⟩ := loaded.bodies.massive
        rw [still', weights', loaded.rsize] at raised
        refine ⟨?_, fun _ => before, fun _ centred => raised.mpr ⟨error, centred⟩⟩
        rw [frame.tree]
        exact loaded.cellUsed
  obtain ⟨cellUsed, calm, centre⟩ := pass
  split
  · next error =>
    rw [cellUsed]
    obtain small | apart | ⟨before, G, octree, centred⟩ := sides _ expands
    · rw [grown.alone small, List.length_singleton]
    · rw [← same, ← still] at apart
      rw [GrownOctree.alone_of loaded grown apart all, List.length_singleton]
    · rw [← same, ← still] at octree
      rw [← still, ← weights] at centred
      obtain ⟨found, kept⟩ := grown.octree ⟨G, octree⟩
      rw [all] at found
      rw [Octree.Holds.unique octree found] at centred
      rw [flag, before] at kept
      rw [centre kept centred] at error
      cases error
  · next clear =>
    obtain pending | bodies := threads
    · rw [calm ((Bool.not_eq_true _).mp clear)] at pending
      cases pending
    · obtain ⟨b, mem⟩ := List.exists_mem_of_ne_nil _ bodies
      obtain ⟨inside, massive⟩ := List.mem_filter.mp mem
      exact ⟨b, List.mem_range.mp inside, massive⟩

/-! ## Sequences of calls -/

/-- What a call is made with: the bodies have moved since the call before. -/
structure Call (R : Type) where
  ctx : NBodyCtx R
  fuel : ℕ
  bodytab : ℕ → Body R
  treeIncest : Bool

/-- The state for a call. The links of the bodies are those of the last tree. -/
def Call.on (k : Call R) (st : TreeState R) : TreeState R :=
  { st with
    bodytab := fun b => { k.bodytab b with next := (st.bodytab b).next }
    treeIncest := k.treeIncest }

/-- The states between the first `n` calls on a state without cells. -/
structure Calls (B : Build R) (call : ℕ → Call R) (s : ℕ → TreeState R) (n : ℕ) : Prop where
  start : (s 0).tree.root = .null ∧ (s 0).freeCell = .null ∧ (s 0).heapTop = 0
  step : ∀ i < n, ∃ rc, nbMakeTree B (call i).ctx (call i).fuel ((call i).on (s i)) =
    some (rc, s (i + 1))

omit [Zero R] [Add R] [Neg R] [Sub R] [Mul R] [Div R] [OfScientific R] [BEq R] [LT R]
  [DecidableLT R] [LE R] [DecidableLE R] in
theorem Whole.on {st : TreeState R} (h : Whole st) (k : Call R) : Whole (k.on st) := by
  obtain ⟨T, free, cells, root, scan, count⟩ := h
  exact ⟨T, free, ⟨cells.chain, cells.nodup, cells.below⟩, root, scan, count⟩

theorem Calls.whole {B : Build R} {call : ℕ → Call R} {s : ℕ → TreeState R} {n : ℕ}
    (calls : Calls B call s n) (recycles : ∀ i < n, Recycles B ((call i).on (s i))) :
    ∀ i ≤ n, Whole (s i) := by
  intro i le
  induction i with
  | zero =>
      obtain ⟨root, freeCell, heapTop⟩ := calls.start
      exact ⟨.empty, [], ⟨freeCell, List.nodup_nil, by simp [Octree.cells]⟩, root, .inl trivial,
        heapTop⟩
  | succ i ih =>
      obtain ⟨rc, run⟩ := calls.step i le
      have before := (ih (Nat.le_of_lt le)).on (call i)
      exact (nbMakeTree_keepsCells before run).1 ((recycles i le).keepsCells before)

/-- Over a sequence of calls, each on bodies that lose no cell, every cell stays in one
place, and is freed once at the end. -/
theorem nbMakeTree_conserved (B : Build R) (call : ℕ → Call R) (s : ℕ → TreeState R) (n : ℕ)
    (calls : Calls B call s n) (recycles : ∀ i < n, Recycles B ((call i).on (s i))) :
    ∀ i ≤ n, Conserved (s i) :=
  fun i le => (calls.whole recycles i le).conserved

/-- The states that calls leave one after the other. -/
def afterCalls (B : Build R) (call : ℕ → Call R) (start : TreeState R) : ℕ → TreeState R
  | 0 => start
  | i + 1 =>
      let st := afterCalls B call start i
      ((nbMakeTree B (call i).ctx (call i).fuel ((call i).on st)).map Prod.snd).getD st

theorem afterCalls_calls {B : Build R} {call : ℕ → Call R} {start : TreeState R} {n : ℕ}
    (fresh : start.tree.root = .null ∧ start.freeCell = .null ∧ start.heapTop = 0)
    (returns : ∀ i < n, (nbMakeTree B (call i).ctx (call i).fuel
      ((call i).on (afterCalls B call start i))).isSome) :
    Calls B call (afterCalls B call start) n := by
  refine ⟨fresh, fun i lt => ?_⟩
  obtain ⟨⟨rc, st'⟩, run⟩ := Option.isSome_iff_exists.mp (returns i lt)
  refine ⟨rc, ?_⟩
  rw [run, afterCalls, run]
  rfl

end

/-! ## Sequences over the rational numbers -/

def rowCall : Call ℚ := ⟨rowCtx, 9, (rowState 2 1).bodytab, false⟩

/-- A call with both bodies in one place. -/
def crowdedCall : Call ℚ := ⟨rowCtx, 20, fun _ => (rowState 2 1).bodytab 0, false⟩

def rowSlot (mid : Vec3 ℚ) (b : ℕ) : Fin 8 := nbSubIndex (positions (rowState 2 1) b) mid

def rowOctree : Octree (Vec3 ℚ) ℕ :=
  let mid := nbInitMidpoint (positions (rowState 2 1) 1) 0 4
  let inner := Octree.cell mid (Function.update
    (Function.update (fun _ => .empty) (rowSlot mid 0) (.leaf 0)) (rowSlot mid 1) (.leaf 1))
  .cell 0 (Function.update (Function.update (fun _ => .empty) (rowSlot 0 0) (.leaf 0))
    (rowSlot 0 1) inner)

theorem rowOctree_holds : BodyOctree rowBuild (positions (rowState 2 1)) 4 rowOctree [0, 1] := by
  have apart : Octree.inSlot rowSlot (nbInitMidpoint (positions (rowState 2 1) 1) 0 4) [0]
      (rowSlot (nbInitMidpoint (positions (rowState 2 1) 1) 0 4) 1) = [] := by decide +kernel
  have together : Octree.inSlot rowSlot 0 [0] (rowSlot 0 1) = [0] := by decide +kernel
  refine (Octree.holds_single 0 4 0).update ?_
  change Octree.Divides _ _ _ _ _ _ _ (Octree.inSlot rowSlot 0 [0] (rowSlot 0 1) ++ [1])
  rw [together]
  refine Octree.divides_cell.mpr ⟨by decide +kernel, 0, 1, [], rfl, ?_⟩
  refine (Octree.holds_single _ _ 0).update ?_
  change Octree.inSlot rowSlot _ [0] (rowSlot _ 1) ++ [1] = [1]
  rw [apart]
  rfl

theorem rowCall_recycles {st : TreeState ℚ} (two : st.nbody = 2) (side : st.tree.rsize = 4)
    (calm : st.tree.structureError = false) : Recycles rowBuild (rowCall.on st) := by
  have bodies : massive (rowCall.on st) = [0, 1] := by
    rw [massive, show (rowCall.on st).nbody = 2 from two]
    rfl
  have far : xyzmax (rowCall.on st) 0 = 2 := by
    rw [xyzmax, show (rowCall.on st).nbody = 2 from two]
    exact (by decide +kernel : xyzmax (rowState 2 1) 0 = 2)
  refine ⟨.inr (bodies ▸ List.cons_ne_nil _ _), ?_⟩
  rintro size ⟨k, before, -, rfl⟩
  rw [far, show (rowCall.on st).tree.rsize = 4 from side] at *
  have kept : k = 0 := by
    by_contra more
    have small := before 0 (Nat.pos_of_ne_zero more)
    exact absurd small (by decide +kernel)
  subst kept
  refine .inr (.inr ⟨calm, ?_⟩)
  rw [bodies]
  have centred : CentresInside (positions (rowState 2 1)) (masses (rowState 2 1)) 4 rowOctree := by
    decide +kernel
  exact ⟨rowOctree, rowOctree_holds, centred⟩

theorem nbMakeTree_conserved_row :
    let s := afterCalls rowBuild (fun _ => rowCall) (rowState 2 1)
    Calls rowBuild (fun _ => rowCall) s 2 ∧ ∀ i ≤ 2, Conserved (s i) := by
  have calls : Calls rowBuild (fun _ => rowCall)
      (afterCalls rowBuild (fun _ => rowCall) (rowState 2 1)) 2 :=
    afterCalls_calls ⟨rfl, rfl, rfl⟩ (by decide +kernel)
  have states : ∀ i < 2,
      (afterCalls rowBuild (fun _ => rowCall) (rowState 2 1) i).nbody = 2 ∧
      (afterCalls rowBuild (fun _ => rowCall) (rowState 2 1) i).tree.rsize = 4 ∧
      (afterCalls rowBuild (fun _ => rowCall) (rowState 2 1) i).tree.structureError = false := by
    decide +kernel
  exact ⟨calls, nbMakeTree_conserved _ _ _ _ calls fun i lt =>
    rowCall_recycles (states i lt).1 (states i lt).2.1 (states i lt).2.2⟩

/-- Two bodies in one place: the first call leaves 13 cells of which only the root is ever
found again, so that the second allocates 12 more. -/
theorem nbMakeTree_loses :
    let s := afterCalls rowBuild (fun _ => crowdedCall) (rowState 2 1)
    Calls rowBuild (fun _ => crowdedCall) s 2 ∧ (s 1).heapTop = 13 ∧
      destroyNBodyState 3 (s 1) = some [0] ∧ (s 2).heapTop = 25 ∧
      destroyNBodyState 3 (s 2) = some [0] ∧ ¬∀ i ≤ 2, Conserved (s i) := by
  have calls : Calls rowBuild (fun _ => crowdedCall)
      (afterCalls rowBuild (fun _ => crowdedCall) (rowState 2 1)) 2 :=
    afterCalls_calls ⟨rfl, rfl, rfl⟩ (by decide +kernel)
  refine ⟨calls, by decide +kernel, by decide +kernel, by decide +kernel, by decide +kernel, ?_⟩
  intro conserved
  obtain ⟨fuel, reached, free, way, chain, perm⟩ := (conserved 1 (by decide)).places
  have root : treeCells 2 (afterCalls rowBuild (fun _ => crowdedCall) (rowState 2 1) 1) =
      some [0] := by decide +kernel
  have freeCell : (afterCalls rowBuild (fun _ => crowdedCall) (rowState 2 1) 1).freeCell =
      .null := by decide +kernel
  have top : (afterCalls rowBuild (fun _ => crowdedCall) (rowState 2 1) 1).heapTop = 13 := by
    decide +kernel
  rw [freeCell] at chain
  have empty : free = [] := chain.unique (show FreeChain _ [] .null from rfl)
  rw [treeCells_unique way root, empty, top] at perm
  exact absurd perm.length_eq (by decide)

end MilkyWay.NBody
