import MilkyWay.NBody.TreeMemory
import MilkyWay.Foundation.Insertion
import MilkyWay.Foundation.Fold

/-! Loading of bodies, for any arithmetic: the descent of a body is an insertion into
the octree the memory represents. -/

namespace MilkyWay.NBody

open Foundation

variable {R : Type}

structure Loadable (st : TreeState R) (c : ℕ) (sub : Fin 8 → Octree ℕ ℕ) (used free : List ℕ) :
    Prop where
  rep : Represents st.heap (.cell c sub) (.cell c)
  nodup : (Octree.cell c sub).cells.Nodup
  inUse : ∀ a ∈ (Octree.cell c sub).cells, a ∈ used
  cells : Cells st used free

namespace Loadable

variable {st : TreeState R} {c : ℕ} {sub : Fin 8 → Octree ℕ ℕ} {used free : List ℕ}
  {s : Fin 8 → NodePtr}

theorem root_inUse (h : Loadable st c sub used free) : c ∈ used :=
  h.inUse c (by simp [Octree.cells])

theorem child_inUse (h : Loadable st c sub used free) (i : Fin 8) :
    ∀ a ∈ (sub i).cells, a ∈ used :=
  fun a ha => h.inUse a ((Octree.mem_cells_cell c sub a).mpr (.inr ⟨i, ha⟩))

theorem child_ne (h : Loadable st c sub used free) (i : Fin 8) : ∀ a ∈ (sub i).cells, a ≠ c :=
  fun _ ha e => ((Octree.nodup_cells_cell c sub).mp h.nodup).1 i (e ▸ ha)

theorem slots (h : Loadable st c sub used free) (hs : (st.heap c).stuff = .subp s) (i : Fin 8) :
    Represents st.heap (sub i) (s i) := by
  obtain ⟨-, t, ht, hsub⟩ := h.rep
  rw [hs, Stuff.subp.injEq] at ht
  rw [ht]
  exact hsub i

theorem child (h : Loadable st c sub used free) (hs : (st.heap c).stuff = .subp s) {i : Fin 8}
    {d : ℕ} {inner : Fin 8 → Octree ℕ ℕ} (hT : sub i = .cell d inner) :
    s i = .cell d ∧ Loadable st d inner used free := by
  have slot := h.slots hs i
  rw [hT] at slot
  obtain ⟨rep, nodup⟩ : s i = .cell d ∧ (sub i).cells.Nodup :=
    ⟨slot.1, ((Octree.nodup_cells_cell c sub).mp h.nodup).2.1 i⟩
  refine ⟨rep, ?_, hT ▸ nodup, hT ▸ h.child_inUse i, h.cells⟩
  rw [rep] at slot
  exact slot

end Loadable

variable [Add R] [Neg R] [Mul R] [OfScientific R] [LT R] [DecidableLT R] [LE R] [DecidableLE R]

def slotOf (st : TreeState R) (c b : ℕ) : Fin 8 :=
  nbSubIndex (st.bodytab b).pos (st.heap c).pos

def SplitAt (st : TreeState R) (c b : ℕ) (size : R) (n : ℕ) : Prop :=
  (st.heap n).pos = nbInitMidpoint (st.bodytab b).pos (st.heap c).pos size

theorem splitSlot_spec {st st' : TreeState R} {c n : ℕ} {i : Fin 8} {x : Vec3 R} {o : ℕ} {size : R}
    {s : Fin 8 → NodePtr} {used free : List ℕ} (h : Cells st used free) (hc : c ∈ used)
    (hs : (st.heap c).stuff = .subp s) (hsplit : splitSlot st c i x o size = some (n, st')) :
    n ∉ used ∧ (∃ free', Cells st' (n :: used) free') ∧
      (st'.heap n).pos = nbInitMidpoint x (st.heap c).pos size ∧
      (st'.heap n).stuff = .subp (Function.update (fun _ => .null) (slotOf st' n o) (.leaf o)) ∧
      st'.heap c = { st.heap c with stuff := .subp (Function.update s i (.cell n)) } ∧
      (∀ a ∈ used, a ≠ c → st'.heap a = st.heap a) ∧
      st'.tree = { st.tree with cellUsed := st.tree.cellUsed + 1 } ∧ SameBodies st st' := by
  simp only [splitSlot, Option.bind_eq_bind, Option.bind_eq_some_iff, Option.pure_def,
    Prod.exists] at hsplit
  obtain ⟨m, st₁, made, sub, hsub, sub', hsub', done⟩ := hsplit
  obtain ⟨⟨heap, tree, bodies⟩, fresh, free', cells, -⟩ := nbMakeCell_spec h made
  have hcm : c ≠ m := fun e => fresh (e ▸ hc)
  simp only [Option.some.injEq, Prod.mk.injEq] at done
  obtain ⟨rfl, rfl⟩ := done
  simp only [TreeState.subp, TreeState.setCell, heap, Function.update_self, Option.some.injEq]
    at hsub
  subst hsub
  simp only [TreeState.subp, TreeState.setCell, TreeState.setSubp, heap, Function.update_self,
    Function.update_of_ne hcm, hs, Option.some.injEq] at hsub'
  subst hsub'
  refine ⟨fresh, ⟨free', cells.congr rfl rfl ?_⟩, ?_⟩
  · intro a ha
    have ham : a ≠ m := (cells.disjoint (List.mem_cons_self ..) ha).symm
    have hac : a ≠ c := (cells.disjoint (List.mem_cons_of_mem _ hc) ha).symm
    simp [TreeState.setCell, TreeState.setSubp, Function.update_of_ne ham,
      Function.update_of_ne hac]
  · refine ⟨?_, ?_, ?_, ?_, tree, ⟨bodies.bodytab, bodies.nbody, bodies.treeIncest⟩⟩
    · simp [TreeState.setSubp, heap, Function.update_of_ne hcm.symm, Function.update_of_ne hcm]
    · simp [TreeState.setCell, TreeState.setSubp, heap, slotOf, Function.update_of_ne hcm.symm]
    · simp [TreeState.setCell, TreeState.setSubp, heap, Function.update_of_ne hcm]
    · intro a ha hac
      have ham : a ≠ m := fun e => fresh (e ▸ ha)
      simp [TreeState.setCell, TreeState.setSubp, heap, Function.update_of_ne hac,
        Function.update_of_ne ham]

theorem loadLoop_succ (B : Build R) (b fuel : ℕ) (st : TreeState R) (c : ℕ) (size : R) (lev : ℕ)
    (s : Fin 8 → NodePtr) (hs : (st.heap c).stuff = .subp s) :
    loadLoop B b (fuel + 1) st c size lev = match s (slotOf st c b) with
      | .null => some ((st.setSubp c (Function.update s (slotOf st c b) (.leaf b))).setTree
          fun t => { t with maxDepth := max t.maxDepth lev })
      | .wild => none
      | .leaf o =>
          if size ≤ B.epsilon then some (st.setTree fun t => { t with structureError := true })
          else if st.isBody o then
            (splitSlot st c (slotOf st c b) (st.bodytab b).pos o size).bind fun r =>
              loadLoop B b fuel r.2 r.1 (size * 0.5) (lev + 1)
          else none
      | .cell d =>
          if size ≤ B.epsilon then some (st.setTree fun t => { t with structureError := true })
          else loadLoop B b fuel st d (size * 0.5) (lev + 1) := by
  simp only [loadLoop, TreeState.subp, hs, Option.bind_eq_bind, Option.bind_some, slotOf]
  rfl

/-- What the descent of a body changes: the slots of the tree it descends, the new
cells, and the counts. -/
structure LoadFrame (st st' : TreeState R) (used cells new : List ℕ) (lev : ℕ) (stored : Bool) :
    Prop where
  bodies : SameBodies st st'
  heap : ∀ a ∈ used, st'.heap a = { st.heap a with stuff := (st'.heap a).stuff }
  stuff : ∀ a ∈ used, a ∉ cells → (st'.heap a).stuff = (st.heap a).stuff
  tree : st'.tree = { st.tree with
    cellUsed := st.tree.cellUsed + new.length
    maxDepth := if stored then max st.tree.maxDepth lev else st.tree.maxDepth
    structureError := st.tree.structureError || !stored }

def Loads (B : Build R) (st st' : TreeState R) (b c : ℕ) (sub : Fin 8 → Octree ℕ ℕ) (size : R)
    (lev : ℕ) (used : List ℕ) : Prop :=
  ∃ U new n stored free', Insertion (slotOf st') (· * 0.5) (SplitAt st') (· ≤ B.epsilon) b size
      (.cell c sub) U new n stored ∧
    Represents st'.heap U (.cell c) ∧ Cells st' (new ++ used) free' ∧
    LoadFrame st st' used (Octree.cell c sub).cells new (lev + n) stored

namespace Loadable

variable {B : Build R} {st st' : TreeState R} {c : ℕ} {sub : Fin 8 → Octree ℕ ℕ}
  {used free : List ℕ} {s : Fin 8 → NodePtr} {b : ℕ} {size : R} {lev : ℕ}

theorem stop (h : Loadable st c sub used free) (full : size ≤ B.epsilon)
    (taken : sub (slotOf st c b) ≠ .empty) :
    Loads B st (st.setTree fun t => { t with structureError := true }) b c sub size lev used :=
  ⟨_, [], 0, false, free, .stop size c sub full taken, h.rep, h.cells.congr rfl rfl fun _ _ => rfl,
    ⟨rfl, rfl, rfl⟩, fun _ _ => rfl, fun _ _ _ => rfl, by simp⟩

theorem store (h : Loadable st c sub used free) (hs : (st.heap c).stuff = .subp s)
    (hT : sub (slotOf st c b) = .empty) :
    Loads B st ((st.setSubp c (Function.update s (slotOf st c b) (.leaf b))).setTree
      fun t => { t with maxDepth := max t.maxDepth lev }) b c sub size lev used := by
  have same : ∀ a, a ≠ c →
      (st.setSubp c (Function.update s (slotOf st c b) (.leaf b))).heap a = st.heap a :=
    fun a ha => Function.update_of_ne ha _ _
  have slot : slotOf ((st.setSubp c (Function.update s (slotOf st c b) (.leaf b))).setTree
      fun t => { t with maxDepth := max t.maxDepth lev }) c b = slotOf st c b := by
    simp [slotOf, TreeState.setSubp]
  refine ⟨_, [], 0, true, free, .store size c sub (by rw [slot]; exact hT), ?_, ?_, ?_⟩
  · rw [slot]
    have stuff : (((st.setSubp c (Function.update s (slotOf st c b) (.leaf b))).setTree
        fun t => { t with maxDepth := max t.maxDepth lev }).heap c).stuff =
          .subp (Function.update s (slotOf st c b) (.leaf b)) := by simp [TreeState.setSubp]
    refine Represents.update (h.slots hs) stuff ?_ ?_ ?_
    · rw [Function.update_self]
      rfl
    · exact fun j hj => Function.update_of_ne hj _ _
    · exact fun j _ a ha => congrArg NBodyCell.stuff (same a (h.child_ne j a ha))
  · refine h.cells.congr rfl rfl fun a ha => ?_
    exact congrArg NBodyCell.next (same a (h.cells.disjoint h.root_inUse ha).symm)
  · refine ⟨⟨rfl, rfl, rfl⟩, fun a _ => ?_, fun a _ ha => ?_, by simp [TreeState.setSubp]⟩
    · by_cases hac : a = c
      · subst hac
        simp [TreeState.setSubp]
      · rw [TreeState.setTree_heap, same a hac]
    · have hac : a ≠ c := fun e => ha (by simp [e, Octree.cells])
      rw [TreeState.setTree_heap, same a hac]

theorem descend (h : Loadable st c sub used free) (hs : (st.heap c).stuff = .subp s) {d : ℕ}
    {inner : Fin 8 → Octree ℕ ℕ} (hT : sub (slotOf st c b) = .cell d inner)
    (room : ¬size ≤ B.epsilon) (deeper : Loads B st st' b d inner (size * 0.5) (lev + 1) used) :
    Loads B st st' b c sub size lev used := by
  obtain ⟨U, new, n, stored, free', ins, rep, cells, frame⟩ := deeper
  have cells_d : (Octree.cell d inner).cells = (sub (slotOf st c b)).cells := by rw [hT]
  have slot : slotOf st' c b = slotOf st c b := by
    rw [slotOf, frame.bodies.bodytab, frame.heap c h.root_inUse]
    rfl
  have cOut : c ∉ (Octree.cell d inner).cells := fun m =>
    h.child_ne (slotOf st c b) c (cells_d ▸ m) rfl
  refine ⟨_, new, n + 1, stored, free',
    .descend size c d sub inner U new n stored (by rw [slot]; exact hT) room ins, ?_, cells, ?_⟩
  · rw [slot]
    refine Represents.update (h.slots hs) ((frame.stuff c h.root_inUse cOut).trans hs) ?_
      (fun _ _ => rfl) ?_
    · rw [(h.child hs hT).1]
      exact rep
    · intro j hj a ha
      refine frame.stuff a (h.child_inUse j a ha) fun m => ?_
      exact ((Octree.nodup_cells_cell c sub).mp h.nodup).2.2 j _ hj ha (cells_d ▸ m)
  · refine ⟨frame.bodies, frame.heap, fun a ha out => frame.stuff a ha fun m => out ?_, ?_⟩
    · exact (Octree.mem_cells_cell c sub a).mpr (.inr ⟨slotOf st c b, cells_d ▸ m⟩)
    · rw [frame.tree, Nat.add_right_comm, Nat.add_assoc]

omit [Add R] [Neg R] [Mul R] [OfScientific R] [LT R] [DecidableLT R] in
theorem made {st₁ : TreeState R} {o m : ℕ} {free₁ : List ℕ} (cells : Cells st₁ (m :: used) free₁)
    (stuff : (st₁.heap m).stuff =
      .subp (Function.update (fun _ => .null) (slotOf st₁ m o) (.leaf o))) :
    Loadable st₁ m (Function.update (fun _ => .empty) (slotOf st₁ m o) (.leaf o)) (m :: used)
      free₁ := by
  have single : (Octree.cell m (Function.update (fun _ => .empty) (slotOf st₁ m o) (.leaf o)) :
      Octree ℕ ℕ).cells = [m] := Octree.cells_single m _ o
  refine ⟨?_, by rw [single]; simp, by rw [single]; simp, cells⟩
  have bare : ∀ _ : Fin 8, Represents st₁.heap .empty .null := fun _ => rfl
  refine Represents.update bare stuff ?_ ?_ ?_
  · rw [Function.update_self]
    rfl
  · exact fun j hj => Function.update_of_ne hj _ _
  · exact fun _ _ _ _ => rfl

theorem split (h : Loadable st c sub used free) (hs : (st.heap c).stuff = .subp s) {o m : ℕ}
    {st₁ : TreeState R} (hT : sub (slotOf st c b) = .leaf o)
    (room : ¬size ≤ B.epsilon)
    (hsplit : splitSlot st c (slotOf st c b) (st.bodytab b).pos o size = some (m, st₁))
    (deeper : ∀ free₁, Loadable st₁ m (Function.update (fun _ => .empty) (slotOf st₁ m o) (.leaf o))
        (m :: used) free₁ →
      Loads B st₁ st' b m (Function.update (fun _ => .empty) (slotOf st₁ m o) (.leaf o))
        (size * 0.5) (lev + 1) (m :: used)) :
    Loads B st st' b c sub size lev used := by
  obtain ⟨fresh, ⟨free₁, cells₁⟩, mid, stuff, root₁, same₁, tree₁, bodies₁⟩ :=
    splitSlot_spec h.cells h.root_inUse hs hsplit
  have single : (Octree.cell m (Function.update (fun _ => .empty) (slotOf st₁ m o) (.leaf o)) :
      Octree ℕ ℕ).cells = [m] := Octree.cells_single m _ o
  obtain ⟨U, new, n, stored, free', ins, rep, cells, frame⟩ := deeper free₁ (made cells₁ stuff)
  rw [single] at frame
  have ne : ∀ a ∈ used, a ≠ m := fun a ha e => fresh (e ▸ ha)
  have inside : ∀ a ∈ used, a ∈ m :: used := fun a ha => List.mem_cons_of_mem m ha
  have root : st'.heap c =
      { st.heap c with stuff := .subp (Function.update s (slotOf st c b) (.cell m)) } := by
    rw [frame.heap c (inside c h.root_inUse),
      frame.stuff c (inside c h.root_inUse) (by simpa using ne c h.root_inUse), root₁]
  have other : ∀ a ∈ used, a ≠ c → st'.heap a = st.heap a := by
    intro a ha hac
    rw [frame.heap a (inside a ha), frame.stuff a (inside a ha) (by simpa using ne a ha),
      same₁ a ha hac]
  have mpos : (st'.heap m).pos = (st₁.heap m).pos := by
    rw [frame.heap m (List.mem_cons_self ..)]
  have bodies := bodies₁.trans frame.bodies
  have slot : slotOf st' c b = slotOf st c b := by
    rw [slotOf, bodies.bodytab, root]
    rfl
  have slot_o : slotOf st₁ m o = slotOf st' m o := by
    rw [slotOf, slotOf, mpos, frame.bodies.bodytab]
  have splitAt : SplitAt st' c b size m := by
    rw [SplitAt, mpos, mid, bodies.bodytab, root]
  refine ⟨_, m :: new, n + 1, stored, free',
    .split size c m o sub U new n stored (by rw [slot]; exact hT) room splitAt
      (slot_o ▸ ins), ?_,
    cells.perm List.perm_middle, ?_⟩
  · rw [slot]
    refine Represents.update (h.slots hs) (congrArg NBodyCell.stuff root) ?_ ?_ ?_
    · rw [Function.update_self]
      exact rep
    · exact fun j hj => Function.update_of_ne hj _ _
    · exact fun j _ a ha => congrArg NBodyCell.stuff
        (other a (h.child_inUse j a ha) (h.child_ne j a ha))
  · refine ⟨bodies, fun a ha => ?_, fun a ha out => ?_, ?_⟩
    · by_cases hac : a = c
      · subst hac
        rw [root]
      · rw [other a ha hac]
    · rw [other a ha fun e => out (by simp [e, Octree.cells])]
    · rw [frame.tree, tree₁, List.length_cons, show lev + (n + 1) = lev + 1 + n by omega]
      simp only [NBodyTree.mk.injEq, true_and, and_true]
      omega

end Loadable

theorem loadLoop_spec (B : Build R) (b fuel : ℕ) {st st' : TreeState R} {c : ℕ}
    {sub : Fin 8 → Octree ℕ ℕ} {size : R} {lev : ℕ} {used free : List ℕ}
    (h : Loadable st c sub used free) (run : loadLoop B b fuel st c size lev = some st') :
    Loads B st st' b c sub size lev used := by
  induction fuel generalizing st c sub size lev used free with
  | zero => simp [loadLoop] at run
  | succ fuel ih =>
      obtain ⟨-, s, hs, -⟩ := h.rep
      rw [loadLoop_succ B b fuel st c size lev s hs] at run
      have slot := h.slots hs (slotOf st c b)
      cases hT : sub (slotOf st c b) with
      | empty =>
          rw [hT] at slot
          rw [show s (slotOf st c b) = .null from slot, Option.some.injEq] at run
          subst run
          exact h.store hs hT
      | leaf o =>
          rw [hT] at slot
          rw [show s (slotOf st c b) = .leaf o from slot] at run
          dsimp only at run
          by_cases small : size ≤ B.epsilon
          · rw [if_pos small, Option.some.injEq] at run
            subst run
            exact h.stop small (by simp [hT])
          · rw [if_neg small, Option.ite_none_right_eq_some, Option.bind_eq_some_iff] at run
            obtain ⟨-, ⟨m, st₁⟩, hsplit, run⟩ := run
            exact h.split hs hT small hsplit fun free₁ made => ih made run
      | cell d inner =>
          obtain ⟨slot, inside⟩ := h.child hs hT
          rw [slot] at run
          dsimp only at run
          by_cases small : size ≤ B.epsilon
          · rw [if_pos small, Option.some.injEq] at run
            subst run
            exact h.stop small (by simp [hT])
          · rw [if_neg small] at run
            exact h.descend hs hT small (ih inside run)

/-- The bodies of `done` have been considered for loading since `st₀`, the tree at
`c` is `T` and the cells `leaked` are allocated for nothing. -/
structure Loaded [BEq R] [Zero R] (st₀ st : TreeState R) (c : ℕ) (leaked done : List ℕ)
    (T : Octree ℕ ℕ) (free : List ℕ) : Prop where
  bodies : SameBodies st₀ st
  rep : Represents st.heap T (.cell c)
  isCell : T.isCell
  cells : Cells st (T.cells ++ leaked) free
  root : st.tree.root = .cell c
  rsize : st.tree.rsize = st₀.tree.rsize
  cellUsed : st.tree.cellUsed = T.cells.length
  noError : st.tree.structureError = false → st₀.tree.structureError = false ∧
    T.leaves.Perm (done.filter fun b => (st₀.bodytab b).mass != 0) ∧
    st.tree.maxDepth = T.deepest
  grounded : T.Grounded
  rootCell : st.heap c = { st₀.heap c with stuff := (st.heap c).stuff }

variable [BEq R] [Zero R]

omit [Add R] [Neg R] [Mul R] [OfScientific R] [LT R] [DecidableLT R] [LE R] [DecidableLE R] in
theorem Loaded.loadable {c : ℕ} {st₀ st : TreeState R} {leaked done free : List ℕ}
    {T : Octree ℕ ℕ} (h : Loaded st₀ st c leaked done T free) :
    ∃ sub, T = .cell c sub ∧ Loadable st c sub (T.cells ++ leaked) free := by
  have rep := h.rep
  have isCell := h.isCell
  cases T with
  | empty => simp [Octree.isCell] at isCell
  | leaf o => simp [Octree.isCell] at isCell
  | cell d sub =>
      have same := rep.1
      rw [Ref.cell.injEq] at same
      subst same
      exact ⟨sub, rfl, rep, h.cells.nodup.of_append_left.of_append_left,
        fun a ha => List.mem_append_left _ ha, h.cells⟩

theorem Loaded.step {B : Build R} {fuel b c : ℕ} {st₀ st st' : TreeState R}
    {leaked done free : List ℕ} {T : Octree ℕ ℕ} (h : Loaded st₀ st c leaked done T free)
    (massive : (st₀.bodytab b).mass != 0) (run : nbLoadBody B fuel st b = some st') :
    ∃ U free' new n stored, Loaded st₀ st' c leaked (done ++ [b]) U free' ∧
      Insertion (slotOf st') (· * 0.5) (SplitAt st') (· ≤ B.epsilon) b st.tree.rsize T U new n
        stored ∧
      (∀ a ∈ T.cells, (st'.heap a).pos = (st.heap a).pos) ∧
      st'.tree.structureError = (st.tree.structureError || !stored) := by
  simp only [nbLoadBody, h.root] at run
  obtain ⟨sub, rfl, loadable⟩ := h.loadable
  have inUse : ∀ a ∈ (Octree.cell c sub).cells, a ∈ (Octree.cell c sub).cells ++ leaked :=
    fun a ha => List.mem_append_left _ ha
  obtain ⟨U, new, n, stored, free', ins, rep, cells, frame⟩ := loadLoop_spec B b fuel loadable run
  have perm : U.cells.Perm (new ++ (Octree.cell c sub).cells) := ins.cells
  have rootIn : c ∈ (Octree.cell c sub).cells := by simp [Octree.cells]
  refine ⟨U, free', new, n, stored, ⟨h.bodies.trans frame.bodies, rep, ins.isCell, ?_, ?_, ?_, ?_,
    ?_, ins.grounded h.grounded, ?_⟩, ins, ?_, by rw [frame.tree]⟩
  · refine cells.perm ?_
    rw [← List.append_assoc]
    exact perm.symm.append_right leaked
  · rw [frame.tree]
    exact h.root
  · rw [frame.tree]
    exact h.rsize
  · rw [frame.tree, perm.length_eq, List.length_append]
    show st.tree.cellUsed + new.length = _
    rw [h.cellUsed, Nat.add_comm]
  · intro noError
    rw [frame.tree, Bool.or_eq_false_iff] at noError
    obtain ⟨before, isStored⟩ := noError
    rw [Bool.not_eq_false'] at isStored
    obtain ⟨start, leaves, depth⟩ := h.noError before
    refine ⟨start, ?_, ?_⟩
    · have here := ins.leaves
      rw [isStored, if_pos rfl] at here
      rw [List.filter_append, List.filter_singleton, massive]
      exact here.trans ((leaves.cons b).trans (List.perm_append_singleton b _).symm)
    · rw [frame.tree, ins.deepest isStored, isStored, if_pos rfl, Nat.zero_add]
      exact congrArg (max · n) depth
  · rw [frame.heap c (inUse c rootIn), h.rootCell]
  · intro a ha
    rw [frame.heap a (inUse a ha)]

omit [Add R] [Neg R] [Mul R] [OfScientific R] [LT R] [DecidableLT R] [LE R] [DecidableLE R] in
theorem Loaded.start {st : TreeState R} {c : ℕ} {leaked free : List ℕ}
    (cells : Cells st (c :: leaked) free) (root : st.tree.root = .cell c)
    (cellUsed : st.tree.cellUsed = 1) (maxDepth : st.tree.maxDepth = 0)
    (stuff : (st.heap c).stuff = .subp fun _ => .null) :
    Loaded st st c leaked [] (.cell c fun _ => .empty) free where
  bodies := ⟨rfl, rfl, rfl⟩
  rep := ⟨rfl, _, stuff, fun _ => rfl⟩
  isCell := rfl
  cells := cells.perm (by rw [Octree.cells_bare]; rfl)
  root := root
  rsize := rfl
  cellUsed := by simp [cellUsed]
  noError h := ⟨h, by simp, by rw [maxDepth]; rfl⟩
  grounded := fun _ => ⟨fun h => by simp [Octree.isCell] at h, trivial⟩
  rootCell := rfl

omit [Add R] [Neg R] [Mul R] [OfScientific R] [LT R] [DecidableLT R] [LE R] [DecidableLE R] in
theorem Loaded.skip {c b : ℕ} {st₀ st : TreeState R} {leaked done free : List ℕ}
    {T : Octree ℕ ℕ} (h : Loaded st₀ st c leaked done T free)
    (massless : ¬(st₀.bodytab b).mass != 0) : Loaded st₀ st c leaked (done ++ [b]) T free := by
  refine { h with noError := fun noError => ?_ }
  obtain ⟨before, leaves, depth⟩ := h.noError noError
  refine ⟨before, ?_, depth⟩
  rw [List.filter_append, List.filter_singleton, (Bool.not_eq_true _).mp massless, cond_false,
    List.append_nil]
  exact leaves

theorem loadBodies_spec {B : Build R} {fuel c : ℕ} {st₀ st' : TreeState R}
    {leaked free : List ℕ} {T₀ : Octree ℕ ℕ} (Kept : TreeState R → Octree ℕ ℕ → Prop)
    (start : Loaded st₀ st₀ c leaked [] T₀ free) (kept₀ : Kept st₀ T₀)
    (keep : ∀ (st st' : TreeState R) (b : ℕ) (T U : Octree ℕ ℕ) (new : List ℕ) (n : ℕ)
      (stored : Bool), b < st₀.nbody → SameBodies st₀ st' → st.tree.rsize = st₀.tree.rsize →
      Insertion (slotOf st') (· * 0.5) (SplitAt st') (· ≤ B.epsilon) b st.tree.rsize T U new n
        stored →
      (∀ a ∈ T.cells, (st'.heap a).pos = (st.heap a).pos) → Kept st T → Kept st' U)
    (run : loadBodies B fuel st₀ = some st') :
    ∃ T free', Loaded st₀ st' c leaked (List.range st₀.nbody) T free' ∧ Kept st' T := by
  refine foldlM_invariant
    (fun done st => ∃ T free', Loaded st₀ st c leaked done T free' ∧ Kept st T)
    ⟨T₀, free, start, kept₀⟩ ?_ run
  rintro done b rest st st₁ split ⟨T, free₁, loaded, kept⟩ turn
  have inside : b < st₀.nbody := by
    have here : b ∈ done ++ b :: rest := by simp
    rw [split] at here
    exact List.mem_range.mp here
  rw [loaded.bodies.bodytab] at turn
  by_cases massive : (st₀.bodytab b).mass != 0
  · rw [if_pos massive] at turn
    obtain ⟨U, free₂, new, n, stored, loaded', ins, pos, -⟩ := loaded.step massive turn
    exact ⟨U, free₂, loaded',
      keep st st₁ b T U new n stored inside loaded'.bodies loaded.rsize ins pos kept⟩
  · rw [if_neg massive, Option.some.injEq] at turn
    subst turn
    exact ⟨T, free₁, loaded.skip massive, kept⟩

end MilkyWay.NBody
