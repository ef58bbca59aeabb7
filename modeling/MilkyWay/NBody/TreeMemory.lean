import MilkyWay.NBody.Tree

/-! What the memory of the tree holds, for any arithmetic. `Represents` says which
octree the slots of a cell hold and `Cells` that the allocated cells are those in use
and those on the free list. `TreeOk` is what a new tree needs of the previous one. -/

namespace MilkyWay.NBody

open Foundation

variable {R : Type}

def Represents (heap : ℕ → NBodyCell R) : Octree ℕ ℕ → NodePtr → Prop
  | .empty, p => p = .null
  | .leaf b, p => p = .leaf b
  | .cell c sub, p => p = .cell c ∧
      ∃ s, (heap c).stuff = .subp s ∧ ∀ i, Represents heap (sub i) (s i)

def FreeChain (heap : ℕ → NBodyCell R) : List ℕ → NodePtr → Prop
  | [], p => p = .null
  | a :: L, p => p = .cell a ∧ FreeChain heap L (heap a).next

structure SameBodies (st st' : TreeState R) : Prop where
  bodytab : st'.bodytab = st.bodytab
  nbody : st'.nbody = st.nbody
  treeIncest : st'.treeIncest = st.treeIncest

structure Cells (st : TreeState R) (used free : List ℕ) : Prop where
  chain : FreeChain st.heap free st.freeCell
  nodup : (used ++ free).Nodup
  below : ∀ a ∈ used ++ free, a < st.heapTop

theorem SameBodies.trans {st st' st'' : TreeState R} (h : SameBodies st st')
    (h' : SameBodies st' st'') : SameBodies st st'' :=
  ⟨h'.bodytab.trans h.bodytab, h'.nbody.trans h.nbody, h'.treeIncest.trans h.treeIncest⟩

theorem Represents.congr {heap heap' : ℕ → NBodyCell R} {T : Octree ℕ ℕ} {p : NodePtr}
    (h : Represents heap T p) (same : ∀ c ∈ T.cells, (heap' c).stuff = (heap c).stuff) :
    Represents heap' T p := by
  induction T generalizing p with
  | empty => exact h
  | leaf b => exact h
  | cell c sub ih =>
      obtain ⟨hp, s, hs, hsub⟩ := h
      refine ⟨hp, s, (same c (by simp [Octree.cells])).trans hs, fun i => ih i (hsub i) ?_⟩
      exact fun d hd => same d ((Octree.mem_cells_cell c sub d).mpr (.inr ⟨i, hd⟩))

theorem FreeChain.congr {heap heap' : ℕ → NBodyCell R} {L : List ℕ} {p : NodePtr}
    (h : FreeChain heap L p) (same : ∀ c ∈ L, (heap' c).next = (heap c).next) :
    FreeChain heap' L p := by
  induction L generalizing p with
  | nil => exact h
  | cons a L ih =>
      refine ⟨h.1, ?_⟩
      rw [same a (by simp)]
      exact ih h.2 fun c hc => same c (by simp [hc])

theorem Cells.perm {st : TreeState R} {used used' free : List ℕ} (h : Cells st used free)
    (perm : used.Perm used') : Cells st used' free where
  chain := h.chain
  nodup := (perm.append_right free).nodup_iff.mp h.nodup
  below a ha := h.below a ((perm.append_right free).mem_iff.mpr ha)

theorem Cells.disjoint {st : TreeState R} {used free : List ℕ} (h : Cells st used free) {a b : ℕ}
    (ha : a ∈ used) (hb : b ∈ free) : a ≠ b :=
  fun e => (List.nodup_append.mp h.nodup).2.2 a ha b hb e

theorem Represents.update {heap heap' : ℕ → NBodyCell R} {c : ℕ} {sub : Fin 8 → Octree ℕ ℕ}
    {s s' : Fin 8 → NodePtr} {i : Fin 8} {U : Octree ℕ ℕ}
    (h : ∀ j, Represents heap (sub j) (s j)) (hs' : (heap' c).stuff = .subp s')
    (hi : Represents heap' U (s' i)) (hj : ∀ j, j ≠ i → s' j = s j)
    (same : ∀ j, j ≠ i → ∀ a ∈ (sub j).cells, (heap' a).stuff = (heap a).stuff) :
    Represents heap' (.cell c (Function.update sub i U)) (.cell c) := by
  refine ⟨rfl, s', hs', fun j => ?_⟩
  by_cases hji : j = i
  · subst hji
    rw [Function.update_self]
    exact hi
  · rw [Function.update_of_ne hji, hj j hji]
    exact (h j).congr (same j hji)

theorem Cells.congr {st st' : TreeState R} {used free : List ℕ} (h : Cells st used free)
    (heapTop : st'.heapTop = st.heapTop) (freeCell : st'.freeCell = st.freeCell)
    (next : ∀ a ∈ free, (st'.heap a).next = (st.heap a).next) : Cells st' used free where
  chain := by
    rw [freeCell]
    exact h.chain.congr next
  nodup := h.nodup
  below a ha := by
    rw [heapTop]
    exact h.below a ha

structure MadeCell (st st' : TreeState R) (c : ℕ) : Prop where
  heap : st'.heap = Function.update st.heap c
    { st.heap c with more := .null, stuff := .subp fun _ => .null }
  tree : st'.tree = { st.tree with cellUsed := st.tree.cellUsed + 1 }
  bodies : SameBodies st st'

theorem nbMakeCell_spec {st st' : TreeState R} {c : ℕ} {used free : List ℕ}
    (h : Cells st used free) (made : nbMakeCell st = some (c, st')) :
    MadeCell st st' c ∧ c ∉ used ∧ ∃ free', Cells st' (c :: used) free' ∧
      (free = c :: free' ∧ st'.heapTop = st.heapTop ∨
        free = [] ∧ free' = [] ∧ c = st.heapTop ∧ st'.heapTop = st.heapTop + 1) := by
  cases free with
  | nil =>
      have none : st.freeCell = .null := h.chain
      simp only [nbMakeCell, none, Option.bind_eq_bind, Option.bind_some, Option.pure_def,
        Option.some.injEq, Prod.mk.injEq] at made
      obtain ⟨rfl, rfl⟩ := made
      have fresh : st.heapTop ∉ used := fun m =>
        lt_irrefl _ (h.below _ (List.mem_append_left _ m))
      refine ⟨⟨rfl, rfl, rfl, rfl, rfl⟩, fresh, [], ⟨rfl, ?_, ?_⟩, .inr ⟨rfl, rfl, rfl, rfl⟩⟩
      · simpa [fresh] using h.nodup
      · intro a ha
        rw [List.append_nil, List.mem_cons] at ha
        show a < st.heapTop + 1
        rcases ha with rfl | ha
        · omega
        · have := h.below a (List.mem_append_left _ ha)
          omega
  | cons a free =>
      obtain ⟨front, rest⟩ := h.chain
      simp only [nbMakeCell, front, Option.bind_eq_bind, Option.bind_some, Option.pure_def,
        Option.some.injEq, Prod.mk.injEq] at made
      obtain ⟨rfl, rfl⟩ := made
      have perm : (used ++ a :: free).Perm (a :: (used ++ free)) := List.perm_middle
      have nodup := perm.nodup_iff.mp h.nodup
      obtain ⟨fresh, _⟩ := List.nodup_cons.mp nodup
      refine ⟨⟨rfl, rfl, rfl, rfl, rfl⟩, fun m => fresh (List.mem_append_left _ m), free,
        ⟨rest.congr ?_, nodup, ?_⟩, .inl ⟨rfl, rfl⟩⟩
      · intro b hb
        have hba : b ≠ a := fun e => fresh (by rw [← e]; exact List.mem_append_right _ hb)
        simp [TreeState.setCell, Function.update_of_ne hba]
      · exact fun b hb => h.below b (perm.mem_iff.mpr hb)

/-! ## Reclaiming the previous tree -/

/-- The links stored with bodies and cells. -/
def links (st : TreeState R) : Links ℕ ℕ where
  nextLeaf b := (st.bodytab b).next
  nextCell c := (st.heap c).next
  more c := (st.heap c).more

def reclaimed (st : TreeState R) : NodePtr → TreeState R
  | .cell c => { st.setCell c fun q => { q with next := st.freeCell } with freeCell := .cell c }
  | _ => st

theorem reclaimLoop_walk (L : Links ℕ ℕ) {fuel : ℕ} {st st' : TreeState R} {p : NodePtr}
    (nextLeaf : ∀ b, (st.bodytab b).next = L.nextLeaf b)
    (more : ∀ c, (st.heap c).more = L.more c) (run : reclaimLoop fuel st p = some st') :
    L.walk (fun _ => true) reclaimed fuel p st = some st' := by
  induction fuel generalizing st p with
  | zero => cases run
  | succ fuel ih =>
      cases p with
      | null => exact run
      | wild => cases run
      | leaf b =>
          rw [reclaimLoop, nextLeaf] at run
          rw [Links.walk]
          exact ih nextLeaf more (Option.ite_none_right_eq_some.mp run).2
      | cell c =>
          rw [reclaimLoop, more] at run
          rw [Links.walk]
          have kept : ∀ a, ((reclaimed st (.cell c)).heap a).more = L.more a := by
            intro a
            by_cases ha : a = c
            · subst ha
              simp [reclaimed, more]
            · simp [reclaimed, Function.update_of_ne ha, more]
          exact ih nextLeaf kept run

theorem Cells.reclaim_one {st : TreeState R} {c : ℕ} {used free : List ℕ}
    (h : Cells st (c :: used) free) : Cells (reclaimed st (.cell c)) used (c :: free) where
  chain := by
    have next : ((reclaimed st (.cell c)).heap c).next = st.freeCell := by
      simp [reclaimed]
    refine ⟨rfl, ?_⟩
    rw [next]
    refine h.chain.congr fun a ha => ?_
    have hac : a ≠ c := (h.disjoint (List.mem_cons_self ..) ha).symm
    simp [reclaimed, Function.update_of_ne hac]
  nodup := List.perm_middle.nodup_iff.mpr h.nodup
  below a ha := h.below a (List.perm_middle.mem_iff.mp ha)

theorem reclaimed_frame (refs : List NodePtr) (st : TreeState R) :
    SameBodies st (refs.foldl reclaimed st) ∧ (refs.foldl reclaimed st).tree = st.tree := by
  induction refs generalizing st with
  | nil => exact ⟨⟨rfl, rfl, rfl⟩, rfl⟩
  | cons p refs ih =>
      obtain ⟨bodies, tree⟩ := ih (reclaimed st p)
      have one : SameBodies st (reclaimed st p) ∧ (reclaimed st p).tree = st.tree := by
        cases p <;> exact ⟨⟨rfl, rfl, rfl⟩, rfl⟩
      exact ⟨one.1.trans bodies, tree.trans one.2⟩

theorem Cells.reclaim (refs : List NodePtr) {st : TreeState R} {used free : List ℕ}
    (h : Cells st (refs.filterMap Ref.cell? ++ used) free) :
    Cells (refs.foldl reclaimed st) used ((refs.filterMap Ref.cell?).reverse ++ free) := by
  induction refs generalizing st free with
  | nil => exact h
  | cons p refs ih =>
      cases p with
      | cell c =>
          simp only [List.filterMap_cons, Ref.cell?, List.reverse_cons, List.append_assoc] at h ⊢
          exact ih h.reclaim_one
      | leaf b => exact ih h
      | null => exact ih h
      | wild => exact ih h

/-- The links from the root `T` are its threading, or the root is alone and its more link
leads nowhere. -/
def Scannable (st : TreeState R) (T : Octree ℕ ℕ) : Prop :=
  (links st).Threaded T .null ∨
    ∃ c, T = .cell c (fun _ => .empty) ∧ ((st.heap c).more = .null ∨ (st.heap c).more = .wild)

/-- What is left of the previous tree: its links thread it, or its root is alone and
leads nowhere. The cells `leaked` are in use but not reached. -/
def TreeOk (st : TreeState R) : Prop :=
  ∃ T leaked free, Cells st (T.cells ++ leaked) free ∧ st.tree.root = T.entry .null ∧
    ((links st).Threaded T .null ∨
      ∃ c, T = .cell c (fun _ => .empty) ∧
        ((st.heap c).more = .null ∨ (st.heap c).more = .wild))

theorem reclaimed_heapTop (refs : List NodePtr) (st : TreeState R) :
    (refs.foldl reclaimed st).heapTop = st.heapTop := by
  induction refs generalizing st with
  | nil => rfl
  | cons p refs ih =>
      rw [List.foldl_cons, ih]
      cases p <;> rfl

theorem reclaimLoop_cells {fuel : ℕ} {st st' : TreeState R} {T : Octree ℕ ℕ} {leaked free : List ℕ}
    (cells : Cells st (T.cells ++ leaked) free) (root : st.tree.root = T.entry .null)
    (scannable : Scannable st T) (run : reclaimLoop fuel st st.tree.root = some st') :
    Cells st' leaked (T.cells.reverse ++ free) ∧ SameBodies st st' ∧ st'.tree = st.tree ∧
      st'.heapTop = st.heapTop := by
  rcases scannable with threaded | ⟨c, rfl, alone⟩
  · rw [root] at run
    have walk := reclaimLoop_walk (links st) (fun _ => rfl) (fun _ => rfl) run
    have result := (links st).walk_threaded_null _ _ T fuel st st' threaded walk
    subst result
    obtain ⟨bodies, tree⟩ := reclaimed_frame (T.visits fun _ => true) st
    rw [← T.visits_all_cells] at cells ⊢
    exact ⟨cells.reclaim, bodies, tree, reclaimed_heapTop _ st⟩
  · rw [root, Octree.entry] at run
    rw [Octree.cells_bare] at cells ⊢
    cases fuel with
    | zero => simp [reclaimLoop] at run
    | succ fuel =>
        rw [reclaimLoop] at run
        rcases alone with null | wild
        · rw [null] at run
          cases fuel with
          | zero => simp [reclaimLoop] at run
          | succ fuel =>
              rw [reclaimLoop, Option.some.injEq] at run
              subst run
              exact ⟨cells.reclaim_one, ⟨rfl, rfl, rfl⟩, rfl, rfl⟩
        · rw [wild] at run
          cases fuel <;> simp [reclaimLoop] at run

variable [Zero R]

theorem nbNewTree_cells {fuel : ℕ} {st st' : TreeState R} {T : Octree ℕ ℕ} {leaked free : List ℕ}
    (cells : Cells st (T.cells ++ leaked) free) (root : st.tree.root = T.entry .null)
    (scannable : Scannable st T) (run : nbNewTree fuel st = some st') :
    ∃ c free', Cells st' (c :: leaked) free' ∧
      st'.heapTop + T.cells.length + free.length = st.heapTop + free'.length + 1 ∧
      SameBodies st st' ∧
      st'.tree = { st.tree with root := .cell c, cellUsed := 1, maxDepth := 0 } ∧
      (st'.heap c).pos = 0 ∧ (st'.heap c).more = .null ∧
      (st'.heap c).stuff = .subp fun _ => .null := by
  simp only [nbNewTree, Option.bind_eq_bind, Option.bind_eq_some_iff, Option.pure_def,
    Option.some.injEq, Prod.exists] at run
  obtain ⟨st₁, scan, c, st₂, made, rfl⟩ := run
  obtain ⟨cells₁, bodies, tree, top⟩ := reclaimLoop_cells cells root scannable scan
  have cleared : Cells (st₁.setTree fun t => { t with cellUsed := 0, maxDepth := 0 }) leaked
      (T.cells.reverse ++ free) :=
    cells₁.congr rfl rfl fun _ _ => rfl
  obtain ⟨new, fresh, free', cells', supply⟩ := nbMakeCell_spec cleared made
  refine ⟨c, free', cells'.congr rfl rfl ?_, ?_, ?_, ?_, ?_, ?_, ?_⟩
  · intro a ha
    have hac : a ≠ c := (cells'.disjoint (List.mem_cons_self ..) ha).symm
    simp [Function.update_of_ne hac]
  · show st₂.heapTop + _ + _ = _
    rw [TreeState.setTree_heapTop, top] at supply
    rcases supply with ⟨list, same⟩ | ⟨list, rfl, -, more⟩
    · have size := congrArg List.length list
      simp only [List.length_append, List.length_reverse, List.length_cons] at size
      omega
    · have size := congrArg List.length list
      simp only [List.length_append, List.length_reverse, List.length_nil] at size ⊢
      omega
  · exact bodies.trans ⟨new.bodies.bodytab, new.bodies.nbody, new.bodies.treeIncest⟩
  · simp [new.tree, tree]
  · simp
  · simp [new.heap]
  · simp [new.heap]

theorem nbNewTree_spec {fuel : ℕ} {st st' : TreeState R} (h : TreeOk st)
    (run : nbNewTree fuel st = some st') :
    ∃ c leaked free, Cells st' (c :: leaked) free ∧ SameBodies st st' ∧
      st'.tree = { st.tree with root := .cell c, cellUsed := 1, maxDepth := 0 } ∧
      (st'.heap c).pos = 0 ∧ (st'.heap c).more = .null ∧
      (st'.heap c).stuff = .subp fun _ => .null := by
  obtain ⟨T, leaked, free, cells, root, scannable⟩ := h
  obtain ⟨c, free', cells', -, new⟩ := nbNewTree_cells cells root scannable run
  exact ⟨c, leaked, free', cells', new⟩

end MilkyWay.NBody
