import MilkyWay.NBody.TreeMemory
import MilkyWay.Foundation.Fold

/-! The passes that follow the centres of mass, for any arithmetic: the links that
`threadTree` installs are the threading of the tree, except that a root without
children leads to a pointer never set, and the quadrupole pass changes nothing but
the storage of the cells' descendents. -/

namespace MilkyWay.NBody

open Foundation

variable {R : Type}

structure ThreadFrame (st st' : TreeState R) (cells leaves : List ℕ) : Prop where
  same : st' = { st with bodytab := st'.bodytab, heap := st'.heap }
  body : ∀ b, st'.bodytab b = { st.bodytab b with next := (st'.bodytab b).next }
  bodyOut : ∀ b, b ∉ leaves → st'.bodytab b = st.bodytab b
  heap : ∀ a, st'.heap a =
    { st.heap a with next := (st'.heap a).next, more := (st'.heap a).more }
  heapOut : ∀ a, a ∉ cells → st'.heap a = st.heap a

namespace ThreadFrame

variable {st st' st'' : TreeState R} {cells cells' leaves leaves' : List ℕ}

theorem refl (st : TreeState R) (cells leaves : List ℕ) : ThreadFrame st st cells leaves :=
  ⟨rfl, fun _ => rfl, fun _ _ => rfl, fun _ => rfl, fun _ _ => rfl⟩

theorem trans (h : ThreadFrame st st' cells leaves) (h' : ThreadFrame st' st'' cells' leaves') :
    ThreadFrame st st'' (cells ++ cells') (leaves ++ leaves') where
  same := by rw [h'.same, h.same]
  body b := by rw [h'.body, h.body]
  bodyOut b hb := by
    rw [List.mem_append, not_or] at hb
    rw [h'.bodyOut b hb.2, h.bodyOut b hb.1]
  heap a := by rw [h'.heap, h.heap]
  heapOut a ha := by
    rw [List.mem_append, not_or] at ha
    rw [h'.heapOut a ha.2, h.heapOut a ha.1]

theorem mono (h : ThreadFrame st st' cells leaves) (hc : ∀ a ∈ cells, a ∈ cells')
    (hl : ∀ b ∈ leaves, b ∈ leaves') : ThreadFrame st st' cells' leaves' :=
  ⟨h.same, h.body, fun b hb => h.bodyOut b fun m => hb (hl b m), h.heap,
    fun a ha => h.heapOut a fun m => ha (hc a m)⟩

theorem represents (h : ThreadFrame st st' cells leaves) {T : Octree ℕ ℕ} {p : NodePtr}
    (rep : Represents st.heap T p) : Represents st'.heap T p :=
  rep.congr fun c _ => by rw [h.heap]

end ThreadFrame

def childPtrs (s : Fin 8 → NodePtr) (l : List (Fin 8)) : List NodePtr :=
  (l.map s).filter (· ≠ .null)

theorem represents_null {heap : ℕ → NBodyCell R} {T : Octree ℕ ℕ} {p : NodePtr}
    (rep : Represents heap T p) : p = .null ↔ T = .empty := by
  cases T with
  | empty => simp [show p = .null from rep]
  | leaf b => simp [show p = .leaf b from rep]
  | cell c sub => simp [rep.1]

theorem entries_childPtrs {heap : ℕ → NBodyCell R} {sub : Fin 8 → Octree ℕ ℕ}
    {s : Fin 8 → NodePtr} (rep : ∀ i, Represents heap (sub i) (s i)) (l : List (Fin 8))
    (n : NodePtr) : Octree.entries (l.map sub) n = (childPtrs s l).headD n := by
  induction l with
  | nil => rfl
  | cons i l ih =>
      have hi := rep i
      rw [List.map_cons, Octree.entries, ih]
      cases hT : sub i with
      | empty =>
          rw [hT] at hi
          simp [childPtrs, show s i = .null from hi, Octree.entry]
      | leaf b =>
          rw [hT] at hi
          simp [childPtrs, show s i = .leaf b from hi, Octree.entry]
      | cell d inner =>
          rw [hT] at hi
          simp [childPtrs, hi.1, Octree.entry]

theorem zip_next (p n : NodePtr) (desc : List NodePtr) :
    (p :: desc).zip (desc ++ [n]) = (p, desc.headD n) :: desc.zip (desc.tail ++ [n]) := by
  cases desc <;> rfl

theorem threadForest_spec {fuel : ℕ} {sub : Fin 8 → Octree ℕ ℕ} {s : Fin 8 → NodePtr}
    (cells : ∀ i j, i ≠ j → List.Disjoint (sub i).cells (sub j).cells)
    (leaves : ∀ i j, i ≠ j → List.Disjoint (sub i).leaves (sub j).leaves)
    (each : ∀ (i : Fin 8) (st st' : TreeState R) (n : NodePtr), sub i ≠ .empty →
      Represents st.heap (sub i) (s i) → threadTree fuel st (s i) n = some st' →
      (links st').Threaded (sub i) n ∧ ThreadFrame st st' (sub i).cells (sub i).leaves)
    (l : List (Fin 8)) (nodup : l.Nodup) (n : NodePtr) {st st' : TreeState R}
    (rep : ∀ i, Represents st.heap (sub i) (s i))
    (run : ((childPtrs s l).zip ((childPtrs s l).tail ++ [n])).foldlM
      (fun st d => threadTree fuel st d.1 d.2) st = some st') :
    (links st').ThreadedForest (l.map sub) n ∧
      ThreadFrame st st' (l.flatMap fun i => (sub i).cells)
        (l.flatMap fun i => (sub i).leaves) := by
  induction l generalizing st with
  | nil =>
      simp only [childPtrs, List.map_nil, List.filter_nil, List.zip_nil_left, List.foldlM_nil,
        Option.pure_def, Option.some.injEq] at run
      subst run
      exact ⟨trivial, ThreadFrame.refl _ _ _⟩
  | cons i l ih =>
      obtain ⟨fresh, nodup⟩ := List.nodup_cons.mp nodup
      rw [List.map_cons, List.flatMap_cons, List.flatMap_cons]
      by_cases hT : sub i = .empty
      · have skip : childPtrs s (i :: l) = childPtrs s l := by
          simp [childPtrs, (represents_null (rep i)).mpr hT]
        rw [skip] at run
        obtain ⟨forest, frame⟩ := ih nodup rep run
        rw [hT]
        exact ⟨⟨trivial, forest⟩, frame⟩
      · have take : childPtrs s (i :: l) = s i :: childPtrs s l := by
          simp [childPtrs, mt (represents_null (rep i)).mp hT]
        rw [take, List.tail_cons, zip_next, List.foldlM_cons, Option.bind_eq_bind,
          Option.bind_eq_some_iff] at run
        obtain ⟨st₁, first, run⟩ := run
        obtain ⟨threaded, frame₁⟩ := each i st st₁ _ hT (rep i) first
        obtain ⟨forest, frame⟩ := ih nodup (fun j => frame₁.represents (rep j)) run
        refine ⟨⟨?_, forest⟩, frame₁.trans frame⟩
        rw [entries_childPtrs rep]
        refine threaded.congr (fun b hb => ?_) fun a ha => ?_
        · have out : b ∉ l.flatMap fun i => (sub i).leaves := fun m => by
            obtain ⟨j, hj, hbj⟩ := List.mem_flatMap.mp m
            exact leaves i j (fun e => fresh (e ▸ hj)) hb hbj
          exact congrArg Body.next (frame.bodyOut b out)
        · have out : a ∉ l.flatMap fun i => (sub i).cells := fun m => by
            obtain ⟨j, hj, haj⟩ := List.mem_flatMap.mp m
            exact cells i j (fun e => fresh (e ▸ hj)) ha haj
          have same := frame.heapOut a out
          exact ⟨congrArg NBodyCell.next same, congrArg NBodyCell.more same⟩

theorem threadTree_cell {fuel c : ℕ} {n : NodePtr} {s : Fin 8 → NodePtr} {st st' : TreeState R}
    (hs : (st.heap c).stuff = .subp s) (run : threadTree (fuel + 1) st (.cell c) n = some st') :
    ∃ st₁, ThreadFrame st st₁ [c] [] ∧ (st₁.heap c).next = n ∧
      (st₁.heap c).more = (childPtrs s (List.finRange 8)).headD .wild ∧
      ((childPtrs s (List.finRange 8)).zip ((childPtrs s (List.finRange 8)).tail ++ [n])).foldlM
        (fun st d => threadTree fuel st d.1 d.2) st₁ = some st' := by
  simp only [threadTree, TreeState.setNext, Option.bind_eq_bind, Option.bind_some, TreeState.subp,
    TreeState.setCell_heap, Function.update_self, hs] at run
  refine ⟨_, ?_, ?_, ?_, run⟩
  · refine ⟨rfl, fun _ => rfl, fun _ _ => rfl, fun a => ?_, fun a ha => ?_⟩
    · by_cases hac : a = c
      · subst hac
        simp
      · simp [Function.update_of_ne hac]
    · have hac : a ≠ c := fun e => ha (by simp [e])
      simp [Function.update_of_ne hac]
  · simp
  · rw [TreeState.setCell_heap, Function.update_self]
    rfl

theorem threadTree_spec {fuel : ℕ} {T : Octree ℕ ℕ} {p n : NodePtr} {st st' : TreeState R}
    (rep : Represents st.heap T p) (cells : T.cells.Nodup) (leaves : T.leaves.Nodup)
    (top : T.isCell → T.leaves ≠ []) (grounded : T.Grounded)
    (run : threadTree fuel st p n = some st') :
    (links st').Threaded T n ∧ ThreadFrame st st' T.cells T.leaves := by
  induction T generalizing fuel p n st st' with
  | empty =>
      rw [show p = .null from rep] at run
      cases fuel <;> simp [threadTree, TreeState.setNext] at run
  | leaf b =>
      rw [show p = .leaf b from rep] at run
      cases fuel with
      | zero => simp [threadTree] at run
      | succ fuel =>
          simp only [threadTree, TreeState.setNext, Option.bind_eq_bind, Option.bind_some,
            Option.ite_none_right_eq_some, Option.some.injEq] at run
          obtain ⟨-, rfl⟩ := run
          refine ⟨by simp [Links.Threaded, links], rfl, fun a => ?_, fun a ha => ?_, fun _ => rfl,
            fun _ _ => rfl⟩
          · by_cases hab : a = b
            · subst hab
              simp
            · simp [Function.update_of_ne hab]
          · have hab : a ≠ b := fun e => ha (by simp [e, Octree.leaves])
            simp [Function.update_of_ne hab]
  | cell c sub ih =>
      obtain ⟨rfl, s, hs, hsub⟩ := rep
      cases fuel with
      | zero => simp [threadTree] at run
      | succ fuel =>
          obtain ⟨st₁, frame₁, next, more, run⟩ := threadTree_cell hs run
          obtain ⟨cOut, nodups, apart⟩ := (Octree.nodup_cells_cell c sub).mp cells
          obtain ⟨leafNodups, leafApart⟩ := (Octree.nodup_leaves_cell c sub).mp leaves
          obtain ⟨forest, frame⟩ := threadForest_spec apart leafApart
            (fun i _ _ _ _ rep run => ih i rep (nodups i) (leafNodups i) (grounded i).1
              (grounded i).2 run)
            (List.finRange 8) (List.nodup_finRange 8) n (fun i => frame₁.represents (hsub i)) run
          have same : st'.heap c = st₁.heap c := frame.heapOut c fun m => by
            obtain ⟨i, -, hi⟩ := List.mem_flatMap.mp m
            exact cOut i hi
          have occupied : childPtrs s (List.finRange 8) ≠ [] := by
            intro none
            refine top rfl (List.flatMap_eq_nil_iff.mpr fun i _ => ?_)
            have null : s i = .null := by
              by_contra some
              have : s i ∈ childPtrs s (List.finRange 8) := by simp [childPtrs, some]
              simp [none] at this
            rw [(represents_null (hsub i)).mp null]
            rfl
          constructor
          · refine ((links st').threaded_cell c sub n).mpr ⟨?_, ?_, forest⟩
            · exact (congrArg NBodyCell.next same).trans next
            · refine (congrArg NBodyCell.more same).trans (more.trans ?_)
              rw [entries_childPtrs hsub]
              cases h : childPtrs s (List.finRange 8) with
              | nil => exact absurd h occupied
              | cons p desc => rfl
          · exact (frame₁.trans frame).mono (fun a ha => ha) fun b hb => hb

theorem threadTree_bare {fuel c : ℕ} {n : NodePtr} {st st' : TreeState R}
    (rep : Represents st.heap (.cell c fun _ => .empty) (.cell c))
    (run : threadTree fuel st (.cell c) n = some st') :
    (st'.heap c).next = n ∧ (st'.heap c).more = .wild ∧ ThreadFrame st st' [c] [] := by
  obtain ⟨-, s, hs, hsub⟩ := rep
  have null : childPtrs s (List.finRange 8) = [] := by
    simp [childPtrs, show ∀ i, s i = .null from hsub]
  cases fuel with
  | zero => simp [threadTree] at run
  | succ fuel =>
      obtain ⟨st₁, frame, next, more, run⟩ := threadTree_cell hs run
      rw [null] at more run
      simp only [List.zip_nil_left, List.foldlM_nil, Option.pure_def, Option.some.injEq] at run
      subst run
      exact ⟨next, more, frame⟩

/-! ## The quadrupole pass -/

structure QuadFrame (st st' : TreeState R) (cells : List ℕ) : Prop where
  same : st' = { st with heap := st'.heap }
  heap : ∀ a, st'.heap a = { st.heap a with stuff := (st'.heap a).stuff }
  heapOut : ∀ a, a ∉ cells → st'.heap a = st.heap a

namespace QuadFrame

variable {st st' st'' : TreeState R} {cells cells' : List ℕ}

theorem refl (st : TreeState R) (cells : List ℕ) : QuadFrame st st cells :=
  ⟨rfl, fun _ => rfl, fun _ _ => rfl⟩

theorem trans (h : QuadFrame st st' cells) (h' : QuadFrame st' st'' cells') :
    QuadFrame st st'' (cells ++ cells') where
  same := by rw [h'.same, h.same]
  heap a := by rw [h'.heap, h.heap]
  heapOut a ha := by
    rw [List.mem_append, not_or] at ha
    rw [h'.heapOut a ha.2, h.heapOut a ha.1]

theorem mono (h : QuadFrame st st' cells) (sub : ∀ a ∈ cells, a ∈ cells') :
    QuadFrame st st' cells' :=
  ⟨h.same, h.heap, fun a ha => h.heapOut a fun m => ha (sub a m)⟩

end QuadFrame

variable [Add R] [Sub R] [Mul R] [OfScientific R]

theorem sumQuad_frame {B : Build R} {p : ℕ} {q : NodePtr} {own : Option (NBodyQuadMatrix R)}
    {st st' : TreeState R} (run : sumQuad B p q own st = some st') : QuadFrame st st' [p] := by
  simp only [sumQuad, Option.bind_eq_bind, Option.bind_eq_some_iff, Option.pure_def,
    Option.some.injEq] at run
  obtain ⟨x, -, m, -, rfl⟩ := run
  refine ⟨rfl, fun a => ?_, fun a ha => ?_⟩
  · by_cases hap : a = p
    · subst hap
      simp
    · simp [Function.update_of_ne hap]
  · have hap : a ≠ p := fun e => ha (by simp [e])
    simp [Function.update_of_ne hap]

theorem hackQuad_frame {B : Build R} {fuel c : ℕ} {T : Octree ℕ ℕ} {st st' : TreeState R}
    (rep : Represents st.heap T (.cell c)) (nodup : T.cells.Nodup)
    (run : hackQuad B fuel st c = some st') : QuadFrame st st' T.cells := by
  induction T generalizing fuel c st st' with
  | empty => simp [Represents] at rep
  | leaf b => simp [Represents] at rep
  | cell d sub ih =>
      cases fuel with
      | zero => simp [hackQuad] at run
      | succ fuel =>
          obtain ⟨hcd, s, hs, hsub⟩ := rep
          rw [Ref.cell.injEq] at hcd
          subst hcd
          obtain ⟨cOut, nodups, apart⟩ := (Octree.nodup_cells_cell c sub).mp nodup
          simp only [hackQuad, TreeState.subp, hs, Option.bind_eq_bind, Option.bind_some, occupied,
            List.foldlM_filter, List.foldlM_map] at run
          refine foldlM_invariant (fun done st₁ => QuadFrame st st₁
            (c :: done.flatMap fun i => (sub i).cells)) (QuadFrame.refl st _) ?_ run
          intro done i rest st₁ st₂ split inv turn
          rw [List.flatMap_append, List.flatMap_singleton]
          have wider : ∀ a ∈ (c :: done.flatMap fun i => (sub i).cells) ++ ((sub i).cells ++ [c]),
              a ∈ c :: ((done.flatMap fun i => (sub i).cells) ++ (sub i).cells) := by
            intro a ha
            simp only [List.cons_append, List.mem_cons, List.mem_append, List.not_mem_nil,
              or_false] at ha ⊢
            rcases ha with ha | ha | ha | ha
            exacts [.inl ha, .inr (.inl ha), .inr (.inr ha), .inl ha]
          have hi := hsub i
          by_cases null : s i = .null
          · simp only [null, ne_eq, not_true_eq_false, decide_false, Bool.false_eq_true, if_false,
              Option.pure_def, Option.some.injEq] at turn
            subst turn
            refine inv.mono fun a ha => ?_
            rw [List.mem_cons, List.mem_append]
            exact (List.mem_cons.mp ha).imp id .inl
          · simp only [ne_eq, null, not_false_eq_true, decide_true, if_true] at turn
            cases hT : sub i with
            | empty => exact absurd ((represents_null hi).mpr hT) null
            | leaf b =>
                rw [hT] at hi wider
                rw [show s i = .leaf b from hi, quadTurn, Option.ite_none_right_eq_some] at turn
                exact (inv.trans (sumQuad_frame turn.2)).mono fun a ha =>
                  wider a (by simpa [Octree.cells] using ha)
            | cell d inner =>
                rw [hT] at hi
                have fresh : i ∉ done := fun m => by
                  have nodup := List.nodup_finRange 8
                  rw [← split] at nodup
                  exact (List.nodup_append.mp nodup).2.2 i m i (by simp) rfl
                have before : ∀ a ∈ (sub i).cells, st₁.heap a = st.heap a := by
                  intro a ha
                  refine inv.heapOut a fun m => ?_
                  rcases List.mem_cons.mp m with rfl | m
                  · exact cOut i ha
                  · obtain ⟨j, hj, haj⟩ := List.mem_flatMap.mp m
                    exact apart i j (fun e => fresh (e ▸ hj)) ha haj
                rw [hi.1, quadTurn] at turn
                obtain ⟨st₃, deeper, turn⟩ := Option.bind_eq_some_iff.mp turn
                have rep : Represents st₁.heap (sub i) (.cell d) := by
                  refine Represents.congr ?_ fun a ha => by rw [before a ha]
                  rw [hT]
                  exact ⟨rfl, hi.2⟩
                rw [← hT]
                exact (inv.trans ((ih i rep (nodups i) deeper).trans (sumQuad_frame turn))).mono
                  wider

end MilkyWay.NBody
