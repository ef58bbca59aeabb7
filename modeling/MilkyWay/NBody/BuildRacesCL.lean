import MilkyWay.Foundation.Descent
import MilkyWay.NBody.BuildItemsCL

/-! Whatever the order of their steps, the work-items that build the tree on a device lose no body
and store none twice. `Growing` says what holds between two steps: the slots that can be followed
lay out an octree that holds the bodies stored so far, a locked slot belongs to the one item that
has locked it and stands for what was in it, and each new cell belongs to the tree or to the one
item that builds with it. -/

namespace MilkyWay.NBody

open Foundation Foundation.Octree

variable {R : Type}

/-! ## What an item holds -/

def BuildPc.splitting : BuildPc R → Option (SplittingCL R)
  | .alloc s => some s
  | .size s _ => some s
  | .readCentre s _ => some s
  | .writeCentre s _ _ => some s
  | .link s _ _ => some s
  | .old s _ _ => some s
  | .fresh s _ _ => some s
  | .place s => some s
  | .publish s => some s
  | _ => none

def BuildPc.holds : BuildPc R → Option (ℕ × Fin 8)
  | .put a => some (a.n, a.j)
  | pc => pc.splitting.map SplittingCL.locked

def BuildItem.reached (it : BuildItem R) : ℕ :=
  max it.localMaxDepth (it.pc.splitting.elim 0 fun s => s.depth)

def BuildMemory.refs (m : BuildMemory R) (c : ℕ) (j : Fin 8) : Ref ℕ ℕ := (m.child c j).ref

theorem BuildMemory.refs_setChild (m : BuildMemory R) (n : ℕ) (j : Fin 8) (ch : SlotCL) :
    (m.setChild n j ch).refs =
      Function.update m.refs n (Function.update (m.refs n) j ch.ref) := by
  funext c i
  by_cases own : c = n
  · subst own
    by_cases here : i = j
    · subst here
      simp [BuildMemory.refs, BuildMemory.setChild]
    · simp [BuildMemory.refs, BuildMemory.setChild, here]
  · simp [BuildMemory.refs, BuildMemory.setChild, own]

@[simp] theorem BuildMemory.setChild_pos (m : BuildMemory R) (n : ℕ) (j : Fin 8) (ch : SlotCL) :
    (m.setChild n j ch).pos = m.pos := rfl

@[simp] theorem BuildMemory.setChild_bottom (m : BuildMemory R) (n : ℕ) (j : Fin 8) (ch : SlotCL) :
    (m.setChild n j ch).bottom = m.bottom := rfl

variable [LinearOrder R]

def slotAt (pos : ℕ → Vec3 R) (c b : ℕ) : Fin 8 := subIndexCL (pos b) (pos c)

structure DescentCL.Stands (k : BuildArgs) (pos : ℕ → Vec3 R) (T : Octree ℕ ℕ) (i : ℕ)
    (a : DescentCL R) : Prop where
  body : i < k.NBODY
  p : a.p = pos i
  j : a.j = slotAt pos a.n i
  stands : ∃ lev below, a.depth = lev + 1 ∧ Descends (slotAt pos) i T a.n below lev

structure SplittingCL.Splits (k : BuildArgs) (pos : ℕ → Vec3 R) (T : Octree ℕ ℕ)
    (view : ℕ → Fin 8 → Ref ℕ ℕ) (i o lev : ℕ) (s : SplittingCL R) : Prop where
  body : i < k.NBODY
  old : o < k.NBODY
  other : o ≠ i
  p : s.p = pos i
  slot : s.locked.2 = slotAt pos s.locked.1 i
  stands : ∃ below, Descends (slotAt pos) i T s.locked.1 below lev
  view : view s.locked.1 s.locked.2 = .leaf o

def singleRef (j : Fin 8) (r : Ref ℕ ℕ) : Fin 8 → Ref ℕ ℕ := Function.update (fun _ => .null) j r

def Pending (m : BuildMemory R) (i o : ℕ) (s : SplittingCL R) (patch : Option ℕ) :
    List ℕ → Prop
  | [] => (s.n, s.j) = s.locked ∧ patch = none
  | d :: l => s.n = d ∧ s.j = slotAt m.pos d o ∧ slotAt m.pos d i = slotAt m.pos d o ∧
      Tower m.refs (slotAt m.pos) i o l d ∧ m.refs d = singleRef (slotAt m.pos d o) (.leaf o) ∧
      patch = some (uppermost l d)

structure Taken (m : BuildMemory R) (i o : ℕ) (s : SplittingCL R) (c : ℕ) (l own : List ℕ) :
    Prop where
  own : own = c :: l
  bare : m.refs c = fun _ => .null
  ch : s.ch = .body o
  patch : s.patch = some (uppermost l c)
  pending : ∃ patch, Pending m i o s patch l

structure Hung (m : BuildMemory R) (i o : ℕ) (s : SplittingCL R) (c : ℕ) (x : Vec3 R)
    (l own : List ℕ) : Prop where
  own : own = c :: l
  pos : m.pos c = x
  patch : s.patch = some (uppermost l c)
  tower : Tower m.refs (slotAt m.pos) i o l c

def BuildItem.Holds (k : BuildArgs) (m : BuildMemory R) (T : Octree ℕ ℕ)
    (view : ℕ → Fin 8 → Ref ℕ ℕ) (own : List ℕ) (it : BuildItem R) : Prop :=
  match it.pc with
  | .look a => own = [] ∧ a.Stands k m.pos T it.i
  | .enter a c => own = [] ∧ a.Stands k m.pos T it.i ∧ view a.n a.j = .cell c
  | .lock a ch => own = [] ∧ a.Stands k m.pos T it.i ∧
      (ch = .null ∨ ∃ o, o ≠ it.i ∧ ch = .body o)
  | .put a => own = [] ∧ a.Stands k m.pos T it.i ∧ view a.n a.j = .null
  | .alloc s => ∃ o lev, s.Splits k m.pos T view it.i o lev ∧ s.ch = .body o ∧
      Pending m it.i o s s.patch own ∧ s.depth = lev + 1 + own.length
  | .size s c => ∃ o lev l, s.Splits k m.pos T view it.i o lev ∧ Taken m it.i o s c l own ∧
      s.depth = lev + 1 + own.length
  | .readCentre s c => ∃ o lev l, s.Splits k m.pos T view it.i o lev ∧ Taken m it.i o s c l own ∧
      s.depth = lev + 1 + own.length
  | .writeCentre s c _ => ∃ o lev l, s.Splits k m.pos T view it.i o lev ∧
      Taken m it.i o s c l own ∧ s.depth = lev + 1 + own.length
  | .link s c x => ∃ o lev l, s.Splits k m.pos T view it.i o lev ∧ Taken m it.i o s c l own ∧
      m.pos c = x ∧ s.depth = lev + 1 + own.length
  | .old s c x => ∃ o lev l, s.Splits k m.pos T view it.i o lev ∧ Hung m it.i o s c x l own ∧
      s.ch = .body o ∧ (m.refs c = fun _ => .null) ∧ s.depth = lev + 1 + own.length
  | .fresh s c x => ∃ o lev l, s.Splits k m.pos T view it.i o lev ∧
      Hung m it.i o s c x l own ∧ m.refs c = singleRef (slotAt m.pos c o) (.leaf o) ∧
      s.depth = lev + 1 + own.length
  | .place s => ∃ o lev l, s.Splits k m.pos T view it.i o lev ∧
      Hung m it.i o s s.n (m.pos s.n) l own ∧ s.j = slotAt m.pos s.n it.i ∧
      s.j ≠ slotAt m.pos s.n o ∧ m.refs s.n = singleRef (slotAt m.pos s.n o) (.leaf o) ∧
      s.depth = lev + 1 + own.length
  | .publish s => ∃ o lev l, s.Splits k m.pos T view it.i o lev ∧
      Hung m it.i o s s.n (m.pos s.n) l own ∧ s.j = slotAt m.pos s.n it.i ∧
      s.j ≠ slotAt m.pos s.n o ∧
      m.refs s.n = Function.update (singleRef (slotAt m.pos s.n o) (.leaf o)) s.j (.leaf it.i) ∧
      s.depth = lev + 1 + own.length
  | _ => own = []

/-- What holds between two steps of the items, for the tree `T` that can be followed, what its
slots refer to or stand for, and the cells with which each item builds. -/
structure Growing (k : BuildArgs) (s : BuildRun R) (T : Octree ℕ ℕ) (view : ℕ → Fin 8 → Ref ℕ ℕ)
    (own : ℕ → List ℕ) : Prop where
  root : ∃ sub, T = .cell k.NNODE sub
  laid : Laid view T
  cellsNodup : T.cells.Nodup
  leavesNodup : T.leaves.Nodup
  sorted : T.Everywhere (Sorts (slotAt s.mem.pos))
  bodies : ∀ b ∈ T.leaves, b < k.NBODY
  bottom : k.NBODY < s.mem.bottom
  cells : ∀ c, s.mem.bottom ≤ c ∧ c ≤ k.NNODE ↔ c ∈ T.cells ∨ ∃ w, c ∈ own w
  apart : ∀ w, ∀ c ∈ own w, c ∉ T.cells
  owner : ∀ w w' c, c ∈ own w → c ∈ own w' → w = w'
  ownNodup : ∀ w, (own w).Nodup
  clear : ∀ c, k.NBODY < c → c < s.mem.bottom → s.mem.refs c = fun _ => .null
  shown : ∀ c ∈ T.cells, ∀ j, s.mem.refs c j = view c j ∨
    ∃ w, (s.items w).pc.holds = some (c, j)
  locks : ∀ w c j, (s.items w).pc.holds = some (c, j) → c ∈ T.cells ∧ s.mem.child c j = .lock
  alone : ∀ w w' x, (s.items w).pc.holds = some x → (s.items w').pc.holds = some x → w = w'
  items : ∀ w, (s.items w).Holds k s.mem T view (own w)

/-! ## What the others do -/

variable {k : BuildArgs} {m m' : BuildMemory R} {T T' : Octree ℕ ℕ}
  {view view' : ℕ → Fin 8 → Ref ℕ ℕ} {i o lev : ℕ}

/-- What the steps of the others leave of what an item has seen. -/
structure Keeps (k : BuildArgs) (m m' : BuildMemory R) (T T' : Octree ℕ ℕ)
    (view view' : ℕ → Fin 8 → Ref ℕ ℕ) : Prop where
  bodies : ∀ b < k.NBODY, m'.pos b = m.pos b
  centres : ∀ c ∈ T.cells, m'.pos c = m.pos c
  stands : ∀ b < k.NBODY, ∀ n below lev, Descends (slotAt m.pos) b T n below lev →
    ∃ below', Descends (slotAt m'.pos) b T' n below' lev
  cells : ∀ c ∈ T.cells, ∀ j d, view c j = .cell d → view' c j = .cell d

theorem slotAt_congr {pos pos' : ℕ → Vec3 R} {c b : ℕ} (cell : pos' c = pos c)
    (body : pos' b = pos b) : slotAt pos' c b = slotAt pos c b := by
  rw [slotAt, slotAt, cell, body]

theorem DescentCL.Stands.mem {a : DescentCL R} (h : a.Stands k m.pos T i) : a.n ∈ T.cells := by
  obtain ⟨lev, below, -, stands⟩ := h.stands
  exact stands.mem_cells

theorem DescentCL.Stands.frame {a : DescentCL R} (h : a.Stands k m.pos T i)
    (keeps : Keeps k m m' T T' view view') : a.Stands k m'.pos T' i := by
  obtain ⟨lev, below, depth, stands⟩ := h.stands
  obtain ⟨below', stands'⟩ := keeps.stands i h.body _ _ _ stands
  refine ⟨h.body, ?_, ?_, lev, below', depth, stands'⟩
  · rw [keeps.bodies i h.body]
    exact h.p
  · rw [slotAt_congr (keeps.centres _ h.mem) (keeps.bodies i h.body)]
    exact h.j

theorem SplittingCL.Splits.frame {s : SplittingCL R} (h : s.Splits k m.pos T view i o lev)
    (keeps : Keeps k m m' T T' view view')
    (held : view' s.locked.1 s.locked.2 = view s.locked.1 s.locked.2) :
    s.Splits k m'.pos T' view' i o lev := by
  obtain ⟨below, stands⟩ := h.stands
  refine ⟨h.body, h.old, h.other, ?_, ?_, keeps.stands i h.body _ _ _ stands, ?_⟩
  · rw [keeps.bodies i h.body]
    exact h.p
  · rw [slotAt_congr (keeps.centres _ stands.mem_cells) (keeps.bodies i h.body)]
    exact h.slot
  · rw [held]
    exact h.view

theorem tower_frame {l : List ℕ} {d : ℕ} (h : Tower m.refs (slotAt m.pos) i o l d)
    (own : ∀ c ∈ l, m'.pos c = m.pos c ∧ m'.refs c = m.refs c) (body : m'.pos i = m.pos i)
    (old : m'.pos o = m.pos o) : Tower m'.refs (slotAt m'.pos) i o l d := by
  induction l generalizing d with
  | nil => trivial
  | cons c l ih =>
      obtain ⟨together, holds, above⟩ := h
      rw [List.forall_mem_cons] at own
      obtain ⟨⟨centre, refs⟩, own⟩ := own
      refine ⟨?_, ?_, ih above own⟩
      · rw [slotAt_congr centre body, slotAt_congr centre old]
        exact together
      · rw [refs, slotAt_congr centre old]
        exact holds

theorem Pending.frame {s : SplittingCL R} {patch : Option ℕ} {l : List ℕ}
    (h : Pending m i o s patch l)
    (own : ∀ c ∈ l, m'.pos c = m.pos c ∧ m'.refs c = m.refs c) (body : m'.pos i = m.pos i)
    (old : m'.pos o = m.pos o) : Pending m' i o s patch l := by
  cases l with
  | nil => exact h
  | cons d l =>
      obtain ⟨here, slot, together, tower, refs, patch⟩ := h
      obtain ⟨⟨centre, same⟩, above⟩ := List.forall_mem_cons.mp own
      refine ⟨here, ?_, ?_, tower_frame tower above body old, ?_, patch⟩
      · rw [slotAt_congr centre old]
        exact slot
      · rw [slotAt_congr centre body, slotAt_congr centre old]
        exact together
      · rw [same, slotAt_congr centre old]
        exact refs

theorem Taken.frame {s : SplittingCL R} {c : ℕ} {l own : List ℕ} (h : Taken m i o s c l own)
    (same : ∀ c ∈ own, m'.pos c = m.pos c ∧ m'.refs c = m.refs c) (body : m'.pos i = m.pos i)
    (old : m'.pos o = m.pos o) : Taken m' i o s c l own := by
  obtain ⟨own, bare, ch, patch, before, pending⟩ := h
  subst own
  obtain ⟨⟨-, refs⟩, above⟩ := List.forall_mem_cons.mp same
  exact ⟨rfl, refs.trans bare, ch, patch, before, pending.frame above body old⟩

theorem Hung.frame {s : SplittingCL R} {c : ℕ} {x : Vec3 R} {l own : List ℕ}
    (h : Hung m i o s c x l own)
    (same : ∀ c ∈ own, m'.pos c = m.pos c ∧ m'.refs c = m.refs c) (body : m'.pos i = m.pos i)
    (old : m'.pos o = m.pos o) : Hung m' i o s c x l own := by
  obtain ⟨own, pos, patch, tower⟩ := h
  subst own
  obtain ⟨⟨centre, -⟩, above⟩ := List.forall_mem_cons.mp same
  exact ⟨rfl, centre.trans pos, patch, tower_frame tower above body old⟩

theorem BuildItem.Holds.frame {own : List ℕ} {it : BuildItem R}
    (h : it.Holds k m T view own) (keeps : Keeps k m m' T T' view view')
    (same : ∀ c ∈ own, m'.pos c = m.pos c ∧ m'.refs c = m.refs c)
    (held : ∀ c j, it.pc.holds = some (c, j) → view' c j = view c j) :
    it.Holds k m' T' view' own := by
  obtain ⟨pc, i, deepest, count⟩ := it
  have locked : ∀ s : SplittingCL R, pc.holds = some s.locked →
      view' s.locked.1 s.locked.2 = view s.locked.1 s.locked.2 := fun s h => held _ _ h
  have bodies := keeps.bodies
  cases pc with
  | look a => exact ⟨h.1, h.2.frame keeps⟩
  | enter a c => exact ⟨h.1, h.2.1.frame keeps, keeps.cells _ h.2.1.mem _ _ h.2.2⟩
  | lock a ch => exact ⟨h.1, h.2.1.frame keeps, h.2.2⟩
  | put a => exact ⟨h.1, h.2.1.frame keeps, (held _ _ rfl).trans h.2.2⟩
  | alloc s =>
      obtain ⟨o, lev, splits, ch, pending, depth⟩ := h
      exact ⟨o, lev, splits.frame keeps (locked s rfl), ch,
        pending.frame same (bodies i splits.body) (bodies o splits.old), depth⟩
  | size s c =>
      obtain ⟨o, lev, l, splits, taken, depth⟩ := h
      exact ⟨o, lev, l, splits.frame keeps (locked s rfl),
        taken.frame same (bodies i splits.body) (bodies o splits.old), depth⟩
  | readCentre s c =>
      obtain ⟨o, lev, l, splits, taken, depth⟩ := h
      exact ⟨o, lev, l, splits.frame keeps (locked s rfl),
        taken.frame same (bodies i splits.body) (bodies o splits.old), depth⟩
  | writeCentre s c x =>
      obtain ⟨o, lev, l, splits, taken, depth⟩ := h
      exact ⟨o, lev, l, splits.frame keeps (locked s rfl),
        taken.frame same (bodies i splits.body) (bodies o splits.old), depth⟩
  | link s c x =>
      obtain ⟨o, lev, l, splits, taken, centre, depth⟩ := h
      have mine : c ∈ own := by rw [taken.own]; exact List.mem_cons_self
      exact ⟨o, lev, l, splits.frame keeps (locked s rfl),
        taken.frame same (bodies i splits.body) (bodies o splits.old),
        (same c mine).1.trans centre, depth⟩
  | old s c x =>
      obtain ⟨o, lev, l, splits, hung, ch, bare, depth⟩ := h
      have mine : c ∈ own := by rw [hung.own]; exact List.mem_cons_self
      exact ⟨o, lev, l, splits.frame keeps (locked s rfl),
        hung.frame same (bodies i splits.body) (bodies o splits.old), ch,
        (same c mine).2.trans bare, depth⟩
  | fresh s c x =>
      obtain ⟨o, lev, l, splits, hung, refs, depth⟩ := h
      have mine : c ∈ own := by rw [hung.own]; exact List.mem_cons_self
      refine ⟨o, lev, l, splits.frame keeps (locked s rfl),
        hung.frame same (bodies i splits.body) (bodies o splits.old), ?_, depth⟩
      rw [(same c mine).2, slotAt_congr (same c mine).1 (bodies o splits.old)]
      exact refs
  | place s =>
      obtain ⟨o, lev, l, splits, hung, slot, apart, refs, depth⟩ := h
      have mine : s.n ∈ own := by rw [hung.own]; exact List.mem_cons_self
      have here := slotAt_congr (same _ mine).1 (bodies i splits.body)
      have there := slotAt_congr (same _ mine).1 (bodies o splits.old)
      have hung := hung.frame same (bodies i splits.body) (bodies o splits.old)
      refine ⟨o, lev, l, splits.frame keeps (locked s rfl),
        ⟨hung.own, rfl, hung.patch, hung.tower⟩, slot.trans here.symm, ?_, ?_, depth⟩
      · rw [there]
        exact apart
      · rw [(same _ mine).2, there]
        exact refs
  | publish s =>
      obtain ⟨o, lev, l, splits, hung, slot, apart, refs, depth⟩ := h
      have mine : s.n ∈ own := by rw [hung.own]; exact List.mem_cons_self
      have here := slotAt_congr (same _ mine).1 (bodies i splits.body)
      have there := slotAt_congr (same _ mine).1 (bodies o splits.old)
      have hung := hung.frame same (bodies i splits.body) (bodies o splits.old)
      refine ⟨o, lev, l, splits.frame keeps (locked s rfl),
        ⟨hung.own, rfl, hung.patch, hung.tower⟩, slot.trans here.symm, ?_, ?_, depth⟩
      · rw [there]
        exact apart
      · rw [(same _ mine).2, there]
        exact refs
  | start => exact h
  | next => exact h
  | report => exact h
  | finish => exact h
  | done => exact h

/-! ## What a step changes -/

section

variable {s : BuildRun R} {own : ℕ → List ℕ} {w : ℕ} {it : BuildItem R}

theorem Keeps.refl (m : BuildMemory R) (T : Octree ℕ ℕ) (view : ℕ → Fin 8 → Ref ℕ ℕ)
    (pos : m'.pos = m.pos) : Keeps k m m' T T view view where
  bodies b _ := by rw [pos]
  centres c _ := by rw [pos]
  stands b _ n below lev stands := ⟨below, by rw [pos]; exact stands⟩
  cells c _ j d cell := cell

omit [LinearOrder R] in
theorem forall_items {P : ℕ → BuildItem R → Prop} (mine : P w it)
    (others : ∀ v, v ≠ w → P v (s.items v)) (v : ℕ) : P v (Function.update s.items w it v) := by
  by_cases same : v = w
  · subst same
    rw [Function.update_self]
    exact mine
  · rw [Function.update_of_ne same]
    exact others v same

theorem Growing.keep (h : Growing k s T view own)
    (child : ∀ d, d ∉ own w → m'.child d = s.mem.child d)
    (pos : ∀ d, d ∉ own w → m'.pos d = s.mem.pos d) (bottom : m'.bottom = s.mem.bottom)
    (held : it.pc.holds = (s.items w).pc.holds) (item : it.Holds k m' T view (own w)) :
    Growing k ⟨m', Function.update s.items w it⟩ T view own := by
  have refs : ∀ d, d ∉ own w → m'.refs d = s.mem.refs d := fun d other => by
    funext j
    rw [BuildMemory.refs, child d other]
    rfl
  have inTree : ∀ d ∈ T.cells, d ∉ own w := fun d hd mine => h.apart w d mine hd
  have low : ∀ d, d < s.mem.bottom → d ∉ own w := fun d lt mine => by
    have := ((h.cells d).mpr (.inr ⟨w, mine⟩)).1
    omega
  have bodies : ∀ b < k.NBODY, b ∉ own w := fun b hb => low b (hb.trans h.bottom)
  have slots : ∀ d ∈ T.cells, ∀ b < k.NBODY, slotAt m'.pos d b = slotAt s.mem.pos d b :=
    fun d hd b hb => slotAt_congr (pos d (inTree d hd)) (pos b (bodies b hb))
  have keeps : Keeps k s.mem m' T T view view := by
    refine ⟨fun b hb => pos b (bodies b hb), fun d hd => pos d (inTree d hd), ?_,
      fun d _ j e cell => cell⟩
    exact fun b hb n below lev stands => ⟨below, stands.congr fun d hd => slots d hd b hb⟩
  have holds : ∀ v, (Function.update s.items w it v).pc.holds = (s.items v).pc.holds :=
    forall_items (P := fun v it => it.pc.holds = (s.items v).pc.holds) held fun _ _ => rfl
  refine { h with sorted := ?_, bottom := ?_, cells := ?_, clear := ?_, shown := ?_, locks := ?_,
                  alone := ?_, items := ?_ }
  · exact sorts_leaves_congr h.sorted fun d hd b hb => slots d hd b (h.bodies b hb)
  · show k.NBODY < m'.bottom
    rw [bottom]
    exact h.bottom
  · intro d
    show m'.bottom ≤ d ∧ d ≤ k.NNODE ↔ _
    rw [bottom]
    exact h.cells d
  · intro d above below
    have below : d < s.mem.bottom := by rw [← bottom]; exact below
    show m'.refs d = _
    rw [refs d (low d below)]
    exact h.clear d above below
  · intro d hd j
    show m'.refs d j = _ ∨ ∃ v, (Function.update s.items w it v).pc.holds = _
    simp only [holds, refs d (inTree d hd)]
    exact h.shown d hd j
  · intro v d j locked
    have locked : (Function.update s.items w it v).pc.holds = some (d, j) := locked
    rw [holds] at locked
    obtain ⟨hd, isLocked⟩ := h.locks v d j locked
    refine ⟨hd, ?_⟩
    show m'.child d j = _
    rw [child d (inTree d hd)]
    exact isLocked
  · intro v v' x locked locked'
    have locked : (Function.update s.items w it v).pc.holds = some x := locked
    have locked' : (Function.update s.items w it v').pc.holds = some x := locked'
    rw [holds] at locked locked'
    exact h.alone v v' x locked locked'
  · refine forall_items (P := fun v it => it.Holds k m' T view (own v)) item fun v other => ?_
    refine (h.items v).frame keeps (fun d hd => ?_) fun c j _ => rfl
    have apart : d ∉ own w := fun mine => other (h.owner v w d hd mine)
    exact ⟨pos d apart, refs d apart⟩

theorem Growing.shows (h : Growing k s T view own) {n : ℕ} {j : Fin 8} (inTree : n ∈ T.cells)
    (free : s.mem.child n j ≠ .lock) : (s.mem.child n j).ref = view n j := by
  rcases h.shown n inTree j with shown | ⟨v, locked⟩
  · exact shown
  · exact absurd (h.locks v n j locked).2 free

theorem Growing.lock (h : Growing k s T view own) {n : ℕ} {j : Fin 8} (inTree : n ∈ T.cells)
    (free : s.mem.child n j ≠ .lock) (idle : (s.items w).pc.holds = none)
    (held : it.pc.holds = some (n, j)) (none : own w = [])
    (item : it.Holds k (s.mem.setChild n j .lock) T view []) :
    Growing k ⟨s.mem.setChild n j .lock, Function.update s.items w it⟩ T view own := by
  have keeps : Keeps k s.mem (s.mem.setChild n j .lock) T T view view := Keeps.refl _ _ _ rfl
  have refs : ∀ d i, (d, i) ≠ (n, j) →
      (s.mem.setChild n j .lock).child d i = s.mem.child d i := by
    intro d i other
    by_cases cell : d = n
    · subst cell
      have slot : i ≠ j := fun same => other (by rw [same])
      simp [BuildMemory.setChild, slot]
    · simp [BuildMemory.setChild, cell]
  have apart : ∀ d, d ∉ T.cells → (s.mem.setChild n j .lock).refs d = s.mem.refs d := by
    intro d out
    have other : d ≠ n := fun same => out (same ▸ inTree)
    rw [BuildMemory.refs_setChild, Function.update_of_ne other]
  have low : ∀ d, d < s.mem.bottom → d ∉ T.cells := fun d lt mine => by
    have := ((h.cells d).mpr (.inl mine)).1
    omega
  have fresh : ∀ v, (s.items v).pc.holds ≠ some (n, j) := fun v locked =>
    free (h.locks v n j locked).2
  have holds : ∀ v x, (Function.update s.items w it v).pc.holds = some x ↔
      v = w ∧ x = (n, j) ∨ v ≠ w ∧ (s.items v).pc.holds = some x := by
    intro v x
    by_cases mine : v = w
    · subst mine
      rw [Function.update_self, held, Option.some.injEq]
      simp [eq_comm]
    · rw [Function.update_of_ne mine]
      simp [mine]
  refine { h with clear := ?_, shown := ?_, locks := ?_, alone := ?_, items := ?_ }
  · intro d above below
    exact (apart d (low d below)).trans (h.clear d above below)
  · intro d hd i
    by_cases here : (d, i) = (n, j)
    · exact .inr ⟨w, (holds w _).mpr (.inl ⟨rfl, here⟩)⟩
    · refine (h.shown d hd i).imp (fun shown => ?_) fun ⟨v, locked⟩ => ⟨v, (holds v _).mpr ?_⟩
      · rw [BuildMemory.refs, refs d i here]
        exact shown
      · refine .inr ⟨fun mine => ?_, locked⟩
        rw [mine, idle] at locked
        cases locked
  · intro v d i locked
    rcases (holds v _).mp locked with ⟨-, here⟩ | ⟨-, locked⟩
    · rw [Prod.mk.injEq] at here
      obtain ⟨rfl, rfl⟩ := here
      refine ⟨inTree, ?_⟩
      simp [BuildMemory.setChild]
    · obtain ⟨hd, isLocked⟩ := h.locks v d i locked
      refine ⟨hd, (refs d i fun here => fresh v ?_).trans isLocked⟩
      rw [← here]
      exact locked
  · intro v v' x locked locked'
    rcases (holds v x).mp locked with ⟨rfl, rfl⟩ | ⟨-, before⟩
    · rcases (holds v' _).mp locked' with ⟨rfl, -⟩ | ⟨-, before'⟩
      · rfl
      · exact absurd before' (fresh v')
    · rcases (holds v' x).mp locked' with ⟨rfl, rfl⟩ | ⟨-, before'⟩
      · exact absurd before (fresh v)
      · exact h.alone v v' x before before'
  · refine forall_items (P := fun v it => it.Holds k _ T view (own v)) ?_ fun v _ => ?_
    · rw [none]
      exact item
    · exact (h.items v).frame keeps (fun d hd => ⟨rfl, apart d (h.apart v d hd)⟩)
        fun c j _ => rfl

theorem Growing.take (h : Growing k s T view own) {c : ℕ} (cell : c + 1 = s.mem.bottom)
    (room : k.NBODY < c) (child : m'.child = s.mem.child) (pos : m'.pos = s.mem.pos)
    (bottom : m'.bottom = c) (held : it.pc.holds = (s.items w).pc.holds)
    (item : it.Holds k s.mem T view (c :: own w)) :
    Growing k ⟨m', Function.update s.items w it⟩ T view
      (Function.update own w (c :: own w)) := by
  have refs : m'.refs = s.mem.refs := by
    funext d j
    rw [BuildMemory.refs, child]
    rfl
  have keeps : Keeps k s.mem m' T T view view := Keeps.refl _ _ _ pos
  have new : c ∉ T.cells ∧ ∀ v, c ∉ own v := by
    have out : ¬(s.mem.bottom ≤ c ∧ c ≤ k.NNODE) := by omega
    rw [h.cells c, not_or, not_exists] at out
    exact out
  have inside : c ≤ k.NNODE := by
    obtain ⟨sub, rfl⟩ := h.root
    have := ((h.cells k.NNODE).mpr (.inl (by simp [Octree.cells]))).1
    omega
  have holds : ∀ v, (Function.update s.items w it v).pc.holds = (s.items v).pc.holds :=
    forall_items (P := fun v it => it.pc.holds = (s.items v).pc.holds) held fun _ _ => rfl
  have mem_own : ∀ v d, d ∈ Function.update own w (c :: own w) v ↔
      v = w ∧ d = c ∨ d ∈ own v := by
    intro v d
    by_cases mine : v = w
    · subst mine
      rw [Function.update_self, List.mem_cons]
      simp
    · rw [Function.update_of_ne mine]
      simp [mine]
  refine { h with sorted := ?_, bottom := ?_, cells := ?_, apart := ?_, owner := ?_,
                  ownNodup := ?_, clear := ?_, shown := ?_, locks := ?_, alone := ?_, items := ?_ }
  · show T.Everywhere (Sorts (slotAt m'.pos))
    rw [pos]
    exact h.sorted
  · show k.NBODY < m'.bottom
    rw [bottom]
    exact room
  · intro d
    have before := h.cells d
    have mine : (∃ v, d ∈ Function.update own w (c :: own w) v) ↔ d = c ∨ ∃ v, d ∈ own v := by
      simp only [mem_own]
      constructor
      · rintro ⟨v, ⟨-, rfl⟩ | old⟩
        · exact .inl rfl
        · exact .inr ⟨v, old⟩
      · rintro (rfl | ⟨v, old⟩)
        · exact ⟨w, .inl ⟨rfl, rfl⟩⟩
        · exact ⟨v, .inr old⟩
    show m'.bottom ≤ d ∧ d ≤ k.NNODE ↔ _
    rw [mine, or_left_comm, ← before, bottom]
    omega
  · intro v d hd
    rcases (mem_own v d).mp hd with ⟨-, rfl⟩ | old
    · exact new.1
    · exact h.apart v d old
  · intro v v' d hd hd'
    rcases (mem_own v d).mp hd with ⟨rfl, rfl⟩ | old
    · rcases (mem_own v' d).mp hd' with ⟨rfl, -⟩ | old'
      · rfl
      · exact absurd old' (new.2 v')
    · rcases (mem_own v' d).mp hd' with ⟨rfl, rfl⟩ | old'
      · exact absurd old (new.2 v)
      · exact h.owner v v' d old old'
  · intro v
    by_cases mine : v = w
    · subst mine
      rw [Function.update_self]
      exact List.nodup_cons.mpr ⟨new.2 v, h.ownNodup v⟩
    · rw [Function.update_of_ne mine]
      exact h.ownNodup v
  · intro d above below
    have below : d < m'.bottom := below
    show m'.refs d = _
    rw [refs]
    exact h.clear d above (by omega)
  · intro d hd j
    show m'.refs d j = _ ∨ ∃ v, (Function.update s.items w it v).pc.holds = _
    simp only [holds, refs]
    exact h.shown d hd j
  · intro v d j locked
    have locked : (Function.update s.items w it v).pc.holds = some (d, j) := locked
    rw [holds] at locked
    show _ ∧ m'.child d j = _
    rw [child]
    exact h.locks v d j locked
  · intro v v' x locked locked'
    have locked : (Function.update s.items w it v).pc.holds = some x := locked
    have locked' : (Function.update s.items w it v').pc.holds = some x := locked'
    rw [holds] at locked locked'
    exact h.alone v v' x locked locked'
  · have same : ∀ l : List ℕ, ∀ d ∈ l, m'.pos d = s.mem.pos d ∧ m'.refs d = s.mem.refs d :=
      fun l d _ => by rw [pos, refs]; exact ⟨rfl, rfl⟩
    refine forall_items (P := fun v it =>
      it.Holds k m' T view (Function.update own w (c :: own w) v)) ?_ fun v other => ?_
    · rw [Function.update_self]
      exact item.frame keeps (same _) fun d j _ => rfl
    · rw [Function.update_of_ne other]
      exact (h.items v).frame keeps (same _) fun d j _ => rfl

theorem Growing.store (h : Growing k s T view own) {n i : ℕ} {j : Fin 8} {r : SlotCL}
    {new : List ℕ} {lev : ℕ} (held : (s.items w).pc.holds = some (n, j)) (body : i < k.NBODY)
    (fresh : i ∉ T.leaves) (stores : Stores (slotAt s.mem.pos) i T T' new lev)
    (laid : Laid view' T') (cells : new.Perm (own w)) (here : r.ref = view' n j)
    (leaf : ∀ d, view n j ≠ .cell d)
    (others : ∀ c ∈ T.cells, ∀ a, (c, a) ≠ (n, j) → view' c a = view c a)
    (built : ∀ c ∈ own w, view' c = s.mem.refs c) (idle : it.pc.holds = none)
    (item : it.Holds k (s.mem.setChild n j r) T' view' []) :
    Growing k ⟨s.mem.setChild n j r, Function.update s.items w it⟩ T' view'
      (Function.update own w []) := by
  obtain ⟨inTree, -⟩ := h.locks w n j held
  have refs : ∀ d i, (d, i) ≠ (n, j) → (s.mem.setChild n j r).child d i = s.mem.child d i := by
    intro d i other
    by_cases cell : d = n
    · subst cell
      have slot : i ≠ j := fun same => other (by rw [same])
      simp [BuildMemory.setChild, slot]
    · simp [BuildMemory.setChild, cell]
  have apart : ∀ d, d ∉ T.cells → (s.mem.setChild n j r).refs d = s.mem.refs d := by
    intro d out
    have other : d ≠ n := fun same => out (same ▸ inTree)
    rw [BuildMemory.refs_setChild, Function.update_of_ne other]
  have mem_cells : ∀ d, d ∈ T'.cells ↔ d ∈ own w ∨ d ∈ T.cells := fun d => by
    rw [stores.cells.mem_iff, List.mem_append, cells.mem_iff]
  have mem_own : ∀ v d, d ∈ Function.update own w [] v ↔ v ≠ w ∧ d ∈ own v := by
    intro v d
    by_cases mine : v = w
    · subst mine
      rw [Function.update_self]
      simp
    · rw [Function.update_of_ne mine]
      simp [mine]
  have holds : ∀ v x, (Function.update s.items w it v).pc.holds = some x ↔
      v ≠ w ∧ (s.items v).pc.holds = some x := by
    intro v x
    by_cases mine : v = w
    · subst mine
      rw [Function.update_self, idle]
      simp
    · rw [Function.update_of_ne mine]
      simp [mine]
  have locked_apart : ∀ v c a, v ≠ w → (s.items v).pc.holds = some (c, a) → (c, a) ≠ (n, j) :=
    fun v c a other locked same => other (h.alone v w _ (same ▸ locked) held)
  have keeps : Keeps k s.mem (s.mem.setChild n j r) T T' view view' := by
    refine ⟨fun b _ => rfl, fun c _ => rfl, fun b _ c below lev' stands =>
      stores.descends stands, fun c hc a d cell => ?_⟩
    by_cases same : (c, a) = (n, j)
    · rw [Prod.mk.injEq] at same
      rw [same.1, same.2] at cell
      exact absurd cell (leaf d)
    · exact (others c hc a same).trans cell
  refine ⟨?_, laid, ?_, ?_, stores.sorted h.sorted, ?_, h.bottom, ?_, ?_, ?_, ?_, ?_, ?_, ?_, ?_,
    ?_⟩
  · obtain ⟨sub, rfl⟩ := h.root
    exact stores.root
  · refine (stores.cells.trans (cells.append_right _)).nodup_iff.mpr ?_
    exact List.nodup_append'.mpr ⟨h.ownNodup w, h.cellsNodup, fun d mine => h.apart w d mine⟩
  · refine stores.leaves.nodup_iff.mpr ?_
    rw [if_pos rfl, List.singleton_append, List.nodup_cons]
    exact ⟨fresh, h.leavesNodup⟩
  · intro b hb
    rcases stores.mem_leaves hb with rfl | hb
    · exact body
    · exact h.bodies b hb
  · intro d
    refine (h.cells d).trans ?_
    simp only [mem_cells, mem_own]
    constructor
    · rintro (hd | ⟨v, hd⟩)
      · exact .inl (.inr hd)
      · by_cases mine : v = w
        · exact .inl (.inl (mine ▸ hd))
        · exact .inr ⟨v, mine, hd⟩
    · rintro ((hd | hd) | ⟨v, -, hd⟩)
      · exact .inr ⟨w, hd⟩
      · exact .inl hd
      · exact .inr ⟨v, hd⟩
  · intro v d hd
    obtain ⟨other, hd⟩ := (mem_own v d).mp hd
    rw [mem_cells, not_or]
    exact ⟨fun mine => other (h.owner v w d hd mine), h.apart v d hd⟩
  · intro v v' d hd hd'
    exact h.owner v v' d ((mem_own v d).mp hd).2 ((mem_own v' d).mp hd').2
  · intro v
    by_cases mine : v = w
    · rw [mine, Function.update_self]
      exact List.nodup_nil
    · rw [Function.update_of_ne mine]
      exact h.ownNodup v
  · intro d above below
    have out : d ∉ T.cells := fun mine => by
      have := ((h.cells d).mpr (.inl mine)).1
      have : d < s.mem.bottom := below
      omega
    exact (apart d out).trans (h.clear d above below)
  · intro d hd a
    rcases (mem_cells d).mp hd with mine | hd
    · refine .inl ((congrFun (apart d (h.apart w d mine)) a).trans ?_)
      rw [built d mine]
    · by_cases same : (d, a) = (n, j)
      · rw [Prod.mk.injEq] at same
        obtain ⟨rfl, rfl⟩ := same
        refine .inl ?_
        rw [BuildMemory.refs_setChild, Function.update_self, Function.update_self]
        exact here
      · refine (h.shown d hd a).imp (fun shown => ?_) fun ⟨v, locked⟩ => ⟨v, (holds v _).mpr
          ⟨fun mine => ?_, locked⟩⟩
        · rw [BuildMemory.refs, refs d a same, others d hd a same]
          exact shown
        · rw [mine, held, Option.some.injEq] at locked
          exact same locked.symm
  · intro v d a locked
    obtain ⟨other, locked⟩ := (holds v _).mp locked
    obtain ⟨hd, isLocked⟩ := h.locks v d a locked
    exact ⟨(mem_cells d).mpr (.inr hd), (refs d a (locked_apart v d a other locked)).trans isLocked⟩
  · intro v v' x locked locked'
    exact h.alone v v' x ((holds v x).mp locked).2 ((holds v' x).mp locked').2
  · refine forall_items (P := fun v it =>
      it.Holds k _ T' view' (Function.update own w [] v)) ?_ fun v other => ?_
    · rw [Function.update_self]
      exact item
    · rw [Function.update_of_ne other]
      refine (h.items v).frame keeps (fun d hd => ⟨rfl, apart d (h.apart v d hd)⟩) fun c a locked => ?_
      exact others c (h.locks v c a locked).1 a (locked_apart v c a other locked)

end

end MilkyWay.NBody
