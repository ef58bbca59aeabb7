import MilkyWay.NBody.BuildRacesCL

/-! The steps of the work-items that build the tree, one lemma for each access, and from them what
a launch and the launches of the host leave: the tree holds every body once. -/

namespace MilkyWay.NBody

open Foundation Foundation.Octree

variable {R : Type} [Field R] [LinearOrder R] {k : BuildArgs} {l : BuildLaunch} {s : BuildRun R}
  {T T' : Octree ℕ ℕ} {view : ℕ → Fin 8 → Ref ℕ ℕ} {own : ℕ → List ℕ} {w : ℕ}

structure Waits (l : BuildLaunch) (m m' : BuildMemory R) (it it' : BuildItem R) : Prop where
  depth : it'.localMaxDepth = it.localMaxDepth
  body : l.consistent = true → it'.i = it.i
  count : l.consistent = false → m'.doneCnt + it'.successCount = m.doneCnt + it.successCount

/-- A step with which a body has come into the tree. -/
structure Stored (l : BuildLaunch) (m m' : BuildMemory R) (it it' : BuildItem R)
    (T T' : Octree ℕ ℕ) : Prop where
  leaves : T'.leaves.Perm (it.i :: T.leaves)
  depth : ∃ lev, T'.deepest = max T.deepest lev ∧ it'.localMaxDepth = max (lev + 1) it.localMaxDepth
  pc : it'.pc = .next
  body : it'.i = it.i + l.items
  count : l.consistent = false →
    m'.doneCnt = m.doneCnt ∧ it'.successCount = it.successCount + 1

def Grows (k : BuildArgs) (l : BuildLaunch) (s : BuildRun R) (w : ℕ) (T : Octree ℕ ℕ) : Prop :=
  ∃ T' view own, Growing k (s.step k l w) T' view own ∧
    (T' = T ∧ Waits l s.mem (itemStep k l s.mem (s.items w)).1 (s.items w)
      (itemStep k l s.mem (s.items w)).2 ∨
    Stored l s.mem (itemStep k l s.mem (s.items w)).1 (s.items w)
      (itemStep k l s.mem (s.items w)).2 T T')

theorem Growing.waits {m : BuildMemory R} {it : BuildItem R} {own' : ℕ → List ℕ}
    (step : itemStep k l s.mem (s.items w) = (m, it))
    (next : Growing k ⟨m, Function.update s.items w it⟩ T view own')
    (waits : Waits l s.mem m (s.items w) it) : Grows k l s w T := by
  refine ⟨T, view, own', ?_, .inl ⟨rfl, ?_⟩⟩
  · rw [BuildRun.step, step]
    exact next
  · rw [step]
    exact waits

theorem Growing.reads (h : Growing k s T view own) {m : BuildMemory R} {it : BuildItem R}
    (step : itemStep k l s.mem (s.items w) = (m, it)) (child : m.child = s.mem.child)
    (pos : m.pos = s.mem.pos) (bottom : m.bottom = s.mem.bottom)
    (held : it.pc.holds = (s.items w).pc.holds) (item : it.Holds k s.mem T view (own w))
    (waits : Waits l s.mem m (s.items w) it) : Grows k l s w T := by
  refine Growing.waits step (h.keep (fun d _ => by rw [child]) (fun d _ => by rw [pos]) bottom held
    (item.frame (Keeps.refl _ _ _ pos) (fun d _ => ⟨by rw [pos], ?_⟩) fun c j _ => rfl)) waits
  funext j
  rw [BuildMemory.refs, child]
  rfl

omit [Field R] [LinearOrder R] in
theorem waits_pc {m m' : BuildMemory R} {it : BuildItem R} (pc : BuildPc R)
    (count : m'.doneCnt = m.doneCnt) : Waits l m m' it { it with pc } :=
  ⟨rfl, fun _ => rfl, fun _ => by rw [count]⟩

theorem Growing.fail (h : Growing k s T view own) {a : DescentCL R}
    (step : itemStep k l s.mem (s.items w) = (s.mem, (s.items w).fail l a))
    (idle : (s.items w).pc.holds = none) (none : own w = [])
    (stands : a.Stands k s.mem.pos T (s.items w).i) : Grows k l s w T := by
  refine h.reads step rfl rfl rfl ?_ ?_ ?_
  · rw [idle, BuildItem.fail]
    split <;> rfl
  · rw [BuildItem.fail, none]
    split
    · exact ⟨rfl, stands⟩
    · rfl
  · rw [BuildItem.fail]
    split
    · exact waits_pc _ rfl
    · refine ⟨rfl, fun consistent => ?_, fun _ => rfl⟩
      contradiction

theorem Growing.start (h : Growing k s T view own) (pc : (s.items w).pc = .start) :
    Grows k l s w T := by
  have none : own w = [] := by simpa only [BuildItem.Holds, pc] using h.items w
  refine h.reads (m := s.mem) (by simp only [itemStep, pc]; rfl) rfl rfl rfl ?_ ?_ (waits_pc _ rfl)
  · rw [pc]
    split <;> rfl
  · rw [none]
    split <;> rfl

theorem Growing.next (h : Growing k s T view own) (within : l.maxN k ≤ k.NBODY)
    (pc : (s.items w).pc = .next) : Grows k l s w T := by
  have none : own w = [] := by simpa only [BuildItem.Holds, pc] using h.items w
  by_cases more : (s.items w).i < l.maxN k
  · refine h.reads (m := s.mem) (by simp only [itemStep, pc, if_pos more]; rfl) rfl rfl rfl ?_ ?_
      (waits_pc _ rfl)
    · rw [pc]
      rfl
    · obtain ⟨sub, rfl⟩ := h.root
      exact ⟨none, more.trans_le within, rfl, rfl, 0, sub, rfl, .here _ sub⟩
  · refine h.reads (m := s.mem) (by simp only [itemStep, pc, if_neg more]; rfl) rfl rfl rfl ?_ ?_
      (waits_pc _ rfl)
    · rw [pc]
      rfl
    · exact none

theorem ref_eq_leaf {ch : SlotCL} {b : ℕ} (h : ch.ref = .leaf b) : ch = .body b := by
  cases ch <;> simp_all [SlotCL.ref]

theorem Growing.look (h : Growing k s T view own) (deep : T.deepest < k.MAXDEPTH)
    {a : DescentCL R} (pc : (s.items w).pc = .look a) : Grows k l s w T := by
  have item := h.items w
  simp only [BuildItem.Holds, pc] at item
  obtain ⟨none, stands⟩ := item
  have idle : (s.items w).pc.holds = Option.none := by rw [pc]; rfl
  cases slot : s.mem.child a.n a.j with
  | lock =>
      exact h.fail (by simp [itemStep, pc, slot, SlotCL.isCell]) idle none stands
  | null =>
      refine h.reads (m := s.mem) (by simp [itemStep, pc, slot, SlotCL.isCell]) rfl rfl rfl ?_
        ?_ (waits_pc (.lock a .null) rfl)
      · rw [idle]
        rfl
      · exact ⟨none, stands, .inl rfl⟩
  | body o =>
      by_cases own : o = (s.items w).i
      · exact h.fail (by simp [itemStep, pc, slot, SlotCL.isCell, own]) idle none stands
      · refine h.reads (m := s.mem) (by simp [itemStep, pc, slot, SlotCL.isCell, own]) rfl rfl
          rfl ?_ ?_ (waits_pc (.lock a (.body o)) rfl)
        · rw [idle]
          rfl
        · exact ⟨none, stands, .inr ⟨o, own, rfl⟩⟩
  | cell c =>
      obtain ⟨lev, below, depth, descends⟩ := stands.stands
      have shallow : a.depth ≤ k.MAXDEPTH := by
        have := descends.level_le
        omega
      refine h.reads (m := s.mem) (by simp [itemStep, pc, slot, SlotCL.isCell, shallow]; rfl) rfl
        rfl rfl ?_ ?_ (waits_pc (.enter a c) rfl)
      · rw [idle]
        rfl
      · refine ⟨none, stands, ?_⟩
        rw [← h.shows stands.mem (by rw [slot]; exact SlotCL.noConfusion), slot]
        rfl

theorem Growing.enter (h : Growing k s T view own) {a : DescentCL R} {c : ℕ}
    (pc : (s.items w).pc = .enter a c) : Grows k l s w T := by
  have item := h.items w
  simp only [BuildItem.Holds, pc] at item
  obtain ⟨none, stands, cell⟩ := item
  obtain ⟨lev, below, depth, descends⟩ := stands.stands
  refine h.reads (m := s.mem) (by simp only [itemStep, pc]; rfl) rfl rfl rfl ?_ ?_ (waits_pc _ rfl)
  · rw [pc]
    rfl
  · refine ⟨none, stands.body, stands.p, ?_, lev + 1, ?_⟩
    · rw [stands.p]
      rfl
    · have content : (below (slotAt s.mem.pos a.n (s.items w).i)).entry .null = .cell c := by
        rw [← descends.view_eq h.laid, ← stands.j]
        exact cell
      obtain ⟨inner, here⟩ := entry_eq_cell content
      exact ⟨inner, by rw [depth], descends.next here⟩

theorem Growing.tryLock (h : Growing k s T view own) {a : DescentCL R} {ch : SlotCL}
    (pc : (s.items w).pc = .lock a ch) : Grows k l s w T := by
  have item := h.items w
  simp only [BuildItem.Holds, pc] at item
  obtain ⟨none, stands, node⟩ := item
  have idle : (s.items w).pc.holds = Option.none := by rw [pc]; rfl
  by_cases same : s.mem.child a.n a.j = ch
  swap
  · exact h.fail (by simp only [itemStep, pc, if_neg same]) idle none stands
  obtain ⟨lev, below, depth, descends⟩ := stands.stands
  have free : s.mem.child a.n a.j ≠ .lock := by
    rw [same]
    rcases node with rfl | ⟨o, -, rfl⟩ <;> exact SlotCL.noConfusion
  have shown := h.shows stands.mem free
  rw [same] at shown
  rcases node with rfl | ⟨o, other, rfl⟩
  · have step : itemStep k l s.mem (s.items w) =
        (s.mem.setChild a.n a.j .lock, { s.items w with pc := .put a }) := by
      simp only [itemStep, pc, if_pos same]
      rfl
    refine Growing.waits step
      (h.lock stands.mem free idle rfl none ⟨rfl, ⟨stands.body, stands.p, stands.j, lev, below,
        depth, descends⟩, shown.symm⟩) (waits_pc _ rfl)
  · have leaf : o ∈ T.leaves := by
      have content : (below (slotAt s.mem.pos a.n (s.items w).i)).entry .null = .leaf o := by
        rw [← descends.view_eq h.laid, ← stands.j]
        exact shown.symm
      refine descends.leaves_sub (i := slotAt s.mem.pos a.n (s.items w).i) ?_
      rw [entry_eq_leaf content]
      exact List.mem_singleton_self o
    have step : itemStep k l s.mem (s.items w) = (s.mem.setChild a.n a.j .lock,
        { s.items w with pc := .alloc ⟨a, (a.n, a.j), Option.none, .body o⟩ }) := by
      simp only [itemStep, pc, if_pos same]
      rfl
    refine Growing.waits step
      (h.lock stands.mem free idle rfl none ⟨o, lev, ?_, rfl, ⟨rfl, rfl⟩, depth⟩) (waits_pc _ rfl)
    exact ⟨stands.body, h.bodies o leaf, other, stands.p, stands.j, ⟨below, descends⟩, shown.symm⟩

theorem Growing.alloc (h : Growing k s T view own) {r : SplittingCL R}
    (room : (s.step k l w).mem.errorCode = false) (pc : (s.items w).pc = .alloc r) :
    Grows k l s w T := by
  have item := h.items w
  simp only [BuildItem.Holds, pc] at item
  obtain ⟨o, lev, splits, ch, pending, depth⟩ := item
  have fits : k.NBODY < s.mem.bottom - 1 := by
    by_contra small
    have full : s.mem.bottom - 1 ≤ k.NBODY := not_lt.mp small
    simp [BuildRun.step, itemStep, pc, full] at room
  have patch : some (max (r.patch.getD (s.mem.bottom - 1)) (s.mem.bottom - 1)) =
      some (uppermost (own w) (s.mem.bottom - 1)) := by
    cases mine : own w with
    | nil =>
        rw [mine] at pending
        rw [pending.2]
        simp [uppermost]
    | cons d above =>
        rw [mine] at pending
        obtain ⟨-, -, -, -, -, before⟩ := pending
        have upper : uppermost above d ∈ own w := by
          rw [mine]
          exact uppermost_mem above d
        have allocated := ((h.cells _).mpr (.inr ⟨w, upper⟩)).1
        rw [before]
        have le : s.mem.bottom - 1 ≤ uppermost above d := by omega
        rw [Option.getD_some, max_eq_left le]
        rfl
  let r' : SplittingCL R :=
    { r with depth := r.depth + 1, patch := some (uppermost (own w) (s.mem.bottom - 1)) }
  have step : itemStep k l s.mem (s.items w) = ({ s.mem with bottom := s.mem.bottom - 1 },
      { s.items w with pc := .size r' (s.mem.bottom - 1) }) := by
    simp only [itemStep, pc, patch]
    simp [not_le.mpr fits, r']
  refine Growing.waits step (h.take (by omega) fits rfl rfl rfl (by rw [pc]; rfl) ?_) (waits_pc _ rfl)
  refine ⟨o, lev, own w, ⟨splits.body, splits.old, splits.other, splits.p, splits.slot,
    splits.stands, splits.view⟩, ⟨rfl, ?_, ch, rfl, r.patch, ?_⟩, ?_⟩
  · exact h.clear _ fits (by have := h.bottom; omega)
  · cases mine : own w with
    | nil =>
        rw [mine] at pending
        exact pending
    | cons d above =>
        rw [mine] at pending
        exact pending
  · rw [List.length_cons]
    show r.depth + 1 = _
    omega

theorem Growing.size (h : Growing k s T view own) {r : SplittingCL R} {c : ℕ}
    (pc : (s.items w).pc = .size r c) : Grows k l s w T := by
  have item := h.items w
  simp only [BuildItem.Holds, pc] at item
  let m : BuildMemory R := { s.mem with
    critRadii := if k.keepsSize then Function.update s.mem.critRadii c r.r else s.mem.critRadii }
  have step : itemStep k l s.mem (s.items w) = (m, { s.items w with pc := .readCentre r c }) := by
    rw [itemStep, pc]
  exact h.reads step rfl rfl rfl (by rw [pc]; rfl) item (waits_pc _ rfl)

theorem Growing.readCentre (h : Growing k s T view own) {r : SplittingCL R} {c : ℕ}
    (pc : (s.items w).pc = .readCentre r c) : Grows k l s w T := by
  have item := h.items w
  simp only [BuildItem.Holds, pc] at item
  obtain ⟨o, lev, above, splits, taken, depth⟩ := item
  refine h.reads (m := s.mem) (by simp only [itemStep, pc]; rfl) rfl rfl rfl (by rw [pc]; rfl) ?_
    (waits_pc _ rfl)
  refine ⟨o, lev, above, ⟨splits.body, splits.old, splits.other, splits.p, splits.slot,
    splits.stands, splits.view⟩, ⟨taken.own, taken.bare, taken.ch, taken.patch, ?_⟩, depth⟩
  obtain ⟨before, pending⟩ := taken.pending
  cases above with
  | nil => exact ⟨before, pending⟩
  | cons d above => exact ⟨before, pending⟩

omit [Field R] in
theorem Growing.own_apart (h : Growing k s T view own) {c : ℕ} (mine : c ∈ own w) :
    c ∉ T.cells ∧ ∀ b < k.NBODY, b ≠ c := by
  refine ⟨h.apart w c mine, fun b hb same => ?_⟩
  have := ((h.cells c).mpr (.inr ⟨w, mine⟩)).1
  have := h.bottom
  omega

theorem Growing.writes (h : Growing k s T view own) {m : BuildMemory R} {it : BuildItem R} {c : ℕ}
    (mine : c ∈ own w) (step : itemStep k l s.mem (s.items w) = (m, it))
    (child : ∀ d, d ≠ c → m.child d = s.mem.child d) (pos : ∀ d, d ≠ c → m.pos d = s.mem.pos d)
    (bottom : m.bottom = s.mem.bottom) (held : it.pc.holds = (s.items w).pc.holds)
    (item : it.Holds k m T view (own w)) (waits : Waits l s.mem m (s.items w) it) :
    Grows k l s w T :=
  Growing.waits step (h.keep (fun d other => child d fun same => other (same ▸ mine))
    (fun d other => pos d fun same => other (same ▸ mine)) bottom held item) waits

omit [Field R] in
theorem Growing.keeps (h : Growing k s T view own) {m : BuildMemory R} {c : ℕ}
    (mine : c ∈ own w) (pos : ∀ d, d ≠ c → m.pos d = s.mem.pos d) :
    Keeps k s.mem m T T view view := by
  obtain ⟨out, bodies⟩ := h.own_apart mine
  have inTree : ∀ d ∈ T.cells, d ≠ c := fun d hd same => out (same ▸ hd)
  refine ⟨fun b hb => pos b (bodies b hb), fun d hd => pos d (inTree d hd), ?_,
    fun d _ j e cell => cell⟩
  exact fun b hb n below lev stands => ⟨below, stands.congr fun d hd =>
    slotAt_congr (pos d (inTree d hd)) (pos b (bodies b hb))⟩

theorem Growing.writeCentre (h : Growing k s T view own) {r : SplittingCL R} {c : ℕ} {x : Vec3 R}
    (pc : (s.items w).pc = .writeCentre r c x) : Grows k l s w T := by
  have item := h.items w
  simp only [BuildItem.Holds, pc] at item
  obtain ⟨o, lev, above, splits, taken, depth⟩ := item
  have mine : c ∈ own w := by rw [taken.own]; exact List.mem_cons_self
  have fresh : c ∉ above := by
    have nodup := h.ownNodup w
    rw [taken.own] at nodup
    exact (List.nodup_cons.mp nodup).1
  have pos : ∀ d, d ≠ c → Function.update s.mem.pos c x d = s.mem.pos d :=
    fun d other => Function.update_of_ne other _ _
  obtain ⟨-, bodies⟩ := h.own_apart mine
  obtain ⟨before, pending⟩ := taken.pending
  let m : BuildMemory R := { s.mem with pos := Function.update s.mem.pos c x }
  have step : itemStep k l s.mem (s.items w) = (m, { s.items w with pc := .link r c x }) := by
    rw [itemStep, pc]
  refine h.writes mine step (fun _ _ => rfl) pos rfl (by rw [pc]; rfl) ⟨o, lev, above,
    splits.frame (h.keeps mine pos) rfl, ⟨taken.own, taken.bare, taken.ch, taken.patch, before, ?_⟩,
    Function.update_self c x s.mem.pos, depth⟩ (waits_pc _ rfl)
  exact pending.frame (fun d hd => ⟨pos d fun same => fresh (same ▸ hd), rfl⟩)
    (pos _ (bodies _ splits.body)) (pos _ (bodies _ splits.old))

theorem Growing.link (h : Growing k s T view own) {r : SplittingCL R} {c : ℕ} {x : Vec3 R}
    (pc : (s.items w).pc = .link r c x) : Grows k l s w T := by
  have item := h.items w
  simp only [BuildItem.Holds, pc] at item
  obtain ⟨o, lev, above, splits, taken, centre, depth⟩ := item
  obtain ⟨before, pending⟩ := taken.pending
  have nodup := h.ownNodup w
  rw [taken.own] at nodup
  obtain ⟨fresh, nodup⟩ := List.nodup_cons.mp nodup
  cases above with
  | nil =>
      -- the first cell is linked when the slot is unlocked
      have step : itemStep k l s.mem (s.items w) =
          (s.mem, { s.items w with pc := .old r c x }) := by
        rw [itemStep, pc]
        simp [taken.patch, uppermost]
      exact h.reads step rfl rfl rfl (by rw [pc]; rfl) ⟨o, lev, [], splits,
        ⟨taken.own, centre, taken.patch, trivial⟩, taken.ch, taken.bare, depth⟩ (waits_pc _ rfl)
  | cons d above =>
      obtain ⟨rfl, slot, together, tower, refs, -⟩ := pending
      have upper : uppermost above r.n ≠ c := fun same => fresh (same ▸ uppermost_mem above r.n)
      have apart : c ≠ r.n := fun same => fresh (same ▸ List.mem_cons_self)
      have mine : r.n ∈ own w := by
        rw [taken.own]
        exact List.mem_cons_of_mem c List.mem_cons_self
      have step : itemStep k l s.mem (s.items w) =
          (s.mem.setChild r.n r.j (.cell c), { s.items w with pc := .old r c x }) := by
        rw [itemStep, pc]
        have notFirst : ¬uppermost above r.n = c := upper
        simp [taken.patch, uppermost, notFirst]
      have others : ∀ d, d ≠ r.n → (s.mem.setChild r.n r.j (.cell c)).refs d = s.mem.refs d := by
        intro d other
        rw [BuildMemory.refs_setChild, Function.update_of_ne other]
      have child : ∀ d, d ≠ r.n →
          (s.mem.setChild r.n r.j (.cell c)).child d = s.mem.child d :=
        fun d other => Function.update_of_ne other _ _
      refine h.writes mine step child (fun _ _ => rfl) rfl (by rw [pc]; rfl)
        ⟨o, lev, r.n :: above, splits.frame (h.keeps mine fun _ _ => rfl) rfl,
          ⟨taken.own, centre, taken.patch, together, ?_, ?_⟩, taken.ch,
          (others c apart).trans taken.bare, depth⟩ (waits_pc _ rfl)
      · rw [BuildMemory.refs_setChild, Function.update_self, refs, singleRef, slot,
          Function.update_idem]
        rfl
      · refine tower_frame tower (fun d hd => ⟨rfl, others d fun same => ?_⟩) rfl rfl
        exact (List.nodup_cons.mp nodup).1 (same ▸ hd)

theorem Growing.old (h : Growing k s T view own) {r : SplittingCL R} {c : ℕ} {x : Vec3 R}
    (pc : (s.items w).pc = .old r c x) : Grows k l s w T := by
  have item := h.items w
  simp only [BuildItem.Holds, pc] at item
  obtain ⟨o, lev, above, splits, hung, ch, bare, depth⟩ := item
  have mine : c ∈ own w := by rw [hung.own]; exact List.mem_cons_self
  have nodup := h.ownNodup w
  rw [hung.own] at nodup
  obtain ⟨fresh, -⟩ := List.nodup_cons.mp nodup
  let m := s.mem.setChild c (slotAt s.mem.pos c o) (.body o)
  have step : itemStep k l s.mem (s.items w) = (m, { s.items w with pc := .fresh r c x }) := by
    rw [itemStep, pc]
    simp only [ch, SlotCL.index, ← hung.pos]
    rfl
  have others : ∀ d, d ≠ c → m.refs d = s.mem.refs d := by
    intro d other
    rw [BuildMemory.refs_setChild, Function.update_of_ne other]
  have child : ∀ d, d ≠ c → m.child d = s.mem.child d :=
    fun d other => Function.update_of_ne other _ _
  refine h.writes mine step child (fun _ _ => rfl) rfl (by rw [pc]; rfl)
    ⟨o, lev, above, splits.frame (h.keeps mine fun _ _ => rfl) rfl,
      ⟨hung.own, hung.pos, hung.patch, ?_⟩, ?_, depth⟩ (waits_pc _ rfl)
  · exact tower_frame hung.tower (fun d hd => ⟨rfl, others d fun same => fresh (same ▸ hd)⟩) rfl rfl
  · rw [BuildMemory.refs_setChild, Function.update_self, bare]
    rfl

theorem Growing.fresh (h : Growing k s T view own) {r : SplittingCL R} {c : ℕ} {x : Vec3 R}
    (bounded : (s.items w).reached ≤ k.MAXDEPTH) (pc : (s.items w).pc = .fresh r c x) :
    Grows k l s w T := by
  have item := h.items w
  simp only [BuildItem.Holds, pc] at item
  obtain ⟨o, lev, above, splits, hung, refs, depth⟩ := item
  have shallow : r.depth ≤ k.MAXDEPTH := by
    rw [BuildItem.reached, pc] at bounded
    exact (le_max_right _ _).trans bounded
  have slot : subIndexCL r.p x = slotAt s.mem.pos c (s.items w).i := by
    rw [slotAt, hung.pos, splits.p]
  have content : (s.mem.child c (subIndexCL r.p x)).ref =
      singleRef (slotAt s.mem.pos c o) (.leaf o) (subIndexCL r.p x) := congrFun refs _
  have pushed : r.patch = some (uppermost above c) := hung.patch
  let r' : SplittingCL R :=
    { r with n := c, j := subIndexCL r.p x, ch := s.mem.child c (subIndexCL r.p x) }
  have splits' : r'.Splits k s.mem.pos T view (s.items w).i o lev :=
    ⟨splits.body, splits.old, splits.other, splits.p, splits.slot, splits.stands, splits.view⟩
  by_cases together : slotAt s.mem.pos c (s.items w).i = slotAt s.mem.pos c o
  · -- both bodies belong to one slot: another cell is needed
    have same : s.mem.child c (subIndexCL r.p x) = .body o := by
      rw [slot, together, singleRef, Function.update_self] at content
      exact ref_eq_leaf (by rw [slot, together]; exact content)
    have step : itemStep k l s.mem (s.items w) = (s.mem, { s.items w with pc := .alloc r' }) := by
      rw [itemStep, pc]
      simp only [same, SlotCL.isNode, shallow, r']
      simp
    refine h.reads step rfl rfl rfl (by rw [pc]; rfl) ⟨o, lev, splits', same, ?_, depth⟩
      (waits_pc _ rfl)
    rw [hung.own]
    exact ⟨rfl, slot.trans together, together, hung.tower, refs, hung.patch⟩
  · have empty : s.mem.child c (subIndexCL r.p x) = .null := by
      rw [slot, singleRef, Function.update_of_ne together] at content
      exact SlotCL.ref_injective (by rw [slot]; exact content)
    have step : itemStep k l s.mem (s.items w) = (s.mem, { s.items w with pc := .place r' }) := by
      rw [itemStep, pc]
      simp only [empty, SlotCL.isNode, r']
      simp
    refine h.reads step rfl rfl rfl (by rw [pc]; rfl) ⟨o, lev, above, splits',
      ⟨hung.own, rfl, hung.patch, hung.tower⟩, slot, ?_, refs, depth⟩ (waits_pc _ rfl)
    show subIndexCL r.p x ≠ _
    rw [slot]
    exact together

theorem Growing.place (h : Growing k s T view own) {r : SplittingCL R}
    (pc : (s.items w).pc = .place r) : Grows k l s w T := by
  have item := h.items w
  simp only [BuildItem.Holds, pc] at item
  obtain ⟨o, lev, above, splits, hung, slot, apart, refs, depth⟩ := item
  have mine : r.n ∈ own w := by rw [hung.own]; exact List.mem_cons_self
  have nodup := h.ownNodup w
  rw [hung.own] at nodup
  obtain ⟨fresh, -⟩ := List.nodup_cons.mp nodup
  let m := s.mem.setChild r.n r.j (.body (s.items w).i)
  have step : itemStep k l s.mem (s.items w) = (m, { s.items w with pc := .publish r }) := by
    rw [itemStep, pc]
  have others : ∀ d, d ≠ r.n → m.refs d = s.mem.refs d := by
    intro d other
    rw [BuildMemory.refs_setChild, Function.update_of_ne other]
  have child : ∀ d, d ≠ r.n → m.child d = s.mem.child d :=
    fun d other => Function.update_of_ne other _ _
  refine h.writes mine step child (fun _ _ => rfl) rfl (by rw [pc]; rfl)
    ⟨o, lev, above, splits.frame (h.keeps mine fun _ _ => rfl) rfl,
      ⟨hung.own, rfl, hung.patch, ?_⟩, slot, apart, ?_, depth⟩ (waits_pc _ rfl)
  · exact tower_frame hung.tower (fun d hd => ⟨rfl, others d fun same => fresh (same ▸ hd)⟩) rfl rfl
  · rw [BuildMemory.refs_setChild, Function.update_self, refs]
    rfl

theorem Growing.stored {m : BuildMemory R} {it : BuildItem R} {view' : ℕ → Fin 8 → Ref ℕ ℕ}
    {own' : ℕ → List ℕ} (step : itemStep k l s.mem (s.items w) = (m, it))
    (next : Growing k ⟨m, Function.update s.items w it⟩ T' view' own')
    (stored : Stored l s.mem m (s.items w) it T T') : Grows k l s w T := by
  refine ⟨T', view', own', ?_, .inr ?_⟩
  · rw [BuildRun.step, step]
    exact next
  · rw [step]
    exact stored

omit [Field R] in
theorem Growing.absent (h : Growing k s T view own) {i n lev : ℕ} {below : Fin 8 → Octree ℕ ℕ}
    (descends : Descends (slotAt s.mem.pos) i T n below lev)
    (other : i ∉ (below (slotAt s.mem.pos n i)).leaves) : i ∉ T.leaves :=
  fun inside => other (descends.mem_leaves h.sorted inside)

theorem Growing.put (h : Growing k s T view own) {a : DescentCL R}
    (pc : (s.items w).pc = .put a) : Grows k l s w T := by
  have item := h.items w
  simp only [BuildItem.Holds, pc] at item
  obtain ⟨none, stands, null⟩ := item
  obtain ⟨lev, below, depth, descends⟩ := stands.stands
  set i := (s.items w).i with hi
  have held : (s.items w).pc.holds = some (a.n, a.j) := by rw [pc]; rfl
  have empty : below (slotAt s.mem.pos a.n i) = .empty := by
    refine entry_eq_null ?_
    rw [← descends.view_eq h.laid, ← stands.j]
    exact null
  let view' := Function.update view a.n (Function.update (view a.n) a.j (.leaf i))
  have view'_self : view' a.n = Function.update (view a.n) a.j (.leaf i) :=
    Function.update_self _ _ _
  have others : ∀ c ∈ T.cells, c ≠ a.n → view' c = view c :=
    fun c _ other => Function.update_of_ne other _ _
  have leafLaid : Laid view' (.leaf i : Octree ℕ ℕ) := trivial
  obtain ⟨U, stores, laid⟩ := descends.fill h.cellsNodup h.laid (stores_empty empty) leafLaid
    (by rw [view'_self, stands.j]; rfl) others
  have fresh : i ∉ T.leaves := h.absent descends (by rw [empty]; exact List.not_mem_nil)
  have step : itemStep k l s.mem (s.items w) =
      (s.mem.setChild a.n a.j (.body i), (s.items w).succeed l a.depth) := by
    rw [itemStep, pc]
  refine Growing.stored step (h.store held stands.body fresh stores laid (by rw [none]) ?_ ?_ ?_ ?_
    rfl rfl) ⟨?_, ⟨lev + 0, stores.deepest rfl, ?_⟩, rfl, rfl, fun consistent => ⟨rfl, ?_⟩⟩
  · rw [view'_self, Function.update_self]
    rfl
  · intro d cell
    rw [null] at cell
    cases cell
  · intro c hc b apart
    by_cases here : c = a.n
    · subst here
      have slot : b ≠ a.j := fun same => apart (by rw [same])
      rw [view'_self, Function.update_of_ne slot]
    · rw [others c hc here]
  · intro c hc
    rw [none] at hc
    cases hc
  · exact stores.leaves
  · rw [BuildItem.succeed, depth]
  · simp [BuildItem.succeed, consistent]

theorem Growing.publish (h : Growing k s T view own) {r : SplittingCL R}
    (pc : (s.items w).pc = .publish r) : Grows k l s w T := by
  have item := h.items w
  simp only [BuildItem.Holds, pc] at item
  obtain ⟨o, lev, above, splits, hung, slot, apart, refs, depth⟩ := item
  obtain ⟨below, descends⟩ := splits.stands
  set i := (s.items w).i with hi
  have held : (s.items w).pc.holds = some (r.locked.1, r.locked.2) := by rw [pc]; rfl
  have leaf : below (slotAt s.mem.pos r.locked.1 i) = .leaf o := by
    refine entry_eq_leaf ?_
    rw [← descends.view_eq h.laid, ← splits.slot]
    exact splits.view
  -- the last cell parts the two bodies, and the others stand above it
  have apart' : slotAt s.mem.pos r.n i ≠ slotAt s.mem.pos r.n o := by rwa [← slot]
  have free : Function.update (fun _ => (.empty : Octree ℕ ℕ)) (slotAt s.mem.pos r.n o) (.leaf o)
      (slotAt s.mem.pos r.n i) = .empty := Function.update_of_ne apart' _ _
  obtain ⟨V, new, tower, laidV, perm⟩ := hung.tower.stores (stores_empty free)
    (laid_pair (by rw [refs, slot]; rfl))
  obtain ⟨inner, rfl⟩ := tower.root
  have perm : (uppermost above r.n :: new).Perm (own w) := by
    rw [hung.own, ← List.append_nil (r.n :: above)]
    exact perm
  have inV : ∀ c ∈ (Octree.cell (uppermost above r.n) inner).cells, c ∈ own w := by
    intro c hc
    have mem := tower.cells.mem_iff.mp hc
    rw [cells_single, List.mem_append, List.mem_singleton] at mem
    exact perm.mem_iff.mp (List.mem_cons.mpr mem.symm)
  have outside : r.locked.1 ∉ own w := fun mine => h.apart w _ mine descends.mem_cells
  let view' : ℕ → Fin 8 → Ref ℕ ℕ := fun c => if c ∈ own w then s.mem.refs c else
    Function.update view r.locked.1 (Function.update (view r.locked.1) r.locked.2
      (.cell (uppermost above r.n))) c
  have built : ∀ c ∈ own w, view' c = s.mem.refs c := fun c mine => if_pos mine
  have others : ∀ c ∈ T.cells, c ≠ r.locked.1 → view' c = view c := fun c hc other =>
    (if_neg fun mine => h.apart w c mine hc).trans (Function.update_of_ne other _ _)
  have here : view' r.locked.1 = Function.update (view r.locked.1) r.locked.2
      (.cell (uppermost above r.n)) := (if_neg outside).trans (Function.update_self _ _ _)
  have laidV : Laid view' (.cell (uppermost above r.n) inner) :=
    laidV.congr fun c hc => built c (inV c hc)
  obtain ⟨U, stores, laid⟩ := descends.fill h.cellsNodup h.laid (stores_leaf leaf tower) laidV
    (by rw [here, splits.slot]; rfl) others
  have fresh : i ∉ T.leaves := by
    refine h.absent descends ?_
    rw [leaf, Octree.leaves, List.mem_singleton]
    exact splits.other.symm
  have step : itemStep k l s.mem (s.items w) = (s.mem.setChild r.locked.1 r.locked.2
      (.cell (uppermost above r.n)), (s.items w).succeed l r.depth) := by
    rw [itemStep, pc]
    simp only [hung.patch]
    rfl
  refine Growing.stored step (h.store held splits.body fresh stores laid perm ?_ ?_ ?_ built rfl
    rfl) ⟨stores.leaves, ⟨_, stores.deepest rfl, ?_⟩, rfl, rfl, fun consistent => ⟨rfl, ?_⟩⟩
  · rw [here, Function.update_self]
    rfl
  · intro d cell
    rw [splits.view] at cell
    cases cell
  · intro c hc b other
    by_cases same : c = r.locked.1
    · subst same
      have slot : b ≠ r.locked.2 := fun same => other (by rw [same])
      rw [here, Function.update_of_ne slot]
    · rw [others c hc same]
  · rw [BuildItem.succeed, depth, hung.own, List.length_cons]
    show max _ _ = max _ _
    congr 1
    omega
  · simp [BuildItem.succeed, consistent]

theorem Growing.report (h : Growing k s T view own) (pc : (s.items w).pc = .report) :
    Grows k l s w T := by
  have none : own w = [] := by simpa only [BuildItem.Holds, pc] using h.items w
  let m : BuildMemory R := { s.mem with doneCnt :=
    if l.consistent then s.mem.doneCnt else s.mem.doneCnt + (s.items w).successCount }
  have step : itemStep k l s.mem (s.items w) =
      (m, { s.items w with pc := .finish, successCount := 0 }) := by rw [itemStep, pc]
  refine h.reads step rfl rfl rfl (by rw [pc]; rfl) none ⟨rfl, fun _ => rfl, fun consistent => ?_⟩
  show (if l.consistent then _ else _) + 0 = _
  rw [consistent]
  rfl

theorem Growing.finish (h : Growing k s T view own) (pc : (s.items w).pc = .finish) :
    Grows k l s w T := by
  have none : own w = [] := by simpa only [BuildItem.Holds, pc] using h.items w
  let m : BuildMemory R :=
    { s.mem with maxDepth := max s.mem.maxDepth (s.items w).localMaxDepth }
  have step : itemStep k l s.mem (s.items w) = (m, { s.items w with pc := .done }) := by
    rw [itemStep, pc]
  exact h.reads step rfl rfl rfl (by rw [pc]; rfl) none (waits_pc _ rfl)

theorem Growing.step (h : Growing k s T view own) (within : l.maxN k ≤ k.NBODY)
    (deep : T.deepest < k.MAXDEPTH) (bounded : (s.items w).reached ≤ k.MAXDEPTH)
    (room : (s.step k l w).mem.errorCode = false) : Grows k l s w T := by
  cases pc : (s.items w).pc with
  | start => exact h.start pc
  | next => exact h.next within pc
  | look a => exact h.look deep pc
  | enter a c => exact h.enter pc
  | lock a ch => exact h.tryLock pc
  | put a => exact h.put pc
  | alloc r => exact h.alloc room pc
  | size r c => exact h.size pc
  | readCentre r c => exact h.readCentre pc
  | writeCentre r c x => exact h.writeCentre pc
  | link r c x => exact h.link pc
  | old r c x => exact h.old pc
  | fresh r c x => exact h.fresh bounded pc
  | place r => exact h.place pc
  | publish r => exact h.publish pc
  | report => exact h.report pc
  | finish => exact h.finish pc
  | done =>
      have step : itemStep k l s.mem (s.items w) = (s.mem, s.items w) := by rw [itemStep, pc]
      exact h.reads step rfl rfl rfl rfl (h.items w) ⟨rfl, fun _ => rfl, fun _ => rfl⟩

end MilkyWay.NBody
