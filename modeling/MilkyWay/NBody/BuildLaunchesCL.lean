import MilkyWay.NBody.BuildGrowthCL

/-! A launch of the kernel `buildTree`: what a run of the work-items in any order leaves of the
tree in memory, and of the counters that the host reads back. -/

namespace MilkyWay.NBody

open Foundation Foundation.Octree

variable {R : Type} [Field R] [LinearOrder R] {k : BuildArgs} {l : BuildLaunch}
  {m m' : BuildMemory R} {s : BuildRun R} {T T₀ : Octree ℕ ℕ} {view : ℕ → Fin 8 → Ref ℕ ℕ}
  {own : ℕ → List ℕ} {w : ℕ}

/-- A memory that no item is at work on holds the tree. -/
structure Grown (k : BuildArgs) (m : BuildMemory R) (T : Octree ℕ ℕ) : Prop where
  root : ∃ sub, T = .cell k.NNODE sub
  laid : Laid m.refs T
  cellsNodup : T.cells.Nodup
  leavesNodup : T.leaves.Nodup
  sorted : T.Everywhere (Sorts (slotAt m.pos))
  bodies : ∀ b ∈ T.leaves, b < k.NBODY
  bottom : k.NBODY < m.bottom
  cells : ∀ c, m.bottom ≤ c ∧ c ≤ k.NNODE ↔ c ∈ T.cells
  clear : ∀ c, k.NBODY < c → c < m.bottom → m.refs c = fun _ => .null

omit [Field R] in
theorem Grown.start (h : Grown k m T) (l : BuildLaunch) :
    Growing k (l.start m) T m.refs fun _ => [] where
  root := h.root
  laid := h.laid
  cellsNodup := h.cellsNodup
  leavesNodup := h.leavesNodup
  sorted := h.sorted
  bodies := h.bodies
  bottom := h.bottom
  cells c := by
    refine (h.cells c).trans ?_
    simp
  apart := by simp
  owner := by simp
  ownNodup := by simp
  clear := h.clear
  shown c _ j := .inl rfl
  locks w c j held := by cases held
  alone w w' x held := by cases held
  items w := rfl

omit [Field R] in
theorem Growing.grown (h : Growing k s T view own)
    (idle : ∀ w, (s.items w).pc = .done ∨ (s.items w).pc = .start) : Grown k s.mem T := by
  have none : ∀ v, own v = [] := by
    intro v
    have item := h.items v
    rcases idle v with pc | pc <;> simpa only [BuildItem.Holds, pc] using item
  have free : ∀ v x, (s.items v).pc.holds ≠ some x := by
    intro v x held
    rcases idle v with pc | pc <;> rw [pc] at held <;> cases held
  refine ⟨h.root, h.laid.congr fun c hc => ?_, h.cellsNodup, h.leavesNodup, h.sorted, h.bodies,
    h.bottom, fun c => ?_, h.clear⟩
  · funext j
    refine (h.shown c hc j).resolve_right ?_
    rintro ⟨v, held⟩
    exact free v _ held
  · rw [h.cells c]
    simp [none]

/-! ## What a step reports -/

theorem itemStep_reports (it : BuildItem R) :
    m.maxDepth ≤ (itemStep k l m it).1.maxDepth ∧
      it.reached ≤ (itemStep k l m it).2.reached ∧
      ((itemStep k l m it).1.errorCode = false → m.errorCode = false) := by
  have fail : ∀ a, it.pc.splitting = none → it.reached ≤ (it.fail l a).reached := by
    intro a idle
    rw [BuildItem.reached, BuildItem.reached, idle, BuildItem.fail]
    split <;> simp
  have next : ∀ pc : BuildPc R, it.pc.splitting = none →
      it.reached ≤ ({ it with pc } : BuildItem R).reached := by
    intro pc idle
    rw [BuildItem.reached, idle]
    exact (max_le le_rfl (Nat.zero_le _)).trans (le_max_left _ _)
  have on : ∀ (pc : BuildPc R) (r r' : SplittingCL R), it.pc.splitting = some r →
      pc.splitting = some r' → r.depth ≤ r'.depth →
      it.reached ≤ ({ it with pc } : BuildItem R).reached := by
    intro pc r r' before after deeper
    rw [BuildItem.reached, BuildItem.reached, before, after]
    exact max_le_max le_rfl deeper
  rw [itemStep]
  cases pc : it.pc with
  | start => exact ⟨le_rfl, next _ (by rw [pc]; rfl), id⟩
  | next =>
      dsimp only
      split
      · exact ⟨le_rfl, next _ (by rw [pc]; rfl), id⟩
      · exact ⟨le_rfl, next _ (by rw [pc]; rfl), id⟩
  | look a =>
      dsimp only
      split
      · exact ⟨le_rfl, next _ (by rw [pc]; rfl), id⟩
      · split
        · exact ⟨le_rfl, fail a (by rw [pc]; rfl), id⟩
        · exact ⟨le_rfl, next _ (by rw [pc]; rfl), id⟩
  | enter a c => exact ⟨le_rfl, next _ (by rw [pc]; rfl), id⟩
  | lock a ch =>
      dsimp only
      split
      · exact ⟨le_rfl, next _ (by rw [pc]; rfl), id⟩
      · exact ⟨le_rfl, fail a (by rw [pc]; rfl), id⟩
  | put a =>
      refine ⟨le_rfl, ?_, id⟩
      rw [BuildItem.reached, pc]
      exact (max_le (le_max_right _ _) (Nat.zero_le _)).trans (le_max_left _ _)
  | alloc r =>
      refine ⟨le_rfl, on _ r _ (by rw [pc]; rfl) rfl (Nat.le_succ _), fun ok => ?_⟩
      exact (Bool.or_eq_false_iff.mp ok).1
  | size r c => exact ⟨le_rfl, on _ r r (by rw [pc]; rfl) rfl le_rfl, id⟩
  | readCentre r c => exact ⟨le_rfl, on _ r _ (by rw [pc]; rfl) rfl le_rfl, id⟩
  | writeCentre r c x => exact ⟨le_rfl, on _ r r (by rw [pc]; rfl) rfl le_rfl, id⟩
  | link r c x =>
      dsimp only
      split
      · exact ⟨le_rfl, on _ r r (by rw [pc]; rfl) rfl le_rfl, id⟩
      · exact ⟨le_rfl, on _ r r (by rw [pc]; rfl) rfl le_rfl, id⟩
  | old r c x => exact ⟨le_rfl, on _ r r (by rw [pc]; rfl) rfl le_rfl, id⟩
  | fresh r c x =>
      dsimp only
      split
      · exact ⟨le_rfl, on _ r _ (by rw [pc]; rfl) rfl le_rfl, id⟩
      · exact ⟨le_rfl, on _ r _ (by rw [pc]; rfl) rfl le_rfl, id⟩
  | place r => exact ⟨le_rfl, on _ r r (by rw [pc]; rfl) rfl le_rfl, id⟩
  | publish r =>
      refine ⟨le_rfl, ?_, id⟩
      rw [BuildItem.reached, pc]
      exact (max_le (le_max_right _ _) (le_max_left _ _)).trans (le_max_left _ _)
  | report =>
      refine ⟨le_rfl, ?_, id⟩
      rw [BuildItem.reached, pc]
      exact (max_le le_rfl (Nat.zero_le _)).trans (le_max_left _ _)
  | finish => exact ⟨le_max_left _ _, next _ (by rw [pc]; rfl), id⟩
  | done => exact ⟨le_rfl, le_rfl, id⟩

def BuildPc.ended : BuildPc R → Bool
  | .report => true
  | .finish => true
  | .done => true
  | _ => false

theorem itemStep_maxDepth (it : BuildItem R) :
    (itemStep k l m it).1.maxDepth = m.maxDepth ∨
      (itemStep k l m it).1.maxDepth = max m.maxDepth it.localMaxDepth := by
  rw [itemStep]
  cases pc : it.pc with
  | finish => exact .inr rfl
  | next =>
      dsimp only
      split <;> exact .inl rfl
  | look a =>
      dsimp only
      split
      · exact .inl rfl
      · split <;> exact .inl rfl
  | lock a ch =>
      dsimp only
      split <;> exact .inl rfl
  | link r c x =>
      dsimp only
      split <;> exact .inl rfl
  | _ => exact .inl rfl

theorem itemStep_pc (it : BuildItem R) :
    (itemStep k l m it).2.pc ≠ .start ∧
      ((itemStep k l m it).2.pc = .finish → (itemStep k l m it).2.successCount = 0) ∧
      ((itemStep k l m it).2.pc = .done →
        (itemStep k l m it).2.localMaxDepth = it.localMaxDepth ∧
        (itemStep k l m it).2.successCount = it.successCount ∧ (it.pc = .start ∨
          it.pc = .finish ∧ it.localMaxDepth ≤ (itemStep k l m it).1.maxDepth ∨ it.pc = .done)) ∧
      (l.consistent = true → (itemStep k l m it).2.pc.ended = true →
        it.pc.ended = true ∨ l.maxN k ≤ it.i) := by
  have fail : ∀ a, (it.fail l a).pc ≠ .start ∧ (it.fail l a).pc ≠ .finish ∧
      (it.fail l a).pc ≠ .done ∧ (it.fail l a).pc.ended = false := by
    intro a
    rw [BuildItem.fail]
    split <;> simp [BuildPc.ended]
  rw [itemStep]
  cases pc : it.pc with
  | start =>
      cases l.consistent
      · dsimp only
        split <;> simp [BuildPc.ended]
      · simp [BuildPc.ended]
  | next =>
      dsimp only
      split
      · simp [BuildPc.ended]
      · simp_all [BuildPc.ended]
  | look a =>
      dsimp only
      split
      · simp [BuildPc.ended]
      · split
        · simp [fail a]
        · simp [BuildPc.ended]
  | lock a ch =>
      dsimp only
      split
      · split <;> simp [BuildPc.ended]
      · simp [fail a]
  | fresh r c x =>
      dsimp only
      split <;> simp [BuildPc.ended]
  | finish => simp [BuildPc.ended]
  | done => simp [BuildPc.ended, pc]
  | report => simp [BuildPc.ended]
  | _ => simp [BuildPc.ended, BuildItem.succeed]

/-! ## A run of the items -/

/-- What the counters of a launch, which began with the tree `T₀` in `m₀`, have to do with the
tree: the depths reported are levels of it, and each item has stored the bodies it has passed. -/
structure Tracked (k : BuildArgs) (l : BuildLaunch) (m₀ : BuildMemory R) (T₀ : Octree ℕ ℕ)
    (s : BuildRun R) (T : Octree ℕ ℕ) : Prop where
  fromOne : ∀ w, 1 ≤ (s.items w).localMaxDepth
  levels : ∀ w, (s.items w).localMaxDepth ≤ T.deepest + 1
  recorded : m₀.maxDepth ≤ s.mem.maxDepth ∧ s.mem.maxDepth ≤ max m₀.maxDepth (T.deepest + 1)
  deepest : T.deepest = T₀.deepest ∨
    ∃ w < l.items, T.deepest + 1 ≤ (s.items w).localMaxDepth
  deeper : T₀.deepest ≤ T.deepest
  older : ∀ b ∈ T₀.leaves, b ∈ T.leaves
  passed : l.consistent = true → ∀ w, ∃ n, (s.items w).i = l.offset + w + n * l.items ∧
    ∀ j < n, l.offset + w + j * l.items ∈ T.leaves
  through : l.consistent = true → ∀ w, (s.items w).pc.ended = true → l.maxN k ≤ (s.items w).i
  counts : l.consistent = false → T.leaves.length + m₀.doneCnt = T₀.leaves.length +
    (s.mem.doneCnt + ∑ w ∈ Finset.range l.items, (s.items w).successCount)

omit [Field R] [LinearOrder R] in
theorem Tracked.start (k : BuildArgs) (l : BuildLaunch) (m : BuildMemory R) (T : Octree ℕ ℕ) :
    Tracked k l m T (l.start m) T where
  fromOne w := le_rfl
  levels w := Nat.succ_le_succ (Nat.zero_le _)
  recorded := ⟨le_rfl, le_max_left _ _⟩
  deepest := .inl rfl
  deeper := le_rfl
  older b hb := hb
  passed _ w := ⟨0, by simp [BuildLaunch.start], by simp⟩
  through _ w ended := by cases ended
  counts _ := by simp [BuildLaunch.start]

omit [Field R] [LinearOrder R] in
theorem sum_update {n w : ℕ} (inside : w < n) (items : ℕ → BuildItem R) (it : BuildItem R) :
    (∑ v ∈ Finset.range n, (Function.update items w it v).successCount) + (items w).successCount =
      (∑ v ∈ Finset.range n, (items v).successCount) + it.successCount := by
  have mem : w ∈ Finset.range n := Finset.mem_range.mpr inside
  rw [← Finset.add_sum_erase _ _ mem, ← Finset.add_sum_erase (Finset.range n)
    (fun v => (items v).successCount) mem, Function.update_self]
  have rest : ∑ v ∈ (Finset.range n).erase w, (Function.update items w it v).successCount =
      ∑ v ∈ (Finset.range n).erase w, (items v).successCount := by
    refine Finset.sum_congr rfl fun v hv => ?_
    rw [Function.update_of_ne (Finset.ne_of_mem_erase hv)]
  rw [rest]
  omega

theorem Tracked.step {m₀ : BuildMemory R} (h : Tracked k l m₀ T₀ s T) (inside : w < l.items)
    {it : BuildItem R} (step : itemStep k l s.mem (s.items w) = (m, it))
    (grown : T' = T ∧ Waits l s.mem m (s.items w) it ∨ Stored l s.mem m (s.items w) it T T') :
    Tracked k l m₀ T₀ ⟨m, Function.update s.items w it⟩ T' := by
  have deeper : T.deepest ≤ T'.deepest := by
    rcases grown with ⟨rfl, -⟩ | stored
    · exact le_rfl
    · obtain ⟨lev, deepest, -⟩ := stored.depth
      rw [deepest]
      exact le_max_left _ _
  have more : ∀ b ∈ T.leaves, b ∈ T'.leaves := by
    rcases grown with ⟨rfl, -⟩ | stored
    · exact fun b hb => hb
    · exact fun b hb => stored.leaves.mem_iff.mpr (List.mem_cons_of_mem _ hb)
  have raised : (s.items w).localMaxDepth ≤ it.localMaxDepth ∧
      it.localMaxDepth ≤ T'.deepest + 1 := by
    have before := h.levels w
    rcases grown with ⟨rfl, waits⟩ | stored
    · rw [waits.depth]
      exact ⟨le_rfl, before⟩
    · obtain ⟨lev, deepest, depth⟩ := stored.depth
      rw [depth, deepest]
      omega
  obtain ⟨-, -, -, ended⟩ := itemStep_pc (k := k) (l := l) (m := s.mem) (s.items w)
  have reports := itemStep_maxDepth (k := k) (l := l) (m := s.mem) (s.items w)
  rw [step] at ended reports
  dsimp only at ended reports
  have memory : s.mem.maxDepth ≤ m.maxDepth ∧
      m.maxDepth ≤ max s.mem.maxDepth (s.items w).localMaxDepth := by omega
  refine ⟨?_, ?_, ⟨h.recorded.1.trans memory.1, ?_⟩, ?_, h.deeper.trans deeper,
    fun b hb => more b (h.older b hb), ?_, ?_, ?_⟩
  · exact forall_items (P := fun _ it => 1 ≤ it.localMaxDepth) ((h.fromOne w).trans raised.1)
      fun v _ => h.fromOne v
  · exact forall_items (P := fun _ it => it.localMaxDepth ≤ T'.deepest + 1) raised.2
      fun v _ => (h.levels v).trans (Nat.succ_le_succ deeper)
  · have level := h.levels w
    have bound := h.recorded.2
    show m.maxDepth ≤ _
    omega
  · have raises : ∀ v d, d ≤ (s.items v).localMaxDepth →
        d ≤ (Function.update s.items w it v).localMaxDepth := by
      refine forall_items (P := fun v it => ∀ d, d ≤ (s.items v).localMaxDepth →
        d ≤ it.localMaxDepth) (fun d le => le.trans raised.1) fun v _ d le => le
    rcases grown with ⟨rfl, waits⟩ | stored
    · exact h.deepest.imp_right fun ⟨v, small, reached⟩ => ⟨v, small, raises v _ reached⟩
    · obtain ⟨lev, deepest, depth⟩ := stored.depth
      rcases Nat.le_total lev T.deepest with low | high
      · rw [deepest, max_eq_left low]
        exact h.deepest.imp_right fun ⟨v, small, reached⟩ => ⟨v, small, raises v _ reached⟩
      · refine .inr ⟨w, inside, ?_⟩
        show _ ≤ (Function.update s.items w it w).localMaxDepth
        rw [Function.update_self, deepest, depth]
        omega
  · intro consistent
    refine forall_items (P := fun v it => ∃ n, it.i = l.offset + v + n * l.items ∧
      ∀ j < n, l.offset + v + j * l.items ∈ T'.leaves) ?_ fun v _ => ?_
    · obtain ⟨n, place, passed⟩ := h.passed consistent w
      rcases grown with ⟨rfl, waits⟩ | stored
      · exact ⟨n, (waits.body consistent).trans place, passed⟩
      · refine ⟨n + 1, ?_, fun j lt => ?_⟩
        · rw [stored.body, place]
          ring
        · rcases Nat.lt_succ_iff_lt_or_eq.mp lt with lt | rfl
          · exact more _ (passed j lt)
          · rw [← place]
            exact stored.leaves.mem_iff.mpr List.mem_cons_self
    · obtain ⟨n, place, passed⟩ := h.passed consistent v
      exact ⟨n, place, fun j lt => more _ (passed j lt)⟩
  · intro consistent
    refine forall_items (P := fun v it => it.pc.ended = true → l.maxN k ≤ it.i) (fun through => ?_)
      fun v _ => h.through consistent v
    rcases grown with ⟨rfl, waits⟩ | stored
    · rw [waits.body consistent]
      exact (ended consistent through).elim (h.through consistent w) id
    · rw [stored.pc] at through
      cases through
  · intro consistent
    have sum := sum_update inside s.items it
    have counts := h.counts consistent
    rcases grown with ⟨rfl, waits⟩ | stored
    · have count := waits.count consistent
      show _ = _ + (m.doneCnt +
        ∑ v ∈ Finset.range l.items, (Function.update s.items w it v).successCount)
      omega
    · obtain ⟨count, success⟩ := stored.count consistent
      have length := stored.leaves.length_eq
      rw [List.length_cons] at length
      show _ = _ + (m.doneCnt +
        ∑ v ∈ Finset.range l.items, (Function.update s.items w it v).successCount)
      omega

/-! ## A launch -/

/-- No cell was missing, and no depth above the bound was reported. -/
def BuildRun.Fits (k : BuildArgs) (s : BuildRun R) : Prop :=
  s.mem.errorCode = false ∧ s.mem.maxDepth ≤ k.MAXDEPTH ∧
    ∀ w, (s.items w).reached ≤ k.MAXDEPTH

theorem BuildRun.Fits.before (fits : (s.step k l w).Fits k) : s.Fits k := by
  obtain ⟨memory, item, error⟩ := itemStep_reports (k := k) (l := l) (m := s.mem) (s.items w)
  refine ⟨error fits.1, memory.trans fits.2.1, fun v => ?_⟩
  have after := fits.2.2 v
  by_cases mine : v = w
  · subst mine
    have here : (s.step k l v).items v = (itemStep k l s.mem (s.items v)).2 :=
      Function.update_self _ _ _
    rw [here] at after
    exact item.trans after
  · have other : (s.step k l w).items v = s.items v := Function.update_of_ne mine _ _
    rwa [other] at after

/-- Between two steps of a launch that fits, a tree is being built and the counters say how far
it is. -/
def Underway (k : BuildArgs) (l : BuildLaunch) (m₀ : BuildMemory R) (T₀ : Octree ℕ ℕ)
    (s : BuildRun R) : Prop :=
  ∃ T view own, Growing k s T view own ∧ Tracked k l m₀ T₀ s T

theorem Underway.step {m₀ : BuildMemory R} (h : Underway k l m₀ T₀ s) (inside : w < l.items)
    (within : l.maxN k ≤ k.NBODY)
    (start : T₀.deepest = 0 ∨ T₀.deepest + 1 ≤ m₀.maxDepth) (fits : (s.step k l w).Fits k) :
    Underway k l m₀ T₀ (s.step k l w) := by
  obtain ⟨T, view, own, growing, tracked⟩ := h
  obtain ⟨-, memory, items⟩ := fits.before
  have reached : ∀ v, (s.items v).localMaxDepth ≤ k.MAXDEPTH :=
    fun v => (le_max_left _ _).trans (items v)
  have deep : T.deepest < k.MAXDEPTH := by
    have one := (tracked.fromOne w).trans (reached w)
    have kept := tracked.recorded.1
    rcases tracked.deepest with same | ⟨v, -, deepest⟩
    · omega
    · exact deepest.trans (reached v)
  obtain ⟨T', view', own', growing', grown⟩ := growing.step within deep (items w) fits.1
  exact ⟨T', view', own', growing', tracked.step inside rfl grown⟩

theorem Underway.run {m₀ : BuildMemory R} (order : List (Fin l.items))
    (h : Underway k l m₀ T₀ s) (within : l.maxN k ≤ k.NBODY)
    (start : T₀.deepest = 0 ∨ T₀.deepest + 1 ≤ m₀.maxDepth)
    (fits : (s.steps k l order).Fits k) : Underway k l m₀ T₀ (s.steps k l order) := by
  have before : ∀ (order : List (Fin l.items)) (s : BuildRun R),
      (s.steps k l order).Fits k → s.Fits k := by
    intro order
    induction order with
    | nil => exact fun s fits => fits
    | cons w order ih => exact fun s fits => (ih _ fits).before
  induction order generalizing s with
  | nil => exact h
  | cons w order ih => exact ih (h.step w.isLt within start (before order _ fits)) fits

structure Reporting (s : BuildRun R) : Prop where
  starts : ∀ w, (s.items w).pc = .start →
    (s.items w).localMaxDepth = 1 ∧ (s.items w).successCount = 0
  counted : ∀ w, (s.items w).pc = .finish → (s.items w).successCount = 0
  ends : ∀ w, (s.items w).pc = .done → ((s.items w).localMaxDepth ≤ s.mem.maxDepth ∨
    (s.items w).localMaxDepth = 1) ∧ (s.items w).successCount = 0

theorem Reporting.step (h : Reporting s) (k : BuildArgs) (l : BuildLaunch) (w : ℕ) :
    Reporting (s.step k l w) := by
  obtain ⟨notStart, counted, ends, -⟩ := itemStep_pc (k := k) (l := l) (m := s.mem) (s.items w)
  have memory := (itemStep_reports (k := k) (l := l) (m := s.mem) (s.items w)).1
  refine ⟨?_, ?_, ?_⟩
  · exact forall_items (P := fun _ it => it.pc = .start →
      it.localMaxDepth = 1 ∧ it.successCount = 0) (fun pc => absurd pc notStart)
      fun v _ => h.starts v
  · exact forall_items (P := fun _ it => it.pc = .finish → it.successCount = 0) counted
      fun v _ => h.counted v
  · refine forall_items (P := fun _ it => it.pc = .done →
      (it.localMaxDepth ≤ (s.step k l w).mem.maxDepth ∨ it.localMaxDepth = 1) ∧
        it.successCount = 0) (fun pc => ?_)
      fun v _ pc => (h.ends v pc).imp_left fun le => le.imp_left fun le => le.trans memory
    obtain ⟨depth, count, before⟩ := ends pc
    rw [depth, count]
    rcases before with started | ⟨last, reported⟩ | ended
    · obtain ⟨one, zero⟩ := h.starts w started
      exact ⟨.inr one, zero⟩
    · exact ⟨.inl reported, h.counted w last⟩
    · obtain ⟨le, zero⟩ := h.ends w ended
      exact ⟨le.imp_left fun le => le.trans memory, zero⟩

theorem Reporting.run (order : List (Fin l.items)) (h : Reporting s) :
    Reporting (s.steps k l order) := by
  induction order generalizing s with
  | nil => exact h
  | cons w order ih => exact ih (h.step k l w)

theorem run_idle (order : List (Fin l.items)) (idle : ∀ w, l.items ≤ w → (s.items w).pc = .start)
    (w : ℕ) (out : l.items ≤ w) :
    ((s.steps k l order).items w).pc = .start := by
  induction order generalizing s with
  | nil => exact idle w out
  | cons v order ih =>
      refine ih fun u out => ?_
      have other : u ≠ v := by omega
      have same : (s.step k l v).items u = s.items u := Function.update_of_ne other _ _
      rw [same]
      exact idle u out

structure Launched (k : BuildArgs) (l : BuildLaunch) (m m' : BuildMemory R) (T₀ T : Octree ℕ ℕ) :
    Prop where
  grown : Grown k m' T
  deepest : T.deepest = 0 ∨ T.deepest + 1 ≤ m'.maxDepth
  recorded : m.maxDepth ≤ m'.maxDepth ∧ m'.maxDepth ≤ max m.maxDepth (T.deepest + 1)
  deeper : T₀.deepest ≤ T.deepest
  older : ∀ b ∈ T₀.leaves, b ∈ T.leaves
  stored : l.consistent = true → 0 < l.items →
    ∀ b, l.offset ≤ b → b < l.maxN k → b ∈ T.leaves
  counts : l.consistent = false →
    T.leaves.length + m.doneCnt = T₀.leaves.length + m'.doneCnt

theorem BuildLaunch.launched (l : BuildLaunch) (h : Grown k m T₀)
    (start : T₀.deepest = 0 ∨ T₀.deepest + 1 ≤ m.maxDepth) (within : l.maxN k ≤ k.NBODY)
    (shallow : 0 < k.MAXDEPTH) (order : List (Fin l.items))
    (done : ∀ w : Fin l.items, ((l.run k m order).items w).pc = .done)
    (error : (l.run k m order).mem.errorCode = false)
    (bound : (l.run k m order).mem.maxDepth ≤ k.MAXDEPTH) :
    ∃ T, Launched k l m (l.run k m order).mem T₀ T := by
  have reporting : Reporting (l.run k m order) :=
    Reporting.run order
      ⟨fun w _ => ⟨rfl, rfl⟩, (fun w pc => by cases pc), (fun w pc => by cases pc)⟩
  have idle : ∀ w, ((l.run k m order).items w).pc = .done ∨
      ((l.run k m order).items w).pc = .start := by
    intro w
    rcases lt_or_ge w l.items with inside | out
    · exact .inl (done ⟨w, inside⟩)
    · exact .inr (run_idle order (fun _ _ => rfl) w out)
  have reported : ∀ w, ((l.run k m order).items w).localMaxDepth ≤
      (l.run k m order).mem.maxDepth ∨ ((l.run k m order).items w).localMaxDepth = 1 := fun w =>
    (idle w).elim (fun ended => (reporting.ends w ended).1)
      fun started => .inr (reporting.starts w started).1
  have fits : (l.run k m order).Fits k := by
    refine ⟨error, bound, fun w => ?_⟩
    have still : ((l.run k m order).items w).pc.splitting = none := by
      rcases idle w with pc | pc <;> rw [pc] <;> rfl
    rw [BuildItem.reached, still]
    refine max_le ?_ (Nat.zero_le _)
    rcases reported w with le | one
    · exact le.trans bound
    · omega
  have built : Underway k l m T₀ (l.run k m order) :=
    Underway.run order ⟨T₀, m.refs, _, h.start l, Tracked.start k l m T₀⟩ within start fits
  obtain ⟨T, view, own, growing, tracked⟩ := built
  refine ⟨T, growing.grown idle, ?_, tracked.recorded, tracked.deeper, tracked.older, ?_,
    ?_⟩
  · have kept := tracked.recorded.1
    rcases tracked.deepest with same | ⟨w, -, deepest⟩
    · rw [same]
      exact start.imp_right fun le => le.trans kept
    · rcases reported w with le | one
      · exact .inr (deepest.trans le)
      · exact .inl (by omega)
  · intro consistent some b after before
    -- the item whose turn the body is
    have lt := Nat.mod_lt (b - l.offset) some
    have divided := Nat.mod_add_div' (b - l.offset) l.items
    generalize (b - l.offset) % l.items = w at lt divided
    obtain ⟨n, place, passed⟩ := tracked.passed consistent w
    have pc : ((l.run k m order).items w).pc = .done := done ⟨w, lt⟩
    have through := tracked.through consistent w (by rw [pc]; rfl)
    have here : l.offset + w + (b - l.offset) / l.items * l.items = b := by omega
    rw [← here]
    refine passed _ ?_
    by_contra beyond
    have le := Nat.mul_le_mul_right l.items (not_lt.mp beyond)
    omega
  · intro consistent
    have counts := tracked.counts consistent
    have none : ∑ w ∈ Finset.range l.items, ((l.run k m order).items w).successCount = 0 := by
      refine Finset.sum_eq_zero fun w hw => ?_
      exact (reporting.ends w (done ⟨w, Finset.mem_range.mp hw⟩)).2
    rwa [none, Nat.add_zero] at counts

end MilkyWay.NBody
