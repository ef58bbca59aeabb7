import MilkyWay.NBody.HostBuildCL
import MilkyWay.NBody.SummationStepsCL

/-! The launches of `summarization`: in whatever order the items take their steps, in the end every
cell holds the mass, the centre of mass and the number of the bodies below it. -/

namespace MilkyWay.NBody

open Foundation Foundation.Octree

variable {R : Type} [Field R] [LinearOrder R]

/-! ## The launches -/

/-- How often the host launches a pass over the cells. -/
def PassLaunch.times (l : PassLaunch) (maxDepth : ℕ) : ℕ := if l.consistent then 1 else maxDepth

/-- The cells that `summarizationClear` clears, for all its items. -/
def PassLaunch.cleared (l : PassLaunch) (inc bottom : ℕ) : List ℕ :=
  (List.range inc).flatMap (alignedIndices l.WARPSIZE inc bottom l.NNODE)

def NodeCL.clear (ctx : NBodyCtx R) (r : NodeCL R) : NodeCL R :=
  { r with
    mass := -1
    start := -1
    quadXX := if ctx.useQuad then none else r.quadXX }

def summarizationClear (ctx : NBodyCtx R) (m : TreeMemory R) (writes : List ℕ) : TreeMemory R :=
  writes.foldl (fun m k => m.setNode k ((m.nodes k).clear ctx)) m

/-- The launches of `summarization`, with an order for each. -/
def summarizationLaunches (B : Build R) (ctx : NBodyCtx R) (l : PassLaunch)
    (orders : List (List (Fin l.items))) (m : TreeMemory R) : Option (TreeMemory R) :=
  orders.foldlM (summarization B ctx l) m

/-! ## The cleared cells -/

omit [LinearOrder R] in
theorem summarizationClear_eq (ctx : NBodyCtx R) (m : TreeMemory R) (writes : List ℕ) :
    ∃ nodes, summarizationClear ctx m writes = { m with nodes } ∧
      ∀ n, nodes n = if n ∈ writes then (m.nodes n).clear ctx else m.nodes n := by
  induction writes generalizing m with
  | nil => exact ⟨m.nodes, rfl, fun n => (if_neg List.not_mem_nil).symm⟩
  | cons k writes ih =>
      obtain ⟨nodes, same, each⟩ := ih (m.setNode k ((m.nodes k).clear ctx))
      refine ⟨nodes, same, fun n => ?_⟩
      rw [each n, TreeMemory.setNode]
      dsimp only
      by_cases here : n = k
      · subst here
        rw [Function.update_self, if_pos List.mem_cons_self]
        split
        · simp only [NodeCL.clear]
          split <;> rfl
        · rfl
      · rw [Function.update_of_ne here]
        simp only [List.mem_cons, here, false_or]

theorem mem_cleared {l : PassLaunch} {inc bottom n : ℕ} (warp : 0 < l.WARPSIZE)
    (le : l.WARPSIZE ≤ inc) : n ∈ l.cleared inc bottom ↔ bottom ≤ n ∧ n < l.NNODE := by
  have items : 0 < inc := lt_of_lt_of_le warp le
  rw [PassLaunch.cleared, List.mem_flatMap]
  constructor
  · rintro ⟨w, -, mem⟩
    obtain ⟨upper, t, here⟩ := (mem_strided items (Nat.le_add_left _ _)).mp mem
    have first : bottom ≤ alignedStart l.WARPSIZE inc bottom w := le_alignedStart warp le
    exact ⟨by omega, upper⟩
  · rintro ⟨lower, upper⟩
    obtain ⟨w, lt, mem⟩ := mem_alignedIndices items lower upper
    exact ⟨w, List.mem_range.mpr lt, mem⟩

/-! ## One launch -/

namespace SumPass

variable {P : SumPass R} {B : Build R} {ctx : NBodyCtx R} {m m' : TreeMemory R}

omit [Field R] [LinearOrder R] in
theorem isDone_eq {pc : SumPc R} (h : pc.isDone = true) : pc = .done := by
  cases pc <;> first | rfl | cases h

theorem summarization_behind (ready : P.Ready) (all : P.Kept B ctx m)
    (ahead : ∀ c ∈ P.T.cells, P.Ahead c (m.nodes c)) {order : List (Fin P.l.items)}
    (run : summarization B ctx P.l m order = some m') :
    P.Kept B ctx m' ∧ ∀ c ∈ P.T.cells, P.Behind c (m'.nodes c) := by
  rw [summarization, Option.ite_none_right_eq_some, Option.some.injEq] at run
  obtain ⟨done, rfl⟩ := run
  have items : 0 < P.l.items := lt_of_lt_of_le ready.warp ready.items
  have first : ∀ w < P.l.items, P.Passing B ctx w m ((sumStart P.l m).workers w) := by
    intro w hw
    have place : ((sumStart P.l m).workers w).k = P.l.first P.bottom w := by
      rw [← all.status.2]
      rfl
    refine Course.Passing.start place (.inl rfl)
      (fun n mine => ahead n (mine_mem ready.device mine)) fun le => .inl ⟨rfl, ahead _ ?_⟩
    exact (ready.device.cells _).mp
      ⟨(le_alignedStart ready.warp ready.items).trans_eq place.symm, le⟩
  have through : ∀ w < P.l.items, ∀ m' r, ¬ (P.course B ctx).Holds m' r
      (((sumStart P.l m).steps (sumStep B ctx P.l) order).workers w) := by
    intro w hw m' r holds
    have ended := isDone_eq (done ⟨w, hw⟩)
    dsimp only at holds
    rw [Holds, ended] at holds
    exact holds
  obtain ⟨kept, behind⟩ := (P.course B ctx).steps_behind P.range items
    (fun w hw m m' it leaves passing => Passing.stable ready hw passing leaves)
    (fun w hw m it all passing => Passing.step passing all ready hw) ⟨all, first⟩ through
  refine ⟨kept, fun c hc => ?_⟩
  obtain ⟨lower, upper⟩ := (ready.device.cells c).mpr hc
  exact behind c lower upper

/-! ## All launches -/

def since (P : SumPass R) (m : TreeMemory R) : SumPass R :=
  { P with before := fun c => 0 ≤ (m.nodes c).mass }

theorem Ready.since (ready : P.Ready) (m : TreeMemory R) : (P.since m).Ready :=
  ⟨ready.device, ready.warp, ready.items, ready.masses, ready.heavy⟩

structure Between (P : SumPass R) (B : Build R) (ctx : NBodyCtx R) (m : TreeMemory R) : Prop where
  kept : (P.since m).Kept B ctx m
  ahead : ∀ c ∈ P.T.cells, P.Ahead c (m.nodes c)

theorem Between.once (h : P.Between B ctx m) (ready : P.Ready) (mode : P.l.consistent = true)
    {order : List (Fin P.l.items)} (run : summarization B ctx P.l m order = some m') :
    (P.since m').Kept B ctx m' ∧ ∀ c ∈ P.T.cells, 0 ≤ (m'.nodes c).mass := by
  obtain ⟨kept, behind⟩ := summarization_behind (ready.since m) h.kept h.ahead run
  refine ⟨⟨kept.cells, kept.bodies, kept.status, fun _ _ => id⟩, fun c hc => ?_⟩
  refine (behind c hc).resolve_right fun given => ?_
  have again : P.l.consistent = false := given.1
  rw [mode] at again
  cases again

theorem Between.repeated (h : P.Between B ctx m) (ready : P.Ready)
    (mode : P.l.consistent = false) {order : List (Fin P.l.items)}
    (run : summarization B ctx P.l m order = some m') {n : ℕ}
    (levels : Levels P.T (fun c => 0 ≤ (m.nodes c).mass) n) :
    P.Between B ctx m' ∧ Levels P.T (fun c => 0 ≤ (m'.nodes c).mass) (n + 1) := by
  obtain ⟨kept, behind⟩ := summarization_behind (ready.since m) h.kept h.ahead run
  refine ⟨⟨⟨kept.cells, kept.bodies, kept.status, fun _ _ => id⟩, fun c hc => ?_⟩, ?_⟩
  · exact (behind c hc).elim (fun done => .inr ⟨mode, done⟩) fun given => .inl given.2.1
  · refine levels.succ fun c sub within below => (behind c within.mem).resolve_right ?_
    rintro ⟨-, -, d, child, later⟩
    obtain ⟨i, inner, cell⟩ := ready.device.below within child
    exact later (below i d inner cell)

theorem Between.launches (h : P.Between B ctx m) (ready : P.Ready) (mode : P.l.consistent = false)
    {orders : List (List (Fin P.l.items))}
    (run : summarizationLaunches B ctx P.l orders m = some m') {n : ℕ}
    (levels : Levels P.T (fun c => 0 ≤ (m.nodes c).mass) n)
    (deep : P.T.deepest < n + orders.length) :
    (P.since m').Kept B ctx m' ∧ ∀ c ∈ P.T.cells, 0 ≤ (m'.nodes c).mass := by
  induction orders generalizing m n with
  | nil =>
      rw [summarizationLaunches, List.foldlM_nil, Option.pure_def, Option.some.injEq] at run
      subst run
      exact ⟨h.kept, fun c hc => levels.all deep hc⟩
  | cons order orders ih =>
      rw [summarizationLaunches, List.foldlM_cons] at run
      obtain ⟨m₁, launch, rest⟩ := Option.bind_eq_some_iff.mp run
      rw [List.length_cons] at deep
      obtain ⟨between, one⟩ := h.repeated ready mode launch levels
      exact ih between rest one (by omega)

theorem Between.ready (h : P.Between B ctx m) (ready : P.Ready)
    {orders : List (List (Fin P.l.items))} (times : orders.length = P.l.times m.maxDepth)
    (deep : P.l.consistent = false → P.T.deepest < m.maxDepth)
    (run : summarizationLaunches B ctx P.l orders m = some m') :
    (P.since m').Kept B ctx m' ∧ ∀ c ∈ P.T.cells, 0 ≤ (m'.nodes c).mass := by
  cases mode : P.l.consistent with
  | true =>
      rw [PassLaunch.times, mode, if_pos rfl] at times
      obtain ⟨order, rfl⟩ := List.length_eq_one_iff.mp times
      rw [summarizationLaunches, List.foldlM_cons] at run
      obtain ⟨m₁, launch, rest⟩ := Option.bind_eq_some_iff.mp run
      rw [List.foldlM_nil, Option.pure_def, Option.some.injEq] at rest
      subst rest
      exact h.once ready mode launch
  | false =>
      refine h.launches ready mode run (Levels.zero _ _) ?_
      rw [times, PassLaunch.times, mode, Nat.zero_add]
      exact deep mode

end SumPass

/-! ## The host -/

/-- What `summarization` is launched on: a tree in the arrays, with masses to add up. -/
structure Summable (l : PassLaunch) (T : Octree ℕ ℕ) (m : TreeMemory R) : Prop where
  device : OnDevice l m.bottom (fun c => (m.nodes c).child) T
  warp : 0 < l.WARPSIZE
  items : l.WARPSIZE ≤ l.items
  root : (m.nodes l.NNODE).mass < 0
  masses : ∀ b ∈ T.leaves, 0 ≤ (m.nodes b).mass
  heavy : ∀ c ∈ T.cells, 0 < ((T.under c).map fun b => (m.nodes b).mass).sum

/-- The pass over all cells, none of which is ready. -/
def SumPass.whole (l : PassLaunch) (T : Octree ℕ ℕ) (m : TreeMemory R) : SumPass R :=
  ⟨l, m.bottom, m.radius, m.nodes, T, fun _ => False⟩

theorem Summable.ready {l : PassLaunch} {T : Octree ℕ ℕ} {m : TreeMemory R}
    (h : Summable l T m) : (SumPass.whole l T m).Ready :=
  ⟨h.device, h.warp, h.items, h.masses, h.heavy⟩

theorem Summable.between [IsStrictOrderedRing R] {l : PassLaunch} {T : Octree ℕ ℕ}
    {m : TreeMemory R} (h : Summable l T m) (B : Build R) (ctx : NBodyCtx R) {inc : ℕ}
    (clears : l.WARPSIZE ≤ inc) {writes : List ℕ}
    (cleared : writes.Perm (l.cleared inc m.bottom)) :
    (SumPass.whole l T m).Between B ctx (summarizationClear ctx m writes) := by
  obtain ⟨nodes, same, each⟩ := summarizationClear_eq ctx m writes
  rw [same]
  have mem : ∀ n, n ∈ writes ↔ m.bottom ≤ n ∧ n < l.NNODE := fun n =>
    cleared.mem_iff.trans (mem_cleared h.warp clears)
  have fresh : ∀ c ∈ T.cells, Unsummed m.nodes c (nodes c) := by
    intro c hc
    obtain ⟨lower, upper⟩ := (h.device.cells c).mpr hc
    rw [each c]
    split
    · exact ⟨neg_one_lt_zero, rfl, h.device.clean hc, rfl, rfl⟩
    · next kept =>
        have here : c = l.NNODE := by
          rw [mem c] at kept
          omega
        exact ⟨by rw [here]; exact h.root, rfl, h.device.clean hc, rfl, rfl⟩
  have bodies : ∀ b ∈ T.leaves, nodes b = m.nodes b := by
    intro b hb
    have small := h.device.bodies b hb
    have above := h.device.above
    rw [each b, if_neg fun written => ?_]
    have lower := ((mem b).mp written).1
    omega
  have unready : ∀ c ∈ T.cells, ¬ 0 ≤ (nodes c).mass := fun c hc =>
    not_le.mpr (fresh c hc).mass
  exact ⟨⟨fun c hc done => absurd done (unready c hc), bodies, ⟨rfl, rfl⟩, fun _ _ => id⟩,
    fun c hc => .inl (fresh c hc)⟩

/-- Whatever the order in which the work-items take their steps, after the launches each cell of
the tree holds the mass of the bodies below it, their centre of mass and their number, with its
children in front in their order. The bodies are as they were. -/
theorem summarizationLaunches_totalled [IsStrictOrderedRing R] (B : Build R) (ctx : NBodyCtx R)
    (l : PassLaunch) (inc : ℕ) (T : Octree ℕ ℕ) (m m' : TreeMemory R) (writes : List ℕ)
    (orders : List (List (Fin l.items))) (tree : Summable l T m) (clears : l.WARPSIZE ≤ inc)
    (cleared : writes.Perm (l.cleared inc m.bottom))
    (times : orders.length = l.times m.maxDepth)
    (deep : l.consistent = false → T.deepest < m.maxDepth)
    (run : summarizationLaunches B ctx l orders (summarizationClear ctx m writes) = some m') :
    (∀ c ∈ T.cells, Totalled B ctx m.radius m.nodes T c (m'.nodes c)) ∧
      ∀ b ∈ T.leaves, m'.nodes b = m.nodes b := by
  obtain ⟨nodes, same, -⟩ := summarizationClear_eq ctx m writes
  have depth : (summarizationClear ctx m writes).maxDepth = m.maxDepth := by rw [same]
  rw [← depth] at times deep
  obtain ⟨kept, all⟩ := (tree.between B ctx clears cleared).ready tree.ready times deep run
  exact ⟨fun c hc => kept.cells c hc (all c hc), kept.bodies⟩

/-- Two cells with a work-item each: the root waits for the other one. -/
def waitLaunch : PassLaunch := ⟨true, 1, 2, 8, 2, 2⟩

def waitTree : Octree ℕ ℕ :=
  .cell 8 (Function.update (fun _ => .empty) (slotNumber 5)
    (.cell 7 (Function.update (Function.update (fun _ => .empty) (slotNumber 1) (.leaf 1))
      (slotNumber 6) (.leaf 0))))

def waitMemory : TreeMemory ℚ where
  nodes n := {
    child := if n = 8 then Function.update (fun _ => .null) (slotNumber 5) (.cell 7)
      else Function.update (Function.update (fun _ => .null) (slotNumber 1) (.body 1))
        (slotNumber 6) (.body 0)
    pos := ⟨n, 1, 1⟩
    mass := if n = 8 then -1 else n + 1
    critRadius := 4
    count := 0
    start := 0
    quadXX := none
    quadXY := 0
    quadXZ := 0
    quadYY := 0
    quadYZ := 0
    quadZZ := 0 }
  radius := 4
  bottom := 7
  maxDepth := 2
  structureError := false

def waitOrder : List (Fin 2) := (List.replicate 40 (List.finRange 2).reverse).flatten

theorem waitTree_device :
    OnDevice waitLaunch 7 (fun c => (waitMemory.nodes c).child) waitTree := by
  have cells : waitTree.cells = [8, 7] := by decide
  refine ⟨⟨_, rfl⟩, ?_, by rw [cells]; decide, by decide, by decide, fun c => ?_⟩
  · refine ⟨fun i => by fin_cases i <;> rfl, fun i => ?_⟩
    by_cases inner : i = slotNumber 5
    · subst inner
      refine ⟨fun j => by fin_cases j <;> rfl, fun j => ?_⟩
      fin_cases j <;> exact trivial
    · rw [Function.update_of_ne inner]
      exact trivial
  · rw [cells]
    simp [waitLaunch]
    omega

theorem waitTree_summable : Summable waitLaunch waitTree waitMemory :=
  ⟨waitTree_device, by decide, by decide, by decide +kernel, by decide +kernel, by decide +kernel⟩

theorem summarizationLaunches_totalled_wait : ∃ m', summarizationLaunches rowBuild halfCtx waitLaunch
      [waitOrder] (summarizationClear halfCtx waitMemory [7]) = some m' ∧
    (∀ c ∈ waitTree.cells,
      Totalled rowBuild halfCtx 4 waitMemory.nodes waitTree c (m'.nodes c)) ∧
    ∀ b ∈ waitTree.leaves, m'.nodes b = waitMemory.nodes b := by
  have ends : (summarizationLaunches rowBuild halfCtx waitLaunch [waitOrder]
      (summarizationClear halfCtx waitMemory [7])).isSome = true := by decide +kernel
  obtain ⟨m', run⟩ := Option.isSome_iff_exists.mp ends
  exact ⟨m', run, summarizationLaunches_totalled rowBuild halfCtx waitLaunch 1 waitTree waitMemory m'
    [7] [waitOrder] waitTree_summable (by decide) (by decide) rfl (by decide) run⟩

end MilkyWay.NBody
