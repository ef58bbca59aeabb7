import MilkyWay.NBody.SortCL

/-! From the tree in the arrays to the forces: the launches of `summarization`, `sort` and
`forceCalculation` that follow each other in a step. -/

namespace MilkyWay.NBody

open Foundation Foundation.Octree

variable {R : Type}

/-! ## The bodies that the force is calculated for -/

/-- The bodies of an item of `forceCalculation`, in a launch for the chunk `c`. -/
def forceItem (sort : ℕ → ℕ) (global : ℕ) (c : ℕ × ℕ) (w : ℕ) : List ℕ :=
  (strided global c.2 c.2 (c.1 + w)).map sort

/-- The bodies whose accelerations the launches store. -/
def forceLaunches (ignoreResponsive : Bool) (effNBody global : ℕ) (sort : ℕ → ℕ) : List ℕ :=
  (bodyChunks ignoreResponsive effNBody global).flatMap fun c =>
    (List.range global).flatMap (forceItem sort global c)

theorem forceLaunches_perm (ignoreResponsive : Bool) (effNBody : ℕ) {global : ℕ}
    (items : 0 < global) (sort : ℕ → ℕ) :
    (forceLaunches ignoreResponsive effNBody global sort).Perm
      ((List.range effNBody).map sort) := by
  have chunk : ∀ c : ℕ × ℕ, ((List.range global).flatMap (forceItem sort global c)).Perm
      ((List.range' c.1 (c.2 - c.1)).map sort) := by
    intro c
    have indices : ((List.range global).flatMap fun w => strided global c.2 c.2 (c.1 + w)).Perm
        (List.range' c.1 (c.2 - c.1)) := strided_perm items
    have bodies := indices.map sort
    rwa [List.map_flatMap] at bodies
  rw [← flatMap_bodyChunks ignoreResponsive effNBody items, List.map_flatMap]
  exact List.Perm.flatMap_left _ fun c _ => chunk c

/-! ## What `summarization` leaves alone -/

variable [Field R] [LinearOrder R] {B : Build R} {ctx : NBodyCtx R} {l : PassLaunch}
  {m m' : TreeMemory R}

theorem sumStep_start (m : TreeMemory R) (it : SumItem R) (n : ℕ) :
    ((sumStep B ctx l m it).1.nodes n).start = (m.nodes n).start := by
  have kept : ∀ r : NodeCL R, r.start = (m.nodes it.k).start →
      ((m.setNode it.k r).nodes n).start = (m.nodes n).start := by
    intro r same
    show (Function.update m.nodes it.k r n).start = _
    by_cases here : n = it.k
    · rw [here, Function.update_self, same]
    · rw [Function.update_of_ne here]
  cases pc : it.pc <;> rw [sumStep, pc] <;> dsimp only <;> (repeat' split) <;>
    first | rfl | exact kept _ rfl

theorem summarizationLaunches_start {orders : List (List (Fin l.items))}
    (run : summarizationLaunches B ctx l orders m = some m') (n : ℕ) :
    (m'.nodes n).start = (m.nodes n).start := by
  induction orders generalizing m with
  | nil =>
      rw [summarizationLaunches, List.foldlM_nil, Option.pure_def, Option.some.injEq] at run
      rw [run]
  | cons order orders ih =>
      rw [summarizationLaunches, List.foldlM_cons] at run
      obtain ⟨m₁, launch, rest⟩ := Option.bind_eq_some_iff.mp run
      rw [summarization, Option.ite_none_right_eq_some, Option.some.injEq] at launch
      refine (ih rest).trans ?_
      rw [← launch.2]
      exact (Crew.steps_rely (s := sumStart l m) (fun _ _ _ => True)
        (fun m₁ => (m₁.nodes n).start = (m.nodes n).start) (fun _ _ _ => True) (fun _ _ _ => True)
        (fun _ _ _ _ _ => id) (fun _ _ _ _ _ _ _ => trivial)
        (fun w _ m₁ it same _ => ⟨trivial, (sumStep_start m₁ it n).trans same, trivial⟩)
        order ⟨rfl, fun _ _ => trivial⟩).1

/-! ## The step -/

theorem Grown.summable {k : BuildArgs} {b : BuildMemory R} {T : Octree ℕ ℕ} (h : Grown k b T)
    (same : l.NBODY = k.NBODY ∧ l.NNODE = k.NNODE)
    (arrays : m.bottom = b.bottom ∧ ∀ n, (m.nodes n).child = b.child n)
    (warp : 0 < l.WARPSIZE) (items : l.WARPSIZE ≤ l.items) (root : (m.nodes l.NNODE).mass < 0)
    (masses : ∀ i ∈ T.leaves, 0 ≤ (m.nodes i).mass)
    (heavy : ∀ c ∈ T.cells, 0 < ((T.under c).map fun i => (m.nodes i).mass).sum) :
    Summable l T m := by
  refine ⟨⟨?_, ?_, h.cellsNodup, ?_, ?_, fun c => ?_⟩, warp, items, root, masses, heavy⟩
  · rw [same.2]
    exact h.root
  · refine h.laid.congr fun c _ => funext fun i => ?_
    rw [BuildMemory.refs, arrays.2 c]
  · rw [same.1]
    exact h.bodies
  · rw [same.1, arrays.1]
    exact h.bottom
  · rw [same.2, arrays.1]
    exact h.cells c

/-- Whatever the order in which the work-items of the launches take their steps, `_sort` lists the
bodies in the order of the tree, and the launches of `forceCalculation` store the acceleration of
each body once. -/
theorem deviceTree_forces [IsStrictOrderedRing R] (B : Build R) (ctx : NBodyCtx R)
    (l : PassLaunch) (inc sortItems : ℕ) (T : Octree ℕ ℕ) (m m₁ : TreeMemory R)
    (m₂ : SortMemory R) (order : ℕ → ℕ) (writes : List ℕ) (sums : List (List (Fin l.items)))
    (sorts : List (List (Fin sortItems))) (tree : Summable l T m) (clears : l.WARPSIZE ≤ inc)
    (cleared : writes.Perm (l.cleared inc m.bottom)) (items : 0 < sortItems)
    (root : (m.nodes l.NNODE).start = 0) (bodies : T.leaves.Perm (List.range l.NBODY))
    (times : sums.length = l.times m.maxDepth) (depth : sorts.length = m.maxDepth)
    (deep : T.deepest < m.maxDepth)
    (summed : summarizationLaunches B ctx l sums (summarizationClear ctx m writes) = some m₁)
    (sorted : sortLaunches { l with items := sortItems } sorts ⟨m₁, order⟩ = some m₂) :
    (List.range l.NBODY).map m₂.sort = T.leaves ∧
      ∀ ignoreResponsive global, 0 < global →
        (forceLaunches ignoreResponsive l.NBODY global m₂.sort).Perm (List.range l.NBODY) := by
  obtain ⟨nodes, same, each⟩ := summarizationClear_eq ctx m writes
  have recorded : (summarizationClear ctx m writes).maxDepth = m.maxDepth := by rw [same]
  rw [← recorded] at times
  obtain ⟨kept, done⟩ := (tree.between B ctx clears cleared).ready tree.ready times
    (fun _ => by rw [recorded]; exact deep) summed
  have totalled : ∀ c ∈ T.cells, Totalled B ctx m.radius m.nodes T c (m₁.nodes c) :=
    fun c hc => kept.cells c hc (done c hc)
  have start : ∀ n, (m₁.nodes n).start =
      (if n ∈ writes then (m.nodes n).clear ctx else m.nodes n).start := by
    intro n
    rw [summarizationLaunches_start summed n, same, ← each n]
  have written : ∀ n, n ∈ writes ↔ m.bottom ≤ n ∧ n < l.NNODE := fun n =>
    cleared.mem_iff.trans (mem_cleared tree.warp clears)
  have device : OnDevice { l with items := sortItems } m₁.bottom (fun c => (m.nodes c).child) T := by
    have laid := tree.device
    rw [show m₁.bottom = m.bottom from kept.status.2]
    exact ⟨laid.root, laid.laid, laid.cellsNodup, laid.bodies, laid.above, laid.cells⟩
  have places := sortLaunches_leaves { l with items := sortItems } T (fun c => (m.nodes c).child)
    ⟨m₁, order⟩ m₂ sorts device items (fun c hc => (totalled c hc).order)
    (fun c hc => (totalled c hc).clean) (fun c hc => (totalled c hc).count) ?_ ?_
    (bodies.nodup_iff.mpr List.nodup_range) (by rw [depth]; exact deep) sorted
  · rw [bodies.length_eq, List.length_range] at places
    refine ⟨places, fun ignoreResponsive global launched => ?_⟩
    refine (forceLaunches_perm ignoreResponsive l.NBODY launched m₂.sort).trans ?_
    rw [places]
    exact bodies
  · show (m₁.nodes l.NNODE).start = 0
    rw [start, if_neg fun cleared => ?_]
    · exact root
    · have below := ((written _).mp cleared).2
      omega
  · intro c hc ne
    obtain ⟨lower, upper⟩ := (tree.device.cells c).mpr hc
    have ne : c ≠ l.NNODE := ne
    show (m₁.nodes c).start < 0
    rw [start, if_pos ((written c).mpr ⟨lower, by omega⟩)]
    exact neg_one_lt_zero

def waitSorts : List (List (Fin 2)) :=
  List.replicate 2 (List.replicate 20 (List.finRange 2)).flatten

theorem deviceTree_forces_wait : ∃ m₁ m₂,
    summarizationLaunches rowBuild halfCtx waitLaunch [waitOrder]
      (summarizationClear halfCtx waitMemory [7]) = some m₁ ∧
    sortLaunches { waitLaunch with items := 2 } waitSorts ⟨m₁, fun _ => 0⟩ = some m₂ ∧
    (List.range 2).map m₂.sort = waitTree.leaves ∧
    ∀ ignoreResponsive global, 0 < global →
      (forceLaunches ignoreResponsive 2 global m₂.sort).Perm (List.range 2) := by
  have ends : ((summarizationLaunches rowBuild halfCtx waitLaunch [waitOrder]
      (summarizationClear halfCtx waitMemory [7])).bind fun m₁ =>
        sortLaunches { waitLaunch with items := 2 } waitSorts ⟨m₁, fun _ => 0⟩).isSome = true := by
    decide +kernel
  obtain ⟨m₂, run⟩ := Option.isSome_iff_exists.mp ends
  obtain ⟨m₁, summed, sorted⟩ := Option.bind_eq_some_iff.mp run
  exact ⟨m₁, m₂, summed, sorted, deviceTree_forces rowBuild halfCtx waitLaunch 1 2 waitTree
    waitMemory m₁ m₂ (fun _ => 0) [7] [waitOrder] waitSorts waitTree_summable (by decide) (by decide)
    (by decide) rfl (by decide) rfl rfl (by decide) summed sorted⟩

end MilkyWay.NBody
