import MilkyWay.Foundation.Strides
import MilkyWay.Foundation.Subtree
import MilkyWay.NBody.BuildLaunchesCL
import MilkyWay.Separation.RunCL

/-! The construction of the tree as the host runs it: the root of `boundingBox`, the kernel
`buildTreeClear`, and launches of `buildTree` until all bodies are in the tree. -/

namespace MilkyWay.NBody

open Foundation Foundation.Octree Separation

variable {R : Type} [Field R] [LinearOrder R]

/-! ## What the tree starts from -/

def BuildMemory.setRoot (k : BuildArgs) (root : RootCell R) (m : BuildMemory R) : BuildMemory R :=
  { m with
    radius := root.radius
    bottom := k.NNODE
    doneCnt := 0
    critRadii := if k.keepsSize then Function.update m.critRadii k.NNODE root.radius
      else m.critRadii
    pos := Function.update m.pos k.NNODE root.pos
    child := Function.update m.child k.NNODE fun _ => .null }

def alignedIndices (WARPSIZE inc bottom top w : ℕ) : List ℕ :=
  strided inc top top (alignedStart WARPSIZE inc bottom w)

/-- The elements of `_child` that `buildTreeClear` clears, for all its items. -/
def clearIndices (k : BuildArgs) (WARPSIZE inc : ℕ) : List ℕ :=
  (List.range inc).flatMap (alignedIndices WARPSIZE inc (8 * k.NBODY) (8 * k.NNODE))

def buildTreeClear (m : BuildMemory R) (writes : List ℕ) : BuildMemory R :=
  writes.foldl (fun m x => m.setChild (x / 8) (slotNumber x) .null) m

/-! ## The launches -/

/-- How the host launches the kernels. `global` and `clearGlobal` are the global sizes of
`buildTree` and `buildTreeClear`. -/
structure HostBuild where
  usesConsistentMemory : Bool
  ignoreResponsive : Bool
  WARPSIZE : ℕ
  clearGlobal : ℕ
  global : ℕ

def bodyChunks (ignoreResponsive : Bool) (effNBody global : ℕ) : List (ℕ × ℕ) :=
  let nChunk := if ignoreResponsive then 1 else mwDivRoundup effNBody global
  let upperBound := if ignoreResponsive then effNBody else global
  chunkLoop effNBody global nChunk 0 upperBound

def chunkedBuild (k : BuildArgs) (global : ℕ) :
    List (ℕ × ℕ) → List (List (Fin global)) → BuildMemory R → Option (BuildMemory R)
  | [], _, m => some m
  | _ :: _, [], _ => none
  | c :: chunks, order :: orders, m => do
      let m ← BuildLaunch.buildTree k ⟨true, global, c.1, c.2⟩ m order
      chunkedBuild k global chunks orders m

def repeatedBuild (k : BuildArgs) (global : ℕ) :
    List (List (Fin global)) → (Fin 3 → ℕ) → ℕ → BuildMemory R → Option (BuildMemory R)
  | [], _, _, _ => none
  | order :: orders, lastCounts, lasti, m => do
      let m ← BuildLaunch.buildTree k ⟨false, global, 0, 0⟩ m order
      -- overflow during tree construction
      if m.maxDepth > k.MAXDEPTH then none
      else
        let lastCounts := Function.update lastCounts (Fin.ofNat 3 lasti) m.doneCnt
        -- not progressing
        if lastCounts 0 = lastCounts 1 ∧ lastCounts 1 = lastCounts 2 then none
        else if m.doneCnt < k.NBODY then repeatedBuild k global orders lastCounts (lasti + 1) m
        else some m

/-- The tree that a step begins with, where the items of each launch take their steps in one of
the `orders` and the elements of `_child` are cleared in the order of `writes`. -/
def constructTree (k : BuildArgs) (h : HostBuild) (root : RootCell R) (writes : List ℕ)
    (orders : List (List (Fin h.global))) (m : BuildMemory R) : Option (BuildMemory R) :=
  let m := buildTreeClear (m.setRoot k root) writes
  if h.usesConsistentMemory then
    chunkedBuild k h.global (bodyChunks h.ignoreResponsive k.NBODY h.global) orders m
  else repeatedBuild k h.global orders (fun _ => 0) 0 m

/-! ## The cleared memory -/

variable {k : BuildArgs} {m m' : BuildMemory R} {T T' : Octree ℕ ℕ}

omit [Field R] [LinearOrder R] in
theorem setChild_apply (m : BuildMemory R) (n : ℕ) (j : Fin 8) (ch : SlotCL) (c : ℕ) (i : Fin 8) :
    (m.setChild n j ch).child c i = if c = n ∧ i = j then ch else m.child c i := by
  simp only [BuildMemory.setChild, Function.update_apply]
  by_cases cell : c = n
  · subst cell
    simp [Function.update_apply]
  · simp [cell]

omit [Field R] [LinearOrder R] in
theorem buildTreeClear_eq (m : BuildMemory R) (writes : List ℕ) :
    ∃ child, buildTreeClear m writes = { m with child } ∧
      ∀ c (j : Fin 8), 8 * c + j.val ∈ writes ∨ m.child c j = .null → child c j = .null := by
  induction writes generalizing m with
  | nil => exact ⟨m.child, rfl, fun c j h => h.resolve_left List.not_mem_nil⟩
  | cons x writes ih =>
      obtain ⟨child, same, cleared⟩ := ih (m.setChild (x / 8) (slotNumber x) .null)
      refine ⟨child, same, fun c j h => cleared c j ?_⟩
      rw [setChild_apply]
      rcases h with written | null
      · refine (List.mem_cons.mp written).elim (fun here => .inr ?_) .inl
        have cell : c = x / 8 := by omega
        have slot : j = slotNumber x := Fin.ext (by simp only [slotNumber]; omega)
        rw [if_pos ⟨cell, slot⟩]
      · rw [null]
        exact .inr (ite_self _)

theorem mem_alignedIndices {WARPSIZE inc bottom top x : ℕ} (pos : 0 < inc) (lower : bottom ≤ x)
    (upper : x < top) : ∃ w < inc, x ∈ alignedIndices WARPSIZE inc bottom top w := by
  have item : ∃ w < inc, ∃ t, x = alignedStart WARPSIZE inc bottom w + t * inc :=
    exists_alignedStart pos lower
  obtain ⟨w, lt, t, here⟩ := item
  exact ⟨w, lt, (mem_strided pos (by omega)).mpr ⟨upper, t, here⟩⟩

omit [Field R] in
theorem grown_cleared (room : k.NBODY < k.NNODE) {WARPSIZE inc : ℕ} (items : 0 < inc)
    {writes : List ℕ} (cleared : writes.Perm (clearIndices k WARPSIZE inc)) (root : RootCell R)
    (m : BuildMemory R) :
    Grown k (buildTreeClear (m.setRoot k root) writes) (.cell k.NNODE fun _ => .empty) := by
  obtain ⟨child, same, null⟩ := buildTreeClear_eq (m.setRoot k root) writes
  have empty : ∀ c, k.NBODY < c → c ≤ k.NNODE → ∀ j, child c j = .null := by
    intro c above le j
    refine null c j ?_
    rcases Nat.lt_or_ge c k.NNODE with lt | ge
    · refine .inl (cleared.mem_iff.mpr (List.mem_flatMap.mpr ?_))
      have item : ∃ w < inc, 8 * c + j.val ∈
          alignedIndices WARPSIZE inc (8 * k.NBODY) (8 * k.NNODE) w :=
        mem_alignedIndices items (by omega) (by omega)
      obtain ⟨w, lt, found⟩ := item
      exact ⟨w, List.mem_range.mpr lt, found⟩
    · have here : c = k.NNODE := by omega
      rw [here]
      exact .inr (by simp [BuildMemory.setRoot])
  rw [same]
  have refs : ∀ c, k.NBODY < c → c ≤ k.NNODE →
      BuildMemory.refs { m.setRoot k root with child } c = fun _ => .null := by
    intro c above le
    funext j
    show (child c j).ref = _
    rw [empty c above le j, SlotCL.ref]
  have none : (Octree.cell k.NNODE fun _ => .empty : Octree ℕ ℕ).leaves = [] :=
    List.flatMap_eq_nil_iff.mpr fun i _ => rfl
  have one : (Octree.cell k.NNODE fun _ => .empty : Octree ℕ ℕ).cells = [k.NNODE] :=
    congrArg _ (List.flatMap_eq_nil_iff.mpr fun i _ => rfl)
  refine ⟨⟨_, rfl⟩, ⟨fun i => ?_, fun i => trivial⟩, by simp [one], by simp [none],
    ⟨(fun i b hb => by cases hb), fun i => trivial⟩, by simp [none], room, fun c => ?_,
    fun c above lt => refs c above (le_of_lt lt)⟩
  · rw [refs _ room le_rfl]
    rfl
  · simp [one, BuildMemory.setRoot, le_antisymm_iff, and_comm]

/-! ## Several launches -/

inductive Launches (k : BuildArgs) : List BuildLaunch → BuildMemory R → BuildMemory R → Prop
  | nil (m : BuildMemory R) : Launches k [] m m
  | cons (l : BuildLaunch) (ls : List BuildLaunch) (m m₁ m₂ : BuildMemory R)
      (order : List (Fin l.items)) (launch : l.buildTree k m order = some m₁)
      (rest : Launches k ls m₁ m₂) : Launches k (l :: ls) m m₂

theorem buildTree_eq {l : BuildLaunch} {order : List (Fin l.items)}
    (launch : l.buildTree k m order = some m') : m' = (l.run k m order).mem ∧
      ∀ w : Fin l.items, ((l.run k m order).items w).pc = .done := by
  rw [BuildLaunch.buildTree, Option.ite_none_right_eq_some, Option.some.injEq] at launch
  refine ⟨launch.2.symm, fun w => ?_⟩
  have done := launch.1 w
  cases pc : ((l.run k m order).items w).pc <;> rw [pc] at done <;> first | rfl | cases done

theorem Launches.reports {ls : List BuildLaunch} (h : Launches k ls m m') :
    m.maxDepth ≤ m'.maxDepth ∧ (m'.errorCode = false → m.errorCode = false) := by
  induction h with
  | nil m => exact ⟨le_rfl, id⟩
  | cons l ls m m₁ m₂ order launch rest ih =>
      have run : ∀ (order : List (Fin l.items)) (s : BuildRun R),
          s.mem.maxDepth ≤ (s.steps k l order).mem.maxDepth ∧
            ((s.steps k l order).mem.errorCode = false → s.mem.errorCode = false) := by
        intro order
        induction order with
        | nil => exact fun s => ⟨le_rfl, id⟩
        | cons w order ih =>
            intro s
            obtain ⟨depth, -, error⟩ := itemStep_reports (k := k) (l := l) (m := s.mem) (s.items w)
            obtain ⟨later, ok⟩ := ih (s.step k l w)
            exact ⟨depth.trans later, fun none => error (ok none)⟩
      obtain ⟨depth, error⟩ := run order (l.start m)
      rw [(buildTree_eq launch).1] at ih
      exact ⟨depth.trans ih.1, fun none => error (ih.2 none)⟩

/-- Between two launches the tree is laid out in memory, and the depth recorded is the deepest
level reached so far, or what had been recorded before, `d`. -/
structure BetweenLaunches (k : BuildArgs) (d : ℕ) (m : BuildMemory R) (T : Octree ℕ ℕ) : Prop where
  grown : Grown k m T
  deepest : T.deepest = 0 ∨ T.deepest + 1 ≤ m.maxDepth
  recorded : d ≤ m.maxDepth ∧ m.maxDepth ≤ max d (T.deepest + 1)

theorem Launches.built {d : ℕ} {ls : List BuildLaunch} (h : Launches k ls m m')
    (start : BetweenLaunches k d m T) (within : ∀ l ∈ ls, l.maxN k ≤ k.NBODY) (shallow : 0 < k.MAXDEPTH)
    (error : m'.errorCode = false) (bound : m'.maxDepth ≤ k.MAXDEPTH) :
    ∃ T', BetweenLaunches k d m' T' ∧ (∀ b ∈ T.leaves, b ∈ T'.leaves) ∧
      (∀ l ∈ ls, l.consistent = true → 0 < l.items →
        ∀ b, l.offset ≤ b → b < l.maxN k → b ∈ T'.leaves) ∧
      ((∀ l ∈ ls, l.consistent = false) →
        T'.leaves.length + m.doneCnt = T.leaves.length + m'.doneCnt) := by
  induction h generalizing T with
  | nil m => exact ⟨T, start, fun b hb => hb, by simp, fun _ => rfl⟩
  | cons l ls m m₁ m₂ order launch rest ih =>
      obtain ⟨rfl, done⟩ := buildTree_eq launch
      obtain ⟨depth, ok⟩ := rest.reports
      obtain ⟨T₁, launched⟩ := l.launched start.grown start.deepest
        (within l List.mem_cons_self) shallow order done (ok error) (depth.trans bound)
      have built : BetweenLaunches k d (l.run k m order).mem T₁ := by
        refine ⟨launched.grown, launched.deepest, start.recorded.1.trans launched.recorded.1, ?_⟩
        have before := start.recorded.2
        have after := launched.recorded.2
        have deeper := launched.deeper
        omega
      obtain ⟨T', built', older, stored, counts⟩ := ih built
        (fun l hl => within l (List.mem_cons_of_mem _ hl)) error bound
      refine ⟨T', built', fun b hb => older b (launched.older b hb), ?_, fun repeated => ?_⟩
      · intro l' hl consistent items b after before
        rcases List.mem_cons.mp hl with rfl | hl
        · exact older b (launched.stored consistent items b after before)
        · exact stored l' hl consistent items b after before
      · have first := launched.counts (repeated l List.mem_cons_self)
        have rest := counts fun l hl => repeated l (List.mem_cons_of_mem _ hl)
        omega

theorem chunkedBuild_launches {global : ℕ} {chunks : List (ℕ × ℕ)}
    {orders : List (List (Fin global))} (run : chunkedBuild k global chunks orders m = some m') :
    Launches k (chunks.map fun c => ⟨true, global, c.1, c.2⟩) m m' := by
  induction chunks generalizing orders m with
  | nil =>
      rw [chunkedBuild, Option.some.injEq] at run
      subst run
      exact .nil m
  | cons c chunks ih =>
      cases orders with
      | nil => cases run
      | cons order orders =>
          obtain ⟨m₁, launch, rest⟩ := Option.bind_eq_some_iff.mp run
          exact .cons _ _ m m₁ m' order launch (ih rest)

theorem repeatedBuild_launches {global : ℕ} {orders : List (List (Fin global))}
    {lastCounts : Fin 3 → ℕ} {lasti : ℕ}
    (run : repeatedBuild k global orders lastCounts lasti m = some m') :
    ∃ n, Launches k (List.replicate n ⟨false, global, 0, 0⟩) m m' ∧ k.NBODY ≤ m'.doneCnt := by
  induction orders generalizing lastCounts lasti m with
  | nil => cases run
  | cons order orders ih =>
      obtain ⟨m₁, launch, rest⟩ := Option.bind_eq_some_iff.mp run
      rw [Option.ite_none_left_eq_some] at rest
      dsimp only at rest
      rw [Option.ite_none_left_eq_some] at rest
      obtain ⟨-, -, rest⟩ := rest
      split at rest
      · obtain ⟨n, launches, all⟩ := ih rest
        exact ⟨n + 1, .cons _ _ m m₁ m' order launch launches, all⟩
      · next all =>
          rw [Option.some.injEq] at rest
          subst rest
          exact ⟨1, .cons _ _ m m₁ m₁ order launch (.nil m₁), not_lt.mp all⟩

/-! ## All launches -/

theorem flatMap_bodyChunks (ignoreResponsive : Bool) (effNBody : ℕ) {global : ℕ}
    (items : 0 < global) : (bodyChunks ignoreResponsive effNBody global).flatMap
      (fun c => List.range' c.1 (c.2 - c.1)) = List.range effNBody := by
  rw [List.range_eq_range']
  cases ignoreResponsive with
  | true => simp [bodyChunks, chunkLoop]
  | false =>
      refine flatMap_chunkLoop (by simp) ?_
      have divided := Nat.mod_add_div' effNBody global
      have rest := Nat.mod_lt effNBody items
      show effNBody ≤ 0 + mwDivRoundup effNBody global * global
      rw [mwDivRoundup]
      split
      · rw [Nat.succ_mul]
        omega
      · omega

theorem snd_le_of_mem_bodyChunks {ignoreResponsive : Bool} {effNBody global : ℕ} {c : ℕ × ℕ}
    (h : c ∈ bodyChunks ignoreResponsive effNBody global) : c.2 ≤ effNBody :=
  snd_le_of_mem_chunkLoop h

/-- Whatever the order in which the work-items take their steps, the construction leaves a tree
whose cells are those taken from the array, with each body in one slot of it, under the slot of
each cell above that it belongs to. No slot is locked, and the depth recorded is the deepest level
reached, or what earlier steps had recorded. -/
theorem constructTree_tree (k : BuildArgs) (h : HostBuild) (root : RootCell R)
    (writes : List ℕ) (orders : List (List (Fin h.global))) (m m' : BuildMemory R)
    (room : k.NBODY < k.NNODE) (shallow : 0 < k.MAXDEPTH) (clears : 0 < h.clearGlobal)
    (items : 0 < h.global) (cleared : writes.Perm (clearIndices k h.WARPSIZE h.clearGlobal))
    (one : 1 ≤ m.maxDepth) (run : constructTree k h root writes orders m = some m')
    (error : m'.errorCode = false) (bound : m'.maxDepth ≤ k.MAXDEPTH) :
    ∃ T, Grown k m' T ∧ T.leaves.Perm (List.range k.NBODY) ∧
      (∀ c ∈ T.cells, ∀ j, m'.child c j ≠ .lock) ∧
      m'.maxDepth = max m.maxDepth (T.deepest + 1) := by
  obtain ⟨child, same, -⟩ := buildTreeClear_eq (m.setRoot k root) writes
  have grown := grown_cleared room clears cleared root m
  have flat : (Octree.cell k.NNODE fun _ => .empty : Octree ℕ ℕ).deepest = 0 := by
    simp [deepest, isCell]
  rw [constructTree] at run
  rw [same] at run grown
  have start : BetweenLaunches k m.maxDepth { m.setRoot k root with child }
      (.cell k.NNODE fun _ => .empty) := ⟨grown, .inl flat, le_rfl, le_max_left _ _⟩
  have finish : ∀ T, BetweenLaunches k m.maxDepth m' T → (∀ b < k.NBODY, b ∈ T.leaves) →
      ∃ T, Grown k m' T ∧ T.leaves.Perm (List.range k.NBODY) ∧
        (∀ c ∈ T.cells, ∀ j, m'.child c j ≠ .lock) ∧
        m'.maxDepth = max m.maxDepth (T.deepest + 1) := by
    intro T between all
    refine ⟨T, between.grown, ?_, fun c hc j locked => ?_, ?_⟩
    · refine (List.perm_ext_iff_of_nodup between.grown.leavesNodup List.nodup_range).mpr
        fun b => ?_
      rw [List.mem_range]
      exact ⟨between.grown.bodies b, all b⟩
    · obtain ⟨sub, within⟩ := exists_within hc
      have laid := within.holds between.grown.laid j
      have wild : m'.refs c j = .wild := by rw [BuildMemory.refs, locked, SlotCL.ref]
      exact entry_ne_wild _ (laid.symm.trans wild)
    · have deepest := between.deepest
      have recorded := between.recorded
      omega
  split at run
  · next consistent =>
      obtain ⟨T, between, -, stored, -⟩ := (chunkedBuild_launches run).built start (by
        intro l hl
        obtain ⟨c, hc, rfl⟩ := List.mem_map.mp hl
        exact snd_le_of_mem_bodyChunks hc) shallow error bound
      refine finish T between fun b hb => ?_
      rw [← List.mem_range, ← flatMap_bodyChunks h.ignoreResponsive k.NBODY items,
        List.mem_flatMap] at hb
      obtain ⟨c, hc, inside⟩ := hb
      rw [List.mem_range'_1] at inside
      exact stored _ (List.mem_map_of_mem hc) rfl items b inside.1 (show b < c.2 by omega)
  · next repeated =>
      obtain ⟨n, launches, all⟩ := repeatedBuild_launches run
      have each : ∀ l ∈ List.replicate n (⟨false, h.global, 0, 0⟩ : BuildLaunch),
          l = ⟨false, h.global, 0, 0⟩ := fun l hl => List.eq_of_mem_replicate hl
      obtain ⟨T, between, -, -, counts⟩ := launches.built start
        (fun l hl => by rw [each l hl]; exact le_rfl) shallow error bound
      have count := counts fun l hl => by rw [each l hl]
      have none : (Octree.cell k.NNODE fun _ => .empty : Octree ℕ ℕ).leaves = [] :=
        List.flatMap_eq_nil_iff.mpr fun i _ => rfl
      have zero : (BuildMemory.mk child (m.setRoot k root).pos (m.setRoot k root).critRadii
        (m.setRoot k root).radius (m.setRoot k root).bottom (m.setRoot k root).maxDepth
        (m.setRoot k root).doneCnt (m.setRoot k root).errorCode).doneCnt = 0 := rfl
      rw [none, List.length_nil, zero] at count
      have subperm : T.leaves.Subperm (List.range k.NBODY) :=
        List.subperm_of_subset between.grown.leavesNodup fun b hb =>
          List.mem_range.mpr (between.grown.bodies b hb)
      have perm := subperm.perm_of_length_le (by rw [List.length_range]; omega)
      exact finish T between fun b hb => perm.mem_iff.mpr (List.mem_range.mpr hb)

def raceArgs : BuildArgs := ⟨2, 8, 4, false⟩

def raceHost : HostBuild := ⟨true, false, 1, 1, 2⟩

def raceMemory : BuildMemory ℚ where
  child _ _ := .lock
  pos b := ⟨b + 1, b + 1, b + 1⟩
  critRadii := 0
  radius := 0
  bottom := 0
  maxDepth := 1
  doneCnt := 0
  errorCode := false

/-- Two items go for the same slot; one finds it locked and then splits it. -/
def raceOrder : List (Fin 2) := (List.replicate 18 (List.finRange 2)).flatten

theorem constructTree_tree_race : ∃ m' T,
    constructTree raceArgs raceHost ⟨4, ⟨0, 0, 0⟩⟩ (clearIndices raceArgs 1 1) [raceOrder]
      raceMemory = some m' ∧ Grown raceArgs m' T ∧ T.leaves.Perm (List.range 2) ∧
    (∀ c ∈ T.cells, ∀ j, m'.child c j ≠ .lock) ∧ m'.maxDepth = max 1 (T.deepest + 1) := by
  have ends : (constructTree raceArgs raceHost ⟨4, ⟨0, 0, 0⟩⟩ (clearIndices raceArgs 1 1)
      [raceOrder] raceMemory).map (fun m => (m.errorCode, m.maxDepth)) = some (false, 2) := by
    decide +kernel
  obtain ⟨m', run, fields⟩ := Option.map_eq_some_iff.mp ends
  rw [Prod.mk.injEq] at fields
  obtain ⟨T, tree⟩ := constructTree_tree raceArgs raceHost _ _ _ _ m' (by decide) (by decide)
    (by decide) (by decide) (List.Perm.refl _) le_rfl run fields.1 (by rw [fields.2]; decide)
  exact ⟨m', T, run, tree⟩

end MilkyWay.NBody
