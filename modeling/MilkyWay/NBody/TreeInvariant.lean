import MilkyWay.NBody.TreeBuild
import Mathlib.Algebra.Order.Ring.Rat

/-! The tree in exact arithmetic: `nbMakeTree_invariant` states where bodies and cells
are after a construction that succeeds, what each cell weighs and what is counted. -/

namespace MilkyWay.NBody

open Foundation

variable {R : Type} [Field R] [LinearOrder R] [IsStrictOrderedRing R]

theorem calcOffset_eq (p q size : R) :
    calcOffset p q size = Cube.offset q size (decide (q ≤ p)) := by
  have quarter : (0.25 : R) = 1 / 4 := by norm_num
  by_cases h : p < q
  · rw [calcOffset, if_pos h, Cube.offset, quarter]
    simp only [not_le.mpr h, decide_false, Bool.false_eq_true, if_false]
    ring
  · rw [calcOffset, if_neg h, Cube.offset, quarter]
    simp only [not_lt.mp h, decide_true, if_true]
    ring

theorem nbInitMidpoint_eq (p q : Vec3 R) (size : R) :
    nbInitMidpoint p q size = ((Cube.mk q size).octant (Cube.octantOf q p)).center := by
  obtain ⟨hx, hy, hz⟩ := Cube.testBit_octantOf q p
  simp only [nbInitMidpoint, calcOffset_eq, Cube.octant, hx, hy, hz]

theorem mw_abs_eq (x : R) : mw_abs x = |x| := by
  by_cases h : x < 0
  · rw [mw_abs, if_pos h, abs_of_neg h]
  · rw [mw_abs, if_neg h, abs_of_nonneg (not_lt.mp h)]

omit [Field R] [IsStrictOrderedRing R] in
theorem mw_fmax_eq (a b : R) : mw_fmax a b = max a b := by
  by_cases h : a < b
  · simp [mw_fmax, h, max_eq_right h.le]
  · simp [mw_fmax, h, max_eq_left (not_lt.mp h)]

theorem calcSW93MaxDist2_eq (Q : Cube R) (cm : Vec3 R) :
    calcSW93MaxDist2 Q.center cm Q.size = Q.farthestSq cm := by
  have half : (0.5 : R) = 1 / 2 := by norm_num
  have side : ∀ c q s : R, bmax2Inc c q s = (s / 2 + |c - q|) * (s / 2 + |c - q|) := by
    intro c q s
    have longer : max (c - (q - 0.5 * s)) (s - (c - (q - 0.5 * s))) = s / 2 + |c - q| := by
      rw [half]
      rcases le_total 0 (c - q) with above | below
      · rw [abs_of_nonneg above, max_eq_left (by linarith)]
        ring
      · rw [abs_of_nonpos below, max_eq_right (by linarith)]
        ring
    rw [bmax2Inc, sqr, mw_fmax_eq, longer]
  rw [calcSW93MaxDist2, side, side, side]
  rfl

theorem xyzmax_le_iff (st : TreeState R) (root : Vec3 R) (M : R) :
    xyzmax st root ≤ M ↔ 0 ≤ M ∧ ∀ i < st.nbody,
      |(st.bodytab i).pos.x - root.x| ≤ M ∧ |(st.bodytab i).pos.y - root.y| ≤ M ∧
        |(st.bodytab i).pos.z - root.z| ≤ M := by
  simp only [xyzmax, mw_fmax_eq, mw_abs_eq]
  have fold : ∀ (l : List ℕ) (m : R), l.foldl (fun m i =>
      max (max (max m |(st.bodytab i).pos.x - root.x|) |(st.bodytab i).pos.y - root.y|)
        |(st.bodytab i).pos.z - root.z|) m ≤ M ↔ m ≤ M ∧ ∀ i ∈ l,
      |(st.bodytab i).pos.x - root.x| ≤ M ∧ |(st.bodytab i).pos.y - root.y| ≤ M ∧
        |(st.bodytab i).pos.z - root.z| ≤ M := by
    intro l
    induction l with
    | nil => simp
    | cons j l ih =>
        intro m
        rw [List.foldl_cons, ih]
        simp only [max_le_iff, List.forall_mem_cons, and_assoc]
  rw [fold]
  simp only [List.mem_range]

theorem le_xyzmax (st : TreeState R) (root : Vec3 R) (i : ℕ) (hi : i < st.nbody) :
    |(st.bodytab i).pos.x - root.x| ≤ xyzmax st root ∧
      |(st.bodytab i).pos.y - root.y| ≤ xyzmax st root ∧
      |(st.bodytab i).pos.z - root.z| ≤ xyzmax st root :=
  ((xyzmax_le_iff st root _).mp le_rfl).2 i hi

theorem expandLoop_le {m rsize r : R} {fuel : ℕ} (run : expandLoop m fuel rsize = some r) :
    2 * m ≤ r := by
  induction fuel generalizing rsize with
  | zero => simp [expandLoop] at run
  | succ fuel ih =>
      rw [expandLoop] at run
      by_cases h : rsize < 2.0 * m
      · rw [if_pos h] at run
        exact ih run
      · rw [if_neg h, Option.some.injEq] at run
        subst run
        have two : (2.0 : R) = 2 := by norm_num
        rw [two] at h
        exact not_lt.mp h

theorem expandLoop_eq_zero {m rsize r : R} {fuel : ℕ} (run : expandLoop m fuel rsize = some r) :
    r = 0 ↔ rsize = 0 := by
  induction fuel generalizing rsize with
  | zero => simp [expandLoop] at run
  | succ fuel ih =>
      rw [expandLoop] at run
      by_cases h : rsize < 2.0 * m
      · rw [if_pos h] at run
        have two : (2.0 : R) ≠ 0 := by norm_num
        rw [ih run, mul_eq_zero, or_iff_left two]
      · rw [if_neg h, Option.some.injEq] at run
        rw [run]

theorem expandBox_contains {B : Build R} {fuel c : ℕ} {st st' : TreeState R}
    (run : expandBox B fuel st = some st') (root : st.tree.root = .cell c)
    (pos : (st.heap c).pos = 0) (i : ℕ) (hi : i < st.nbody) :
    (Cube.mk 0 st'.tree.rsize).Contains (st.bodytab i).pos := by
  obtain ⟨o, r, ho, loop, rfl⟩ := expandBox_eq run
  rw [root, TreeState.pos, Option.some.injEq, pos] at ho
  subst ho
  have bound := expandLoop_le loop
  obtain ⟨hx, hy, hz⟩ := le_xyzmax st 0 i hi
  have half : xyzmax st 0 ≤ r / 2 := by linarith
  exact ⟨hx.trans half, hy.trans half, hz.trans half⟩

theorem nbMakeTree_weighed {B : Build R} {ctx : NBodyCtx R} {fuel : ℕ} {st st' : TreeState R}
    (reach : Reachable B st) (nonneg : ∀ i < st.nbody, 0 ≤ (st.bodytab i).mass)
    (run : nbMakeTree B ctx fuel st = some (.success, st')) :
    ∃ c T, Built B ctx fuel st st' c T ∧ T.cells.Nodup ∧
      (st'.tree.rsize = 0 ↔ st.tree.rsize = 0) ∧
      (∀ i < st.nbody, (Cube.mk 0 st'.tree.rsize).Contains (st.bodytab i).pos) ∧
      (∃ P : ℕ → Vec3 R, T.Placed P (fun b => (st.bodytab b).pos) ⟨0, st'.tree.rsize⟩ ∧
        T.Everywhere (Octree.Sorts fun c b => Cube.octantOf (P c) (st.bodytab b).pos)) ∧
      T.EachCell (fun Q _ U => ∀ b ∈ U.leaves, Q.Contains (st.bodytab b).pos)
        ⟨0, st'.tree.rsize⟩ ∧
      T.EachCell (Weighed B ctx st') ⟨0, st'.tree.rsize⟩ := by
  obtain ⟨st₁, st₂, st₃, new, expand, load, rest⟩ := nbMakeTree_stages run
  obtain ⟨c₁, -, -, -, bodies₁, tree₁, pos₁, -⟩ := nbNewTree_spec reach.treeOk new
  have inside : ∀ i < st.nbody, (Cube.mk 0 st₂.tree.rsize).Contains (st.bodytab i).pos := by
    intro i hi
    have here := expandBox_contains expand (by rw [tree₁]) pos₁ i (bodies₁.nbody ▸ hi)
    rw [bodies₁.bodytab] at here
    exact here
  have zero : st₂.tree.rsize = 0 ↔ st.tree.rsize = 0 := by
    obtain ⟨root, r, -, loop, rfl⟩ := expandBox_eq expand
    rw [tree₁] at loop
    exact expandLoop_eq_zero loop
  have half : ∀ s : R, s * 0.5 = s / 2 := fun s => by
    rw [show (0.5 : R) = 1 / 2 by norm_num]
    ring
  let Kept : TreeState R → Octree ℕ ℕ → Prop := fun s T =>
    T.Placed (fun a => (s.heap a).pos) (fun b => (st.bodytab b).pos) ⟨0, st₂.tree.rsize⟩ ∧
      T.Everywhere (Octree.Sorts fun c b => Cube.octantOf (s.heap c).pos (st.bodytab b).pos)
  have keep : ∀ (s s' : TreeState R) (b : ℕ) (T U : Octree ℕ ℕ) (new : List ℕ) (n : ℕ)
      (stored : Bool), b < st.nbody → SameBodies st s' → s.tree.rsize = st₂.tree.rsize →
      Insertion (slotOf s') (· * 0.5) (SplitAt s') (· ≤ B.epsilon) b s.tree.rsize T U new n
        stored →
      (∀ a ∈ T.cells, (s'.heap a).pos = (s.heap a).pos) → Kept s T → Kept s' U := by
    intro s s' b T U new n stored hb bodies size ins pos kept
    have slot : slotOf s' = fun c b => Cube.octantOf (s'.heap c).pos (st.bodytab b).pos := by
      funext c b
      rw [slotOf, bodies.bodytab]
      rfl
    rw [slot] at ins
    refine ⟨ins.placed half ?_ _ size.symm (kept.1.congr pos) (inside b hb), ins.sorted ?_⟩
    swap
    · exact Octree.everywhere_sorts_congr kept.2 fun c hc b => by rw [pos c hc]
    intro c size m split
    rw [SplitAt, bodies.bodytab] at split
    rw [split, nbInitMidpoint_eq]
  obtain ⟨c, leaked, free, T, from_, placed, sorts⟩ := nbMakeTree_load reach.treeOk Kept new
    expand load (fun c _ pos => ⟨⟨pos, fun _ => trivial⟩,
      ⟨fun _ _ none => absurd none List.not_mem_nil, fun _ => trivial⟩⟩) keep
  obtain ⟨rc, -⟩ | ⟨noError, d, st₄, root, mass, rest⟩ := rest
  · cases rc
  rw [from_.loaded.root, Ref.cell.injEq] at root
  subst root
  obtain ⟨rc, -⟩ | ⟨-, noError₄, st₅, thread, quadPass⟩ := rest
  · cases rc
  obtain ⟨built, links, bodies₄, nodup⟩ := from_.built noError mass thread quadPass
  have rsize : st'.tree.rsize = st₂.tree.rsize := by
    rw [links.tree, (hackCofM_frame from_.loaded.rep mass).tree]
    exact from_.loaded.rsize
  rw [rsize]
  refine ⟨c, T, built, nodup, zero, inside, ⟨_, placed, sorts⟩, placed.eachCell, ?_⟩
  rw [from_.loaded.rsize] at mass
  have leafMass : ∀ b ∈ T.leaves, 0 ≤ (st₃.bodytab b).mass := by
    intro b hb
    rw [from_.bodies.bodytab]
    have mem := built.leaves.mem_iff.mp hb
    exact nonneg b (List.mem_range.mp (List.mem_filter.mp mem).1)
  have placed₃ : T.Placed (fun a => (st₃.heap a).pos) (fun b => (st₃.bodytab b).pos)
      ⟨0, st₂.tree.rsize⟩ := by
    rw [from_.bodies.bodytab]
    exact placed
  have weighed : T.EachCell (Weighed B ctx st₄) ⟨0, st₂.tree.rsize⟩ :=
    hackCofM_weighed from_.loaded.rep nodup placed₃ leafMass mass noError₄
  refine weighed.imp fun Q d U _ w => w.congr ?_ ?_ ?_
  · obtain ⟨pos, mass, rcrit2⟩ := links.heap d
    exact ⟨mass, pos, rcrit2⟩
  · intro b
    rw [links.body b]
    exact ⟨rfl, rfl⟩
  · rw [links.tree]

/-- The tree a construction leaves, in exact arithmetic. -/
structure TreeInvariant (B : Build R) (ctx : NBodyCtx R) (fuel : ℕ) (st st' : TreeState R) (c : ℕ)
    (T : Octree ℕ ℕ) : Prop where
  slots : ∃ st₅, Represents st₅.heap T (.cell c) ∧
    (if ctx.useQuad then hackQuad B fuel st₅ c else some st₅) = some st'
  root : st'.tree.root = .cell c
  leaves_nodup : T.leaves.Nodup
  mem_leaves : ∀ b, b ∈ T.leaves ↔ b < st.nbody ∧ (st.bodytab b).mass ≠ 0
  isBody : ∀ b < st.nbody, (st.bodytab b).mass ≠ 0 → (st.bodytab b).type ≠ 0
  cells : T.EachCell (fun Q d U =>
    (∀ b ∈ U.leaves, Q.Contains (st.bodytab b).pos) ∧
    (st'.heap d).mass = U.total (fun b => (st.bodytab b).mass) ∧
    ((st'.heap d).mass ≠ 0 → (st'.heap d).pos = (st'.heap d).mass⁻¹ •
      U.total fun b => (st.bodytab b).mass • (st.bodytab b).pos) ∧
    ((st'.heap d).mass = 0 → (st'.heap d).pos = Q.center) ∧
    Q.Contains (st'.heap d).pos) ⟨0, st'.tree.rsize⟩
  cells_nodup : T.cells.Nodup
  cellUsed : st'.tree.cellUsed = T.cells.length
  maxDepth : st'.tree.maxDepth = T.deepest

/-- A construction that succeeds puts every massive body, and no other, in one leaf
slot of a tree whose cells hold the bodies below them within their cubes and weigh
them at their centre of mass; the slots keep the tree until the quadrupole pass. -/
theorem nbMakeTree_invariant (B : Build R) (ctx : NBodyCtx R) (fuel : ℕ) (st st' : TreeState R)
    (reach : Reachable B st) (nonneg : ∀ i < st.nbody, 0 ≤ (st.bodytab i).mass)
    (run : nbMakeTree B ctx fuel st = some (.success, st')) :
    ∃ c T, TreeInvariant B ctx fuel st st' c T := by
  obtain ⟨c, T, built, nodup, -, -, -, inside, weighed⟩ := nbMakeTree_weighed reach nonneg run
  have mass : ∀ b, (st'.bodytab b).mass = (st.bodytab b).mass := fun b => by rw [built.body b]
  have pos : ∀ b, (st'.bodytab b).pos = (st.bodytab b).pos := fun b => by rw [built.body b]
  have mem : ∀ b, b ∈ T.leaves ↔ b < st.nbody ∧ (st.bodytab b).mass ≠ 0 := fun b => by
    rw [built.leaves.mem_iff, List.mem_filter, List.mem_range, bne_iff_ne]
  refine ⟨c, T, built.slots, built.root, ?_, mem, ?_, ?_, nodup, built.cellUsed, built.maxDepth⟩
  · exact built.leaves.nodup_iff.mpr (List.nodup_range.filter _)
  · exact fun b hb massive => bne_iff_ne.mp (built.isBody b ((mem b).mpr ⟨hb, massive⟩))
  · refine (inside.and weighed).imp fun Q d U _ ⟨contains, w⟩ => ⟨contains, ?_, ?_, w.massless,
      w.inside⟩
    · simpa only [mass] using w.mass
    · intro massive
      have moment := w.moment
      simp only [mass, pos] at moment
      rw [← moment, smul_smul, inv_mul_cancel₀ massive, one_smul]

/-! ## An instance over the rational numbers -/

/-- The square root of a rational number that has one. -/
def ratSqrt (q : ℚ) : ℚ := (Nat.sqrt q.num.toNat : ℚ) / (Nat.sqrt q.den : ℚ)

def rowBuild : Build ℚ := ⟨false, 1 / 1024, ratSqrt, fun _ => ⟨0, 0, 0, 0, 0, 0⟩⟩

def noPotential : Potential ℚ :=
  ⟨⟨.none, 0, 0⟩, ⟨.none, 0, 0, 0, 0, 0⟩, ⟨.none, 0, 0, 0, 0, 0⟩,
    ⟨.none, 0, 0, 0, 0, 0, 0, 0, 0, 0, 0, 0, 0, 0⟩⟩

def rowCtx : NBodyCtx ℚ where
  eps2 := 1
  theta := 0
  timestep := 1
  timeEvolve := 4
  treeRSize := 4
  criterion := .sw93
  potentialType := .none
  useQuad := true
  BestLikeStart := 1
  LMCmass := 0
  LMCscale := 1
  coulomb_log := 0
  nStep := 4
  pot := noPotential

/-- Bodies of mass `m` in a row along a diagonal, before the first tree. -/
def rowState (n : ℕ) (m : ℚ) : TreeState ℚ where
  tree := ⟨.null, 4, 0, 0, false⟩
  freeCell := .null
  bodytab i := { pos := ⟨2 * i, 2 * i, 0⟩, mass := m, id := i, vel := 0 }
  nbody := n
  heap _ := ⟨0, .wild, 0, 0, .wild, .subp fun _ => .wild⟩
  heapTop := 0
  treeIncest := false

theorem success_of_status {R : Type} {x : Option (NBodyStatus × TreeState R)}
    (h : x.map Prod.fst = some .success) : ∃ st', x = some (.success, st') := by
  obtain ⟨⟨rc, st'⟩, rfl, rfl⟩ := Option.map_eq_some_iff.mp h
  exact ⟨st', rfl⟩

theorem nbMakeTree_invariant_pair : ∃ st', nbMakeTree rowBuild rowCtx 9 (rowState 2 1) =
      some (.success, st') ∧
    ∃ c T, TreeInvariant rowBuild rowCtx 9 (rowState 2 1) st' c T := by
  obtain ⟨st', run⟩ := success_of_status (x := nbMakeTree rowBuild rowCtx 9 (rowState 2 1))
    (by decide +kernel)
  exact ⟨st', run, nbMakeTree_invariant rowBuild rowCtx 9 (rowState 2 1) st' (.start ..)
    (fun _ _ => zero_le_one) run⟩

end MilkyWay.NBody
