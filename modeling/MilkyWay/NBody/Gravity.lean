import MilkyWay.NBody.TreeInvariant

/-! Gravity from the tree. The scan of `nbGravity` is a walk along the links of the
tree; `nbWalk_iff` states when such a walk is the depth-first one, and
`nbGravity_iff` when the scan that opens every cell is the direct sum. -/

namespace MilkyWay.NBody

open Foundation

section
variable {R : Type} [Zero R] [Add R] [Sub R] [Mul R] [Div R] [OfScientific R] [BEq R]
  [LE R] [DecidableLE R]

def monopole (B : Build R) (ctx : NBodyCtx R) (m : R) (dr : Vec3 R) : Vec3 R :=
  let drSq := mw_sqrv dr + ctx.eps2
  let drab := B.sqrt drSq
  let phii := m / drab
  let mor3 := phii / drSq
  mor3 • dr

def addQuadrupole (B : Build R) (ctx : NBodyCtx R) (Q : NBodyQuadMatrix R) (dr acc : Vec3 R) :
    Vec3 R :=
  let drSq := mw_sqrv dr + ctx.eps2
  let drab := B.sqrt drSq
  let Qdr : Vec3 R := ⟨Q.xx * dr.x + Q.xy * dr.y + Q.xz * dr.z,
    Q.xy * dr.x + Q.yy * dr.y + Q.yz * dr.z, Q.xz * dr.x + Q.yz * dr.y + Q.zz * dr.z⟩
  let drQdr := Qdr.x * dr.x + Qdr.y * dr.y + Qdr.z * dr.z
  let dr5inv := 1.0 / (sqr drSq * drab)
  let phiQ := 2.5 * (dr5inv * drQdr) / drSq
  acc + phiQ • dr - dr5inv • Qdr

/-- The cell is not far enough away from `pos0` to be approximated. -/
def isOpened (st : TreeState R) (pos0 : Vec3 R) (c : ℕ) : Bool :=
  !decide ((st.heap c).rcrit2 ≤ mw_sqrv ((st.heap c).pos - pos0))

/-- Compute the gravity of a node that is not opened, unless it is the body itself. No
body of a tree that was made has the type of a cell: see `Built`. -/
def visitNode (B : Build R) (ctx : NBodyCtx R) (st : TreeState R) (p : ℕ) (s : Vec3 R × Bool) :
    NodePtr → Vec3 R × Bool
  | .leaf b =>
      if b ≠ p then
        let dr := (st.bodytab b).pos - (st.bodytab p).pos
        (s.1 + monopole B ctx (st.bodytab b).mass dr, s.2)
      else (s.1, true)
  | .cell c =>
      let dr := (st.heap c).pos - (st.bodytab p).pos
      let acc := s.1 + monopole B ctx (st.heap c).mass dr
      (if ctx.useQuad then addQuadrupole B ctx (quad B st c) dr acc else acc, s.2)
  | _ => s

def nbGravityLoop (B : Build R) (ctx : NBodyCtx R) (st : TreeState R) (p : ℕ) :
    ℕ → NodePtr → Vec3 R × Bool → Option (Vec3 R × Bool)
  | 0, _, _ => none
  | _ + 1, .null, s => some s
  | _ + 1, .wild, _ => none
  | fuel + 1, .leaf b, s =>
      nbGravityLoop B ctx st p fuel (st.bodytab b).next (visitNode B ctx st p s (.leaf b))
  | fuel + 1, .cell c, s =>
      if isOpened st (st.bodytab p).pos c then nbGravityLoop B ctx st p fuel (st.heap c).more s
      else nbGravityLoop B ctx st p fuel (st.heap c).next (visitNode B ctx st p s (.cell c))

/-- Gravity on body `p`; a body that does not meet itself is reported as incest. -/
def nbGravity (B : Build R) (ctx : NBodyCtx R) (fuel : ℕ) (st : TreeState R) (p : ℕ) :
    Option (Vec3 R × TreeState R) := do
  let (acc0, skipSelf) ← nbGravityLoop B ctx st p fuel st.tree.root (0, false)
  return (acc0, if skipSelf then st else { st with treeIncest := true })

def nbGravity_Exact (B : Build R) (ctx : NBodyCtx R) (st : TreeState R) (p : ℕ) : Vec3 R :=
  (List.range st.nbody).foldl (fun a i =>
    a + monopole B ctx (st.bodytab i).mass ((st.bodytab i).pos - (st.bodytab p).pos)) 0

end

/-! ## Walks along the links -/

section
variable {R : Type}

/-- The walk of `nbGravity` with its arithmetic left out: more of a cell that `opens`
holds of, next of any other node. -/
def nbWalk (st : TreeState R) (opens : ℕ → Bool) : ℕ → NodePtr → List NodePtr →
    Option (List NodePtr)
  | 0, _, _ => none
  | _ + 1, .null, visited => some visited
  | _ + 1, .wild, _ => none
  | fuel + 1, .leaf b, visited => nbWalk st opens fuel (st.bodytab b).next (visited ++ [.leaf b])
  | fuel + 1, .cell c, visited =>
      nbWalk st opens fuel (if opens c then (st.heap c).more else (st.heap c).next)
        (visited ++ [.cell c])

theorem nbWalk_eq (st : TreeState R) (opens : ℕ → Bool) (fuel : ℕ) (p : NodePtr)
    (visited : List NodePtr) : nbWalk st opens fuel p visited =
      (links st).walk opens (fun visited q => visited ++ [q]) fuel p visited := by
  induction fuel generalizing p visited with
  | zero => rfl
  | succ fuel ih => cases p <;> first | rfl | exact ih _ _

theorem foldl_append_singleton {α : Type*} (l acc : List α) :
    l.foldl (fun visited q => visited ++ [q]) acc = acc ++ l := by
  induction l generalizing acc with
  | nil => simp
  | cons q l ih => rw [List.foldl_cons, ih, List.append_assoc]; rfl

theorem nbWalk_wild {st : TreeState R} {opens : ℕ → Bool} {c : ℕ} (more : (st.heap c).more = .wild)
    (ho : opens c = true) (fuel : ℕ) (visited : List NodePtr) :
    nbWalk st opens fuel (.cell c) visited = none := by
  cases fuel with
  | zero => rfl
  | succ fuel =>
      rw [nbWalk, ho, if_pos rfl, more]
      cases fuel <;> rfl

theorem Linked.walk {st : TreeState R} {c : ℕ} {T : Octree ℕ ℕ} (h : Linked st c T)
    (isRoot : ∃ sub, T = .cell c sub) (opens : ℕ → Bool) :
    (∃ fuel, nbWalk st opens fuel (.cell c) [] = some (T.visits opens)) ↔
      T.leaves ≠ [] ∨ opens c = false := by
  obtain ⟨sub, rfl⟩ := isRoot
  by_cases none : (Octree.cell c sub).leaves = []
  · obtain ⟨bare, next, more⟩ := h.bare none
    rw [none, bare]
    cases ho : opens c with
    | true =>
        simp only [nbWalk_wild more ho, reduceCtorEq, exists_false, ne_eq, not_true_eq_false,
          Bool.true_eq_false, or_self]
    | false =>
        refine ⟨fun _ => .inr rfl, fun _ => ⟨2, ?_⟩⟩
        simp [nbWalk, ho, next, Octree.visits]
  · refine ⟨fun _ => .inl none, fun _ => ⟨((Octree.cell c sub).visits opens).length + 1, ?_⟩⟩
    rw [nbWalk_eq]
    refine ((links st).walk_threaded opens _ _ .null 1 [] (h.threaded none)).trans ?_
    rw [Links.walk, foldl_append_singleton, List.nil_append]

end

section
variable {R : Type} [Zero R] [Add R] [Neg R] [Sub R] [Mul R] [Div R] [OfScientific R] [BEq R]
  [LT R] [DecidableLT R] [LE R] [DecidableLE R]

omit [Neg R] [Div R] [LT R] [DecidableLT R] [LE R] [DecidableLE R] in
theorem Built.leaves_ne_nil {B : Build R} {ctx : NBodyCtx R} {fuel : ℕ} {st st' : TreeState R}
    {c : ℕ} {T : Octree ℕ ℕ} (h : Built B ctx fuel st st' c T) :
    T.leaves ≠ [] ↔ ∃ b < st.nbody, ((st.bodytab b).mass != 0) = true := by
  rw [ne_eq, ← List.length_eq_zero_iff, h.leaves.length_eq, List.length_eq_zero_iff,
    List.filter_eq_nil_iff]
  simp

/-- The links of a tree just made walk it depth first, whichever cells are opened,
exactly if some body was loaded or the root is not opened. -/
theorem nbWalk_iff (B : Build R) (ctx : NBodyCtx R) (fuel : ℕ) (st st' : TreeState R)
    (reach : Reachable B st) (run : nbMakeTree B ctx fuel st = some (.success, st'))
    (opens : ℕ → Bool) :
    ∃ c T, Built B ctx fuel st st' c T ∧
      ((∃ fuel', nbWalk st' opens fuel' st'.tree.root [] = some (T.visits opens)) ∧
          (T.visits opens).Nodup ↔
        (∃ b < st.nbody, ((st.bodytab b).mass != 0) = true) ∨ opens c = false) := by
  obtain ⟨c, T, built⟩ := reach.built run
  obtain ⟨leaked, free, cells⟩ := built.cells
  have leaves : T.leaves.Nodup := built.leaves.nodup_iff.mpr (List.nodup_range.filter _)
  have nodup := T.visits_nodup opens cells.nodup.of_append_left.of_append_left leaves
  refine ⟨c, T, built, ?_⟩
  rw [built.root, built.linked.walk built.isRoot opens, built.leaves_ne_nil]
  exact and_iff_left nodup

theorem nbWalk_iff_pair : ∃ st', nbMakeTree rowBuild rowCtx 9 (rowState 2 1) =
      some (.success, st') ∧
    ∃ c T, Built rowBuild rowCtx 9 (rowState 2 1) st' c T ∧
      ((∃ fuel', nbWalk st' (fun _ => true) fuel' st'.tree.root [] =
            some (T.visits fun _ => true)) ∧ (T.visits fun _ => true).Nodup ↔
        (∃ b < 2, (((rowState 2 1).bodytab b).mass != 0) = true) ∨
          (fun _ => true) c = false) := by
  obtain ⟨st', run⟩ := success_of_status (x := nbMakeTree rowBuild rowCtx 9 (rowState 2 1))
    (by decide +kernel)
  exact ⟨st', run, nbWalk_iff rowBuild rowCtx 9 (rowState 2 1) st' (.start ..) run fun _ => true⟩

/-- A single body without mass: the construction succeeds and the walk that opens the
root never ends. -/
theorem nbWalk_lost : ∃ st', nbMakeTree rowBuild rowCtx 9 (rowState 1 0) = some (.success, st') ∧
    ∀ c T, Built rowBuild rowCtx 9 (rowState 1 0) st' c T →
      ¬ ∃ fuel', nbWalk st' (fun _ => true) fuel' st'.tree.root [] =
        some (T.visits fun _ => true) := by
  obtain ⟨st', run⟩ := success_of_status (x := nbMakeTree rowBuild rowCtx 9 (rowState 1 0))
    (by decide +kernel)
  refine ⟨st', run, fun c T built walk => ?_⟩
  rw [built.root] at walk
  obtain some_ | closed := (built.linked.walk built.isRoot fun _ => true).mp walk
  · obtain ⟨b, -, massive⟩ := built.leaves_ne_nil.mp some_
    exact absurd massive (by simp [rowState])
  · cases closed

end

/-! ## The scan that opens every cell -/

section
variable {R : Type} [Add R] [Sub R] [Mul R] [Div R] [OfScientific R] [LE R] [DecidableLE R]

def scanNode (B : Build R) (ctx : NBodyCtx R) (st : TreeState R) (p : ℕ) (s : Vec3 R × Bool)
    (q : NodePtr) : Vec3 R × Bool :=
  match q with
  | .cell c =>
      if isOpened st (st.bodytab p).pos c then s else visitNode B ctx st p s (.cell c)
  | q => visitNode B ctx st p s q

theorem nbGravityLoop_eq (B : Build R) (ctx : NBodyCtx R) (st : TreeState R) (p fuel : ℕ)
    (q : NodePtr) (s : Vec3 R × Bool) :
    nbGravityLoop B ctx st p fuel q s = (links st).walk (isOpened st (st.bodytab p).pos)
      (scanNode B ctx st p) fuel q s := by
  induction fuel generalizing q s with
  | zero => rfl
  | succ fuel ih =>
      cases q with
      | null => rfl
      | wild => rfl
      | leaf b => exact ih _ _
      | cell c =>
          rw [nbGravityLoop, Links.walk, scanNode]
          cases ho : isOpened st (st.bodytab p).pos c with
          | true => exact ih _ _
          | false => exact ih _ _

end

section
variable {R : Type} [Field R] [LinearOrder R]

/-- The sum over all other massive bodies. -/
def directSum (B : Build R) (ctx : NBodyCtx R) (st : TreeState R) (p : ℕ) : Vec3 R :=
  (((List.range st.nbody).filter fun q => q ≠ p ∧ (st.bodytab q).mass ≠ 0).map fun q =>
    let dr := (st.bodytab q).pos - (st.bodytab p).pos
    let d := dr.normSq + ctx.eps2
    ((st.bodytab q).mass / (d * B.sqrt d)) • dr).sum

omit [LinearOrder R] in
theorem mw_sqrv_eq (v : Vec3 R) : mw_sqrv v = v.normSq := by
  simp only [mw_sqrv, Vec3.normSq]
  ring

omit [LinearOrder R] in
theorem monopole_eq (B : Build R) (ctx : NBodyCtx R) (m : R) (dr : Vec3 R) :
    monopole B ctx m dr =
      (m / ((dr.normSq + ctx.eps2) * B.sqrt (dr.normSq + ctx.eps2))) • dr := by
  simp only [monopole, mw_sqrv_eq]
  rw [div_div, mul_comm]

omit [LinearOrder R] in
theorem monopole_here (B : Build R) (ctx : NBodyCtx R) (m : R) : monopole B ctx m 0 = 0 := by
  rw [monopole_eq, smul_zero]

theorem sum_map_filter {α A : Type*} [AddCommMonoid A] (l : List α) (keep : α → Bool) (f : α → A)
    (h : ∀ x ∈ l, keep x = false → f x = 0) : ((l.filter keep).map f).sum = (l.map f).sum := by
  induction l with
  | nil => rfl
  | cons x l ih =>
      obtain ⟨hx, hl⟩ := List.forall_mem_cons.mp h
      cases hk : keep x with
      | true => rw [List.filter_cons_of_pos hk, List.map_cons, List.sum_cons, ih hl,
          List.map_cons, List.sum_cons]
      | false => rw [List.filter_cons_of_neg (by simp [hk]), ih hl, List.map_cons, List.sum_cons,
          hx hk, zero_add]

theorem foldl_add_eq {α A : Type*} [AddCommMonoid A] (l : List α) (f : α → A) (a : A) :
    l.foldl (fun a x => a + f x) a = a + (l.map f).sum := by
  induction l generalizing a with
  | nil => simp
  | cons x l ih => rw [List.foldl_cons, ih, List.map_cons, List.sum_cons, add_assoc]

theorem nbGravity_Exact_eq (B : Build R) (ctx : NBodyCtx R) (st : TreeState R) (p : ℕ) :
    nbGravity_Exact B ctx st p = directSum B ctx st p := by
  rw [nbGravity_Exact, foldl_add_eq, zero_add, directSum]
  simp only [monopole_eq]
  refine (sum_map_filter _ _ _ fun q _ out => ?_).symm
  rw [decide_eq_false_iff_not, not_and_or, not_not, not_not] at out
  rcases out with rfl | massless
  · rw [sub_self, smul_zero]
  · rw [massless, zero_div, zero_smul]

theorem directSum_congr {B : Build R} {ctx : NBodyCtx R} {st st' : TreeState R}
    (nbody : st'.nbody = st.nbody)
    (body : ∀ b, (st'.bodytab b).mass = (st.bodytab b).mass ∧
      (st'.bodytab b).pos = (st.bodytab b).pos) (p : ℕ) :
    directSum B ctx st' p = directSum B ctx st p := by
  simp only [directSum, nbody, (body _).1, (body _).2]

theorem foldl_leaves (B : Build R) (ctx : NBodyCtx R) (st : TreeState R) (p : ℕ) (l : List ℕ)
    (s : Vec3 R × Bool) :
    (l.foldl (fun s b => scanNode B ctx st p s (.leaf b)) s).1 = s.1 +
      ((l.filter fun b => b ≠ p).map fun b => monopole B ctx (st.bodytab b).mass
        ((st.bodytab b).pos - (st.bodytab p).pos)).sum := by
  induction l generalizing s with
  | nil => simp
  | cons b l ih =>
      rw [List.foldl_cons, ih]
      by_cases hb : b = p
      · subst hb
        simp [scanNode, visitNode]
      · simp [scanNode, visitNode, hb, add_assoc]

variable [IsStrictOrderedRing R]

theorem isOpened_of_theta {B : Build R} {ctx : NBodyCtx R} {st : TreeState R} {c : ℕ} {p : Vec3 R}
    (theta : ctx.theta = 0) (rsize : 0 < st.tree.rsize)
    (inside : (Cube.mk 0 st.tree.rsize).Contains (st.heap c).pos)
    (hp : (Cube.mk 0 st.tree.rsize).Contains p) {Q : Cube R}
    (rcrit2 : findRCrit B ctx Q.center st.tree.rsize (st.heap c).pos Q.size =
      some (st.heap c).rcrit2) : isOpened st p c = true := by
  rw [findRCrit, theta, if_pos (by simp), Option.some.injEq] at rcrit2
  have two : (2.0 : R) = 2 := by norm_num
  have near := Cube.normSq_sub_lt ⟨0, st.tree.rsize⟩ p (st.heap c).pos rsize hp inside
  rw [isOpened, ← rcrit2, mw_sqrv_eq, sqr, two, Bool.not_eq_true', decide_eq_false_iff_not, not_le]
  exact near

omit [LinearOrder R] [IsStrictOrderedRing R] in
theorem addQuadrupole_here (B : Build R) (ctx : NBodyCtx R) (Q : NBodyQuadMatrix R)
    (acc : Vec3 R) : addQuadrupole B ctx Q 0 acc = acc := by
  ext <;> simp [addQuadrupole]

omit [LinearOrder R] [IsStrictOrderedRing R] in
theorem nbGravity_of_loop [LE R] [DecidableLE R] {B : Build R} {ctx : NBodyCtx R}
    {st : TreeState R} {p fuel : ℕ} {s : Vec3 R × Bool}
    (loop : nbGravityLoop B ctx st p fuel st.tree.root (0, false) = some s) :
    ∃ st', nbGravity B ctx fuel st p = some (s.1, st') := by
  rw [nbGravity, loop]
  exact ⟨_, rfl⟩

omit [IsStrictOrderedRing R] in
theorem nbGravity_opened {B : Build R} {ctx : NBodyCtx R} {fuel : ℕ} {st st' : TreeState R}
    {c p : ℕ} {T : Octree ℕ ℕ} (built : Built B ctx fuel st st' c T) (loaded : T.leaves ≠ [])
    (opened : ∀ d ∈ T.cells, isOpened st' (st'.bodytab p).pos d = (fun _ => true) d) :
    ∃ fuel' st'', nbGravity B ctx fuel' st' p = some (directSum B ctx st p, st'') := by
  have body : ∀ b, (st'.bodytab b).mass = (st.bodytab b).mass ∧
      (st'.bodytab b).pos = (st.bodytab b).pos := fun b => by
    rw [built.body b]
    exact ⟨rfl, rfl⟩
  have root : st'.tree.root = T.entry .null := by
    obtain ⟨sub, rfl⟩ := built.isRoot
    exact built.root
  have walk := (links st').walk_threaded (isOpened st' (st'.bodytab p).pos) (scanNode B ctx st' p)
    T .null 1 (0, false) (built.linked.threaded loaded)
  rw [Links.walk, Octree.visits_congr opened,
    Octree.foldl_visits_all T _ _ fun d hd s => by rw [scanNode, opened d hd, if_pos rfl],
    ← nbGravityLoop_eq, ← root] at walk
  obtain ⟨st'', run⟩ := nbGravity_of_loop walk
  refine ⟨_, st'', run.trans ?_⟩
  rw [foldl_leaves, zero_add, ← directSum_congr built.nbody body p, directSum]
  have perm := (built.leaves.filter fun b => decide (b ≠ p)).map fun b =>
    monopole B ctx (st'.bodytab b).mass ((st'.bodytab b).pos - (st'.bodytab p).pos)
  rw [perm.sum_eq, List.filter_filter, built.nbody]
  simp only [monopole_eq, (body _).1]
  congr 4
  refine List.filter_congr fun b _ => ?_
  simp [bne, beq_eq_decide]

theorem nbGravity_point {B : Build R} {ctx : NBodyCtx R} {fuel : ℕ} {st st' : TreeState R}
    {c p : ℕ} {T : Octree ℕ ℕ} (built : Built B ctx fuel st st' c T) (theta : ctx.theta = 0)
    (rsize : st'.tree.rsize = 0)
    (inside : ∀ i < st.nbody, (Cube.mk 0 st'.tree.rsize).Contains (st.bodytab i).pos)
    (weighed : T.EachCell (Weighed B ctx st') ⟨0, st'.tree.rsize⟩) (hp : p < st.nbody) :
    ∃ fuel' st'', nbGravity B ctx fuel' st' p = some (directSum B ctx st p, st'') := by
  obtain ⟨sub, rfl⟩ := built.isRoot
  have origin : ∀ v : Vec3 R, (Cube.mk 0 st'.tree.rsize).Contains v → v = 0 := by
    intro v ⟨hx, hy, hz⟩
    simp only [rsize, zero_div, abs_nonpos_iff, Vec3.zero_x, Vec3.zero_y, Vec3.zero_z,
      sub_zero] at hx hy hz
    ext <;> assumption
  have top : (st'.heap c).pos = 0 := origin _ weighed.1.inside
  have body : (st'.bodytab p).pos = 0 := by
    rw [built.body p]
    exact origin _ (inside p hp)
  have next : (st'.heap c).next = .null := by
    by_cases loaded : (Octree.cell c sub).leaves = []
    · exact (built.linked.bare loaded).2.1
    · exact (built.linked.threaded loaded).1
  have rcrit2 := weighed.1.rcrit2
  rw [findRCrit, theta, if_pos (by simp), Option.some.injEq, rsize] at rcrit2
  have closed : isOpened st' (st'.bodytab p).pos c = false := by
    simp [isOpened, ← rcrit2, top, body, sqr, mw_sqrv]
  have loop : nbGravityLoop B ctx st' p 2 st'.tree.root (0, false) = some (0, false) := by
    rw [built.root, nbGravityLoop, closed, if_neg (by decide), next, nbGravityLoop, visitNode]
    simp only [top, body, sub_self, monopole_here, addQuadrupole_here, add_zero, ite_self]
  obtain ⟨st'', run⟩ := nbGravity_of_loop loop
  refine ⟨2, st'', run.trans ?_⟩
  have zero : directSum B ctx st p = 0 := by
    refine List.sum_eq_zero fun v hv => ?_
    obtain ⟨q, hq, rfl⟩ := List.mem_map.mp hv
    have hq := List.mem_range.mp (List.mem_filter.mp hq).1
    rw [origin _ (inside q hq), origin _ (inside p hp), sub_self, smul_zero]
  rw [zero]

omit [IsStrictOrderedRing R] in
theorem nbGravity_wild {B : Build R} {ctx : NBodyCtx R} {st : TreeState R} {c p : ℕ}
    (root : st.tree.root = .cell c) (more : (st.heap c).more = .wild)
    (opened : isOpened st (st.bodytab p).pos c = true) (fuel : ℕ) :
    nbGravity B ctx fuel st p = none := by
  have loop : nbGravityLoop B ctx st p fuel st.tree.root (0, false) = none := by
    rw [root]
    cases fuel with
    | zero => rfl
    | succ fuel =>
        rw [nbGravityLoop, opened, if_pos rfl, more]
        cases fuel <;> rfl
  rw [nbGravity, loop]
  rfl

theorem nbMakeTree_opened {B : Build R} {ctx : NBodyCtx R} {st st' : TreeState R} {p : ℕ}
    {T : Octree ℕ ℕ} (theta : ctx.theta = 0) (rsize : st'.tree.rsize ≠ 0)
    (inside : (Cube.mk 0 st'.tree.rsize).Contains (st.bodytab p).pos)
    (pos : (st'.bodytab p).pos = (st.bodytab p).pos)
    (weighed : T.EachCell (Weighed B ctx st') ⟨0, st'.tree.rsize⟩) :
    ∀ d ∈ T.cells, isOpened st' (st'.bodytab p).pos d = true := by
  have positive : 0 < st'.tree.rsize := by
    have half := (abs_nonneg _).trans inside.1
    simp only at half
    exact lt_of_le_of_ne (by linarith) (Ne.symm rsize)
  have contained := Octree.EachCell.contained (P := fun a => (st'.heap a).pos)
    (weighed.imp fun _ _ _ _ w => w.inside)
  rw [pos]
  intro d hd
  refine (weighed.imp (fun Q d _ hd w => ?_) : T.EachCell (fun _ d _ =>
    isOpened st' (st.bodytab p).pos d = true) _).forall d hd
  exact isOpened_of_theta theta positive (contained d hd) inside w.rcrit2

theorem nbGravity_massless {B : Build R} {ctx : NBodyCtx R} {fuel : ℕ} {st st' : TreeState R}
    (reach : Reachable B st) (theta : ctx.theta = 0) (rsize : st.tree.rsize ≠ 0)
    (massless : ∀ q < st.nbody, (st.bodytab q).mass = 0)
    (run : nbMakeTree B ctx fuel st = some (.success, st')) {p : ℕ} (hp : p < st.nbody)
    (fuel' : ℕ) : nbGravity B ctx fuel' st' p = none := by
  obtain ⟨c, T, built, -, zero, inside, -, -, weighed⟩ :=
    nbMakeTree_weighed reach (fun q hq => (massless q hq).ge) run
  have none : T.leaves = [] := by
    by_contra some_
    obtain ⟨q, hq, massive⟩ := built.leaves_ne_nil.mp some_
    rw [bne_iff_ne] at massive
    exact massive (massless q hq)
  obtain ⟨bare, -, more⟩ := built.linked.bare none
  have opened := nbMakeTree_opened theta (mt zero.mp rsize) (inside p hp)
    (by rw [built.body p]) weighed
  exact nbGravity_wild built.root more (opened c (by rw [bare]; simp)) fuel'

/-- With opening angle zero the tree force on a body is the direct sum over the other
massive bodies, which is what the exact routine returns, exactly if there is a massive
body at all, or else the root has size zero. -/
theorem nbGravity_iff (B : Build R) (ctx : NBodyCtx R) (fuel : ℕ) (st st' : TreeState R)
    (reach : Reachable B st) (nonneg : ∀ i < st.nbody, 0 ≤ (st.bodytab i).mass)
    (theta : ctx.theta = 0) (run : nbMakeTree B ctx fuel st = some (.success, st'))
    (p : ℕ) (hp : p < st.nbody) :
    ((∃ fuel' st'', nbGravity B ctx fuel' st' p = some (directSum B ctx st p, st'')) ∧
        nbGravity_Exact B ctx st' p = directSum B ctx st p) ↔
      (∃ q < st.nbody, (st.bodytab q).mass ≠ 0) ∨ st.tree.rsize = 0 := by
  obtain ⟨c, T, built, -, zero, inside, -, -, weighed⟩ := nbMakeTree_weighed reach nonneg run
  have body : ∀ b, (st'.bodytab b).mass = (st.bodytab b).mass ∧
      (st'.bodytab b).pos = (st.bodytab b).pos := fun b => by
    rw [built.body b]
    exact ⟨rfl, rfl⟩
  have exact_ : nbGravity_Exact B ctx st' p = directSum B ctx st p :=
    (nbGravity_Exact_eq B ctx st' p).trans (directSum_congr built.nbody body p)
  rw [and_iff_left exact_]
  by_cases point : st.tree.rsize = 0
  · exact iff_of_true (nbGravity_point built theta (zero.mpr point) inside weighed hp) (.inr point)
  · rw [or_iff_left point]
    constructor
    · rintro ⟨fuel', st'', run'⟩
      by_contra none
      have massless : ∀ q < st.nbody, (st.bodytab q).mass = 0 := fun q hq => by
        by_contra massive
        exact none ⟨q, hq, massive⟩
      rw [nbGravity_massless reach theta point massless run hp] at run'
      cases run'
    · rintro ⟨q, hq, massive⟩
      refine nbGravity_opened built (built.leaves_ne_nil.mpr ⟨q, hq, bne_iff_ne.mpr massive⟩) ?_
      exact nbMakeTree_opened theta (mt zero.mp point) (inside p hp) (body p).2 weighed

theorem nbGravity_iff_pair : ∃ st', nbMakeTree rowBuild rowCtx 9 (rowState 2 1) =
      some (.success, st') ∧
    (((∃ fuel' st'', nbGravity rowBuild rowCtx fuel' st' 0 =
          some (directSum rowBuild rowCtx (rowState 2 1) 0, st'')) ∧
        nbGravity_Exact rowBuild rowCtx st' 0 = directSum rowBuild rowCtx (rowState 2 1) 0) ↔
      (∃ q < 2, ((rowState 2 1).bodytab q).mass ≠ 0) ∨ (rowState 2 1).tree.rsize = 0) := by
  obtain ⟨st', run⟩ := success_of_status (x := nbMakeTree rowBuild rowCtx 9 (rowState 2 1))
    (by decide +kernel)
  exact ⟨st', run, nbGravity_iff rowBuild rowCtx 9 (rowState 2 1) st' (.start ..)
    (fun _ _ => zero_le_one) rfl run 0 (by decide)⟩

/-- A single body without mass: the construction succeeds and the scan never returns. -/
theorem nbGravity_lost : ∃ st', nbMakeTree rowBuild rowCtx 9 (rowState 1 0) =
      some (.success, st') ∧
    ¬ ∃ fuel' st'', nbGravity rowBuild rowCtx fuel' st' 0 =
      some (directSum rowBuild rowCtx (rowState 1 0) 0, st'') := by
  obtain ⟨st', run⟩ := success_of_status (x := nbMakeTree rowBuild rowCtx 9 (rowState 1 0))
    (by decide +kernel)
  refine ⟨st', run, ?_⟩
  rintro ⟨fuel', st'', scan⟩
  rw [nbGravity_massless (.start ..) rfl (by decide +kernel) (fun _ _ => rfl) run (by decide)]
    at scan
  cases scan

end

end MilkyWay.NBody
