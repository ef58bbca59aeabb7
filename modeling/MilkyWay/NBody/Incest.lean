import MilkyWay.NBody.Resume

/-! Tree incest. The walk of a body that opens every cell above it comes to its leaf.
With the criteria that allow for where the centre of mass is, such a cell is opened,
unless the root has size zero or, at opening angle 1, the body is in the corner of the
cell farthest from the centre of mass: `nbGravMap_incest_iff`. -/

namespace MilkyWay.NBody

open Foundation

/-! ## The scan of a body -/

section
variable {R : Type} [Add R] [Sub R] [Mul R] [Div R] [OfScientific R] [LE R] [DecidableLE R]

theorem scanNode_self {B : Build R} {ctx : NBodyCtx R} {st : TreeState R} {p : ℕ}
    (s : Vec3 R × Bool) (q : NodePtr) :
    (scanNode B ctx st p s q).2 = true ↔ s.2 = true ∨ q = .leaf p := by
  cases q with
  | null => simp [scanNode, visitNode]
  | wild => simp [scanNode, visitNode]
  | leaf b =>
      by_cases self : b = p
      · simp [scanNode, visitNode, self]
      · simp [scanNode, visitNode, self]
  | cell c =>
      rw [scanNode]
      split
      · simp
      · simp [visitNode]

theorem foldl_scanNode_self {B : Build R} {ctx : NBodyCtx R} {st : TreeState R} {p : ℕ}
    (l : List NodePtr) (s : Vec3 R × Bool) :
    (l.foldl (scanNode B ctx st p) s).2 = true ↔ s.2 = true ∨ .leaf p ∈ l := by
  induction l generalizing s with
  | nil => simp
  | cons q l ih => rw [List.foldl_cons, ih, scanNode_self, List.mem_cons, or_assoc, @eq_comm _ q]

/-- The walk for the body `p` opens every cell above the body and comes to its leaf. -/
structure MeetsSelf (st : TreeState R) (T : Octree ℕ ℕ) (p : ℕ) : Prop where
  opened : T.Everywhere fun c sub =>
    p ∈ (Octree.cell c sub).leaves → isOpened st (st.bodytab p).pos c = true
  reached : ∃ fuel visited,
    nbWalk st (isOpened st (st.bodytab p).pos) fuel st.tree.root [] = some visited ∧
      .leaf p ∈ visited

variable [Zero R] [Neg R] [BEq R] [LT R] [DecidableLT R]

omit [Neg R] [Div R] [LT R] [DecidableLT R] in
theorem Built.meetsSelf_iff {B : Build R} {ctx : NBodyCtx R} {fuel : ℕ} {st st' : TreeState R}
    {c p : ℕ} {T : Octree ℕ ℕ} (built : Built B ctx fuel st st' c T) (hp : p ∈ T.leaves) :
    MeetsSelf st' T p ↔ T.Everywhere fun c sub =>
      p ∈ (Octree.cell c sub).leaves → isOpened st' (st'.bodytab p).pos c = true := by
  refine ⟨fun meets => meets.opened, fun opened => ⟨opened, ?_⟩⟩
  have leaves : T.leaves.Nodup := built.leaves.nodup_iff.mpr (List.nodup_range.filter _)
  have loaded : T.leaves ≠ [] := List.ne_nil_of_mem hp
  obtain ⟨fuel', walk⟩ := (built.linked.walk built.isRoot
    (isOpened st' (st'.bodytab p).pos)).mpr (.inl loaded)
  rw [← built.root] at walk
  exact ⟨fuel', _, walk, (Octree.leaf_mem_visits_iff _ T p leaves).mpr ⟨hp, opened⟩⟩

omit [Neg R] [LT R] [DecidableLT R] in
theorem Built.nbGravity_meetsSelf {B : Build R} {ctx : NBodyCtx R} {fuel fuel' : ℕ}
    {st st' st'' : TreeState R} {c p : ℕ} {T : Octree ℕ ℕ} {a : Vec3 R}
    (built : Built B ctx fuel st st' c T) (hp : p ∈ T.leaves) (meets : MeetsSelf st' T p)
    (run : nbGravity B ctx fuel' st' p = some (a, st'')) : st'' = st' := by
  have leaves : T.leaves.Nodup := built.leaves.nodup_iff.mpr (List.nodup_range.filter _)
  have root : st'.tree.root = T.entry .null := by
    obtain ⟨sub, rfl⟩ := built.isRoot
    exact built.root
  simp only [nbGravity, Option.bind_eq_bind, Option.bind_eq_some_iff, Option.pure_def,
    Option.some.injEq, Prod.mk.injEq] at run
  obtain ⟨⟨acc, skipSelf⟩, loop, rfl, rfl⟩ := run
  rw [nbGravityLoop_eq, root] at loop
  have scanned := (links st').walk_threaded_null _ _ T fuel' _ _
    (built.linked.threaded (List.ne_nil_of_mem hp)) loop
  have self : (acc, skipSelf).2 = true := by
    rw [scanned, foldl_scanNode_self]
    exact .inr ((Octree.leaf_mem_visits_iff _ T p leaves).mpr ⟨hp, meets.opened⟩)
  exact if_pos self

end

/-! ## The evaluation of the forces -/

section
variable {R I H : Type} [Zero R] [Add R] [Neg R] [Sub R] [Mul R] [Div R] [OfScientific R] [BEq R]
  [LT R] [DecidableLT R] [LE R] [DecidableLE R] [NatCast R]

omit [BEq R] in
theorem mapForce_treeIncest {W : World R I H} {ctx : NBodyCtx R} {st s : NBodyState R}
    {gravity : ℕ → Option (Vec3 R × Bool)} (run : mapForce W ctx st gravity = some s)
    (none : ∀ p < st.bodytab.length, ∀ r, gravity p = some r → r.2 = false) :
    s.treeIncest = st.treeIncest := by
  rw [mapForce, Option.map_eq_some_iff] at run
  obtain ⟨forces, run, rfl⟩ := run
  have flags : forces.map (fun r => r.2.1) =
      (points st.bodytab).zipIdx.map fun _ => false := by
    refine map_of_mapM run ?_
    rintro ⟨p, i⟩ mem r force
    have index : i < st.bodytab.length := by
      have below := List.snd_lt_of_mem_zipIdx mem
      rw [points, List.length_map] at below
      omega
    simp only [Option.bind_eq_bind, Option.bind_eq_some_iff, Option.pure_def,
      Option.some.injEq] at force
    obtain ⟨⟨a, incest⟩, gravity_, ⟨b, failed⟩, -, rfl⟩ := force
    exact none i index _ gravity_
  have quiet : forces.any (fun r => r.2.1) = false := by
    rw [List.any_eq_false]
    intro r mem
    have flag : r.2.1 ∈ forces.map fun r => r.2.1 := List.mem_map_of_mem mem
    rw [flags, List.mem_map] at flag
    obtain ⟨_, -, same⟩ := flag
    simp [← same]
  show (st.treeIncest || forces.any fun r => r.2.1) = st.treeIncest
  rw [quiet, Bool.or_false]

end

/-! ## Which cells are opened -/

section
variable {R : Type} [Field R] [LinearOrder R]

def centreOfMass (st : TreeState R) (l : List ℕ) : Vec3 R :=
  (l.map fun b => (st.bodytab b).mass).sum⁻¹ •
    (l.map fun b => (st.bodytab b).mass • (st.bodytab b).pos).sum

omit [LinearOrder R] in
theorem centreOfMass_perm (st : TreeState R) {l l' : List ℕ} (h : l.Perm l') :
    centreOfMass st l = centreOfMass st l' := by
  rw [centreOfMass, centreOfMass, (h.map _).sum_eq, (h.map _).sum_eq]

omit [LinearOrder R] in
theorem centreOfMass_single (st : TreeState R) {b : ℕ} (massive : (st.bodytab b).mass ≠ 0) :
    centreOfMass st [b] = (st.bodytab b).pos := by
  simp only [centreOfMass, List.map_singleton, List.sum_singleton, smul_smul,
    inv_mul_cancel₀ massive, one_smul]

def Borderline (ctx : NBodyCtx R) (Q : Cube R) (cm p : Vec3 R) : Prop :=
  ctx.criterion = .sw93 ∧ ctx.theta = 1 ∧ Q.FarCorner cm p

instance (ctx : NBodyCtx R) (Q : Cube R) (cm p : Vec3 R) : Decidable (Borderline ctx Q cm p) :=
  inferInstanceAs (Decidable (_ ∧ _ ∧ _))

variable [IsStrictOrderedRing R]

theorem not_borderline_self {ctx : NBodyCtx R} {Q : Cube R} {p : Vec3 R} (size : 0 < Q.size) :
    ¬Borderline ctx Q p p := by
  rintro ⟨-, -, far, -⟩
  rw [sub_self, abs_zero] at far
  have offset := abs_nonneg (p.x - Q.center.x)
  linarith

/-- A square root from above, and nothing for nothing. -/
structure RootAbove (sqrt : R → R) : Prop where
  nonneg : ∀ x, 0 ≤ x → 0 ≤ sqrt x
  above : ∀ x, 0 ≤ x → x ≤ sqrt x * sqrt x
  zero : sqrt 0 = 0

/-- The criteria that allow for the offset of the centre of mass, and an opening angle
that the checks of the context accept. -/
structure Guarded (ctx : NBodyCtx R) : Prop where
  criterion : ctx.criterion = .treeCode ∨ ctx.criterion = .sw93
  nonneg : 0 ≤ ctx.theta
  le_one : ctx.theta ≤ 1

theorem isOpened_iff {B : Build R} {ctx : NBodyCtx R} {st : TreeState R} {c : ℕ} {p : Vec3 R}
    {Q : Cube R} (root : RootAbove B.sqrt) (guarded : Guarded ctx) (rsize : 0 < st.tree.rsize)
    (size : 0 < Q.size) (here : (Cube.mk 0 st.tree.rsize).Contains p)
    (inside : (Cube.mk 0 st.tree.rsize).Contains (st.heap c).pos) (hp : Q.Contains p)
    (rcrit2 : findRCrit B ctx Q.center st.tree.rsize (st.heap c).pos Q.size =
      some (st.heap c).rcrit2) :
    isOpened st p c = true ↔ ¬Borderline ctx Q (st.heap c).pos p := by
  by_cases exact_ : ctx.theta = 0
  · have always := isOpened_of_theta exact_ rsize inside here rcrit2
    refine iff_of_true always fun border => ?_
    exact zero_ne_one (exact_.symm.trans border.2.1)
  · have positive : 0 < ctx.theta := lt_of_le_of_ne guarded.nonneg (Ne.symm exact_)
    rw [isOpened, Bool.not_eq_true', decide_eq_false_iff_not, mw_sqrv_eq, not_le]
    rw [findRCrit, if_neg (by simpa using exact_)] at rcrit2
    rcases guarded.criterion with treeCode | sw93
    · rw [treeCode, Option.some.injEq] at rcrit2
      refine iff_of_true ?_ fun border => ?_
      · have square : sqr ((st.heap c).pos.x - Q.center.x) + sqr ((st.heap c).pos.y - Q.center.y) +
            sqr ((st.heap c).pos.z - Q.center.z) = ((st.heap c).pos - Q.center).normSq := rfl
        have normSq : 0 ≤ ((st.heap c).pos - Q.center).normSq :=
          add_nonneg (add_nonneg (mul_self_nonneg _) (mul_self_nonneg _)) (mul_self_nonneg _)
        have offset := root.nonneg _ normSq
        have near := Q.normSq_sub_lt_offset (st.heap c).pos p _ size hp offset
          (root.above _ normSq)
        have wider : Q.size ≤ Q.size / ctx.theta := by
          rw [le_div_iff₀ positive]
          exact mul_le_of_le_one_right size.le guarded.le_one
        rw [← rcrit2, mw_distv, square, sqr]
        refine near.trans_le (mul_self_le_mul_self (by positivity) ?_)
        exact add_le_add_left wider _
      · rw [border.1] at treeCode
        cases treeCode
    · rw [sw93, Option.some.injEq, calcSW93MaxDist2_eq] at rcrit2
      have farthest := Q.farthestSq_pos (st.heap c).pos size
      rw [← rcrit2, sqr]
      by_cases whole : ctx.theta = 1
      · rw [whole, mul_one, div_one, ← not_le, Q.farthestSq_le_iff _ _ hp]
        exact not_congr ⟨fun far => ⟨sw93, whole, far⟩, fun border => border.2.2⟩
      · have below : ctx.theta < 1 := lt_of_le_of_ne guarded.le_one whole
        refine iff_of_true ?_ fun border => whole border.2.1
        refine (Q.normSq_sub_le_farthestSq _ _ hp).trans_lt ?_
        rw [lt_div_iff₀ (by positivity)]
        exact mul_lt_of_lt_one_right farthest (mul_lt_one_of_nonneg_of_lt_one_left positive.le
          below below.le)

/-! ## The whole tree -/

omit [IsStrictOrderedRing R] in
theorem nbMakeTree_expanded {B : Build R} {ctx : NBodyCtx R} {fuel : ℕ} {st st' : TreeState R}
    (ok : TreeOk st) (run : nbMakeTree B ctx fuel st = some (.success, st')) :
    expandLoop (xyzmax st 0) fuel st.tree.rsize = some st'.tree.rsize := by
  obtain ⟨st₁, st₂, st₃, new, expand, -⟩ := nbMakeTree_stages run
  obtain ⟨c₁, -, -, -, bodies₁, tree₁, pos₁, -⟩ := nbNewTree_spec ok new
  rw [nbMakeTree_rsize ok run new expand]
  obtain ⟨o, r, ho, loop, rfl⟩ := expandBox_eq expand
  rw [tree₁, TreeState.pos, Option.some.injEq, pos₁] at ho
  subst ho
  have range : xyzmax st₁ 0 = xyzmax st 0 := by
    simp only [xyzmax, bodies₁.bodytab, bodies₁.nbody]
  rw [range, tree₁] at loop
  exact loop

/-- No body is where a cell is only just not opened, in any cell that halving a root of
size `r` makes. -/
def NoBorderline (ctx : NBodyCtx R) (st : TreeState R) (r : R) : Prop :=
  ∀ Q l, Cube.Part (fun b => (st.bodytab b).pos) ⟨0, r⟩ (List.range st.nbody) Q l →
    ∀ b ∈ l, ¬Borderline ctx Q (centreOfMass st l) (st.bodytab b).pos

theorem eachCell_sized {T : Octree ℕ ℕ} {Q : Cube R} (size : 0 < Q.size) :
    T.EachCell (fun Q _ _ => 0 < Q.size) Q := by
  induction T generalizing Q with
  | empty => trivial
  | leaf b => trivial
  | cell c sub ih => exact ⟨size, fun i => ih i (half_pos size)⟩

theorem eq_zero_of_contains {r : R} (flat : r = 0) {v : Vec3 R}
    (h : (Cube.mk 0 r).Contains v) : v = 0 := by
  obtain ⟨hx, hy, hz⟩ := h
  simp only [flat, zero_div, abs_nonpos_iff, Vec3.zero_x, Vec3.zero_y, Vec3.zero_z, sub_zero]
    at hx hy hz
  ext <;> assumption

theorem findRCrit_point {B : Build R} {ctx : NBodyCtx R} (root : RootAbove B.sqrt)
    (guarded : Guarded ctx) : findRCrit B ctx (0 : Vec3 R) 0 0 0 = some 0 := by
  by_cases exact_ : ctx.theta = 0
  · simp [findRCrit, exact_, sqr]
  · rw [findRCrit, if_neg (by simpa using exact_)]
    rcases guarded.criterion with treeCode | sw93
    · simp [treeCode, mw_distv, sqr, root.zero]
    · have side := calcSW93MaxDist2_eq (Cube.mk (0 : Vec3 R) 0) 0
      simp only at side
      simp [sw93, side, Cube.farthestSq]

theorem nbMakeTree_meetsSelf_iff {B : Build R} {ctx : NBodyCtx R} {fuel : ℕ}
    {st st' : TreeState R} (root : RootAbove B.sqrt) (guarded : Guarded ctx)
    (reach : Reachable B st) (positive : ∀ i < st.nbody, 0 < (st.bodytab i).mass)
    (run : nbMakeTree B ctx fuel st = some (.success, st')) :
    ∃ c T, Built B ctx fuel st st' c T ∧ (∀ p, p ∈ T.leaves ↔ p < st.nbody) ∧
      ((∀ p < st.nbody, MeetsSelf st' T p) ↔
        (0 < st.nbody → st.tree.rsize ≠ 0) ∧ NoBorderline ctx st st'.tree.rsize) := by
  obtain ⟨c, T, built, nodup, zero, box, ⟨P, placed, sorts⟩, inside, weighed⟩ :=
    nbMakeTree_weighed reach (fun i hi => (positive i hi).le) run
  have all : ((List.range st.nbody).filter fun b => (st.bodytab b).mass != 0) =
      List.range st.nbody := by
    refine List.filter_eq_self.mpr fun b hb => ?_
    exact bne_iff_ne.mpr (positive b (List.mem_range.mp hb)).ne'
  have perm : (List.range st.nbody).Perm T.leaves := by
    have leaves := built.leaves
    rw [all] at leaves
    exact leaves.symm
  have mem : ∀ p, p ∈ T.leaves ↔ p < st.nbody := fun p => by
    rw [← perm.mem_iff, List.mem_range]
  have pos : ∀ b, (st'.bodytab b).pos = (st.bodytab b).pos := fun b => by rw [built.body b]
  have mass : ∀ b, (st'.bodytab b).mass = (st.bodytab b).mass := fun b => by rw [built.body b]
  refine ⟨c, T, built, mem, ?_⟩
  have opened : (∀ p < st.nbody, MeetsSelf st' T p) ↔
      T.EachCell (fun _ d U => ∀ b ∈ U.leaves, isOpened st' (st.bodytab b).pos d = true)
        ⟨0, st'.tree.rsize⟩ := by
    rw [Octree.eachCell_iff_everywhere, Octree.everywhere_forall]
    refine forall_congr' fun p => ?_
    by_cases hp : p < st.nbody
    · rw [built.meetsSelf_iff ((mem p).mpr hp), pos p]
      exact ⟨fun h => h hp, fun h _ => h⟩
    · refine iff_of_true (fun h => absurd h hp) ?_
      exact Octree.everywhere_of_notMem fun h => hp ((mem p).mp h)
  rw [opened]
  rcases Nat.eq_zero_or_pos st.nbody with none | some_
  · have noLeaf : T.leaves = [] := by
      rw [none, List.range_zero] at perm
      exact (List.nil_perm.mp perm)
    refine iff_of_true ?_ ⟨fun h => absurd none h.ne', fun Q l part b hb => ?_⟩
    · rw [(built.linked.bare noLeaf).1]
      exact ⟨fun b hb => by simp at hb, fun _ => trivial⟩
    · rw [none] at part
      have sub := part.sublist.subset hb
      simp at sub
  have half := (abs_nonneg _).trans (box 0 some_).1
  simp only at half
  by_cases point : st.tree.rsize = 0
  · -- the root of size zero is never opened
    refine iff_of_false (fun each => ?_) fun h => h.1 some_ point
    obtain ⟨sub, rfl⟩ := built.isRoot
    have flat := zero.mpr point
    have body : (st.bodytab 0).pos = 0 := eq_zero_of_contains flat (box 0 some_)
    have top : (st'.heap c).pos = 0 := eq_zero_of_contains flat weighed.1.inside
    have rcrit2 := weighed.1.rcrit2
    simp only [top, flat, findRCrit_point root guarded, Option.some.injEq] at rcrit2
    have opened := each.1 0 ((mem 0).mpr some_)
    rw [isOpened, body, top, ← rcrit2, sub_self] at opened
    simp [mw_sqrv] at opened
  · have size : 0 < st'.tree.rsize :=
      lt_of_le_of_ne (by linarith) (Ne.symm (mt zero.mp point))
    rw [and_iff_right fun _ => point]
    have isCell : T.isCell := by
      obtain ⟨sub, rfl⟩ := built.isRoot
      rfl
    let φ : Cube R → List ℕ → Prop := fun Q l => ∀ b ∈ l, 0 < (st.bodytab b).mass →
      ¬Borderline ctx Q (centreOfMass st l) (st.bodytab b).pos
    have order : ∀ Q l l', l.Perm l' → φ Q l → φ Q l' := by
      intro Q l l' same h b hb
      rw [← centreOfMass_perm st same]
      exact h b (same.mem_iff.mpr hb)
    have alone : ∀ Q l, 0 < Q.size → l.length ≤ 1 → φ Q l := by
      intro Q l sized few b hb massive
      have single : l = [b] := by
        cases l with
        | nil => cases hb
        | cons a l =>
            have rest : l = [] := List.length_eq_zero_iff.mp (by simpa using few)
            rw [rest, List.mem_singleton] at hb
            rw [rest, hb]
      rw [single, centreOfMass_single st massive.ne']
      exact not_borderline_self sized
    have cells : T.EachCell (fun Q d U =>
        (∀ b ∈ U.leaves, isOpened st' (st.bodytab b).pos d = true) ↔ φ Q U.leaves)
        ⟨0, st'.tree.rsize⟩ := by
      have contained := Octree.EachCell.contained (P := fun a => (st'.heap a).pos)
        (weighed.imp fun _ _ _ _ w => w.inside)
      have members : T.EachCell (fun _ _ U => ∀ b ∈ U.leaves, b < st.nbody)
          ⟨0, st'.tree.rsize⟩ :=
        Octree.eachCell_leaves fun b hb => (mem b).mp hb
      refine (((inside.and weighed).and (eachCell_sized size)).and members).imp ?_
      rintro Q d U hd ⟨⟨⟨within, w⟩, sized⟩, member⟩
      refine forall₂_congr fun b hb => ?_
      have massive : ∀ b ∈ U.leaves, 0 < (st.bodytab b).mass := fun b hb =>
        positive b (member b hb)
      have centre : (st'.heap d).pos = centreOfMass st U.leaves := by
        have total : 0 < U.total fun b => (st.bodytab b).mass :=
          Octree.total_pos massive (List.ne_nil_of_mem hb)
        have moment := w.moment
        simp only [w.mass, mass, pos] at moment
        rw [centreOfMass,
          show (U.leaves.map fun b => (st.bodytab b).mass • (st.bodytab b).pos).sum =
            U.total fun b => (st.bodytab b).mass • (st.bodytab b).pos from rfl,
          ← moment, smul_smul]
        rw [show (U.leaves.map fun b => (st.bodytab b).mass).sum =
          U.total fun b => (st.bodytab b).mass from rfl, inv_mul_cancel₀ total.ne', one_smul]
      have opens := isOpened_iff root guarded size sized (box b (member b hb)) (contained d hd)
        (within b hb) w.rcrit2
      rw [opens, centre, forall_prop_of_true (massive b hb)]
    rw [cells.congr, placed.eachCell_iff_part sorts isCell order alone size perm]
    refine forall₃_congr fun Q l part => forall₂_congr fun b hb => ?_
    have member := List.mem_range.mp (part.sublist.subset hb)
    rw [forall_prop_of_true (positive b member)]

end

/-! ## Two bodies in opposite octants -/

def ratSqrtAbove (x : ℚ) : ℚ := if ratSqrt x * ratSqrt x = x then ratSqrt x else (1 + x) / 2

theorem ratSqrtAbove_above : RootAbove ratSqrtAbove where
  nonneg x hx := by
    unfold ratSqrtAbove ratSqrt
    split <;> positivity
  above x hx := by
    unfold ratSqrtAbove
    split
    · rename_i root
      exact root.ge
    · nlinarith [mul_self_nonneg (1 - x)]
  zero := by decide +kernel

def cornerWorld : World ℚ Unit Unit :=
  { pairWorld with B := { rowBuild with sqrt := ratSqrtAbove } }

def cornerCtx : NBodyCtx ℚ := { rowCtx with theta := 1 }

/-- A light body in a corner of the root and a heavy one in the opposite octant, at `x`
along the diagonal. -/
def cornerState (x : ℚ) : NBodyState ℚ :=
  quietState [{ pos := ⟨-2, -2, -2⟩, mass := 1, vel := 0 },
    { pos := ⟨x, x, x⟩, mass := 3, id := 1, vel := 0 }]

theorem cornerCtx_guarded : Guarded cornerCtx := ⟨.inr rfl, by decide +kernel, by decide +kernel⟩

end MilkyWay.NBody
