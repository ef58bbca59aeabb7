import MilkyWay.Foundation.Moment
import MilkyWay.NBody.Gravity

/-! The quadrupole pass in exact arithmetic. `hackQuad` increments a moment in the storage
its descendents were read from, so each cell starts with what their pointers read as;
`hackQuad_iff` states when the moments are those of the bodies below the cells. -/

namespace MilkyWay.NBody

open Foundation

namespace NBodyQuadMatrix

variable {R : Type}

@[ext] theorem ext {a b : NBodyQuadMatrix R} (xx : a.xx = b.xx) (xy : a.xy = b.xy)
    (xz : a.xz = b.xz) (yy : a.yy = b.yy) (yz : a.yz = b.yz) (zz : a.zz = b.zz) : a = b := by
  cases a
  cases b
  simp_all

instance [Zero R] : Zero (NBodyQuadMatrix R) := ⟨⟨0, 0, 0, 0, 0, 0⟩⟩
instance [Add R] : Add (NBodyQuadMatrix R) := ⟨nbIncAddNBodyQuadMatrix⟩
instance [Neg R] : Neg (NBodyQuadMatrix R) := ⟨fun a => ⟨-a.xx, -a.xy, -a.xz, -a.yy, -a.yz, -a.zz⟩⟩
instance [Mul R] : SMul R (NBodyQuadMatrix R) :=
  ⟨fun m a => ⟨m * a.xx, m * a.xy, m * a.xz, m * a.yy, m * a.yz, m * a.zz⟩⟩

theorem zero_def [Zero R] : (0 : NBodyQuadMatrix R) = ⟨0, 0, 0, 0, 0, 0⟩ := rfl
theorem add_def [Add R] (a b : NBodyQuadMatrix R) : a + b =
    ⟨a.xx + b.xx, a.xy + b.xy, a.xz + b.xz, a.yy + b.yy, a.yz + b.yz, a.zz + b.zz⟩ := rfl
theorem neg_def [Neg R] (a : NBodyQuadMatrix R) :
    -a = ⟨-a.xx, -a.xy, -a.xz, -a.yy, -a.yz, -a.zz⟩ := rfl
theorem smul_def [Mul R] (m : R) (a : NBodyQuadMatrix R) :
    m • a = ⟨m * a.xx, m * a.xy, m * a.xz, m * a.yy, m * a.yz, m * a.zz⟩ := rfl

instance [AddCommGroup R] : AddCommGroup (NBodyQuadMatrix R) where
  add_assoc a b c := by ext <;> simp [add_def, add_assoc]
  zero_add a := by ext <;> simp [zero_def, add_def]
  add_zero a := by ext <;> simp [zero_def, add_def]
  add_comm a b := by ext <;> simp [add_def, add_comm]
  neg_add_cancel a := by ext <;> simp [zero_def, add_def, neg_def]
  nsmul := nsmulRec
  zsmul := zsmulRec

instance [CommRing R] : Module R (NBodyQuadMatrix R) where
  one_smul a := by ext <;> simp [smul_def]
  mul_smul m n a := by ext <;> simp [smul_def, mul_assoc]
  smul_zero m := by ext <;> simp [smul_def, zero_def]
  smul_add m a b := by ext <;> simp [smul_def, add_def, mul_add]
  add_smul m n a := by ext <;> simp [smul_def, add_def, add_mul]
  zero_smul a := by ext <;> simp [smul_def, zero_def]

end NBodyQuadMatrix

variable {R : Type} [Field R]

open Foundation.Numerals in
def tracelessMoment (dr : Vec3 R) : NBodyQuadMatrix R where
  xx := 3 * (dr.x * dr.x) - dr.normSq
  xy := 3 * (dr.x * dr.y)
  xz := 3 * (dr.x * dr.z)
  yy := 3 * (dr.y * dr.y) - dr.normSq
  yz := 3 * (dr.y * dr.z)
  zz := 3 * (dr.z * dr.z) - dr.normSq

open Foundation.Numerals in
def tracelessProduct (v w : Vec3 R) : NBodyQuadMatrix R where
  xx := 6 * (v.x * w.x) - 2 * (v.x * w.x + v.y * w.y + v.z * w.z)
  xy := 3 * (v.x * w.y + v.y * w.x)
  xz := 3 * (v.x * w.z + v.z * w.x)
  yy := 6 * (v.y * w.y) - 2 * (v.x * w.x + v.y * w.y + v.z * w.z)
  yz := 3 * (v.y * w.z + v.z * w.y)
  zz := 6 * (v.z * w.z) - 2 * (v.x * w.x + v.y * w.y + v.z * w.z)

/-- The traceless moment is quadratic. -/
def momentMap : QuadraticMap R (Vec3 R) (NBodyQuadMatrix R) where
  toFun := tracelessMoment
  toFun_smul a v := by
    ext <;> simp [tracelessMoment, Vec3.normSq, NBodyQuadMatrix.smul_def] <;> ring
  exists_companion' := by
    refine ⟨LinearMap.mk₂ R tracelessProduct ?_ ?_ ?_ ?_, ?_⟩
    · intro v v' w
      ext <;> simp [tracelessProduct, NBodyQuadMatrix.add_def] <;> ring
    · intro a v w
      ext <;> simp [tracelessProduct, NBodyQuadMatrix.smul_def] <;> ring
    · intro v w w'
      ext <;> simp [tracelessProduct, NBodyQuadMatrix.add_def] <;> ring
    · intro a v w
      ext <;> simp [tracelessProduct, NBodyQuadMatrix.smul_def] <;> ring
    · intro v w
      ext <;> simp [tracelessMoment, tracelessProduct, Vec3.normSq, NBodyQuadMatrix.add_def] <;>
        ring

theorem pointQuad_eq [CharZero R] (m : R) (dr : Vec3 R) : pointQuad m dr = m • momentMap dr := by
  have three : (3.0 : R) = 3 := by norm_num
  rw [pointQuad, mw_sqrv_eq, three]
  rfl

/-! ## The moments of a tree -/

def slotPtrs : Octree ℕ ℕ → Fin 8 → NodePtr
  | .cell _ sub, i => (sub i).entry .null
  | _, _ => .null

omit [Field R] in
theorem slots_of_represents {heap : ℕ → NBodyCell R} {c : ℕ} {sub : Fin 8 → Octree ℕ ℕ}
    {s : Fin 8 → NodePtr} (rep : ∀ i, Represents heap (sub i) (s i)) :
    slotPtrs (.cell c sub) = s := by
  funext i
  have hi := rep i
  cases hT : sub i with
  | empty =>
      rw [hT] at hi
      simp [slotPtrs, hT, Octree.entry, show s i = .null from hi]
  | leaf b =>
      rw [hT] at hi
      simp [slotPtrs, hT, Octree.entry, show s i = .leaf b from hi]
  | cell d inner =>
      rw [hT] at hi
      simp [slotPtrs, hT, Octree.entry, hi.1]

def nodeQuad (B : Build R) (st : TreeState R) (x : Vec3 R) : Octree ℕ ℕ → NBodyQuadMatrix R
  | .empty => 0
  | .leaf b => pointQuad (st.bodytab b).mass ((st.bodytab b).pos - x)
  | .cell d _ => pointQuad (st.heap d).mass ((st.heap d).pos - x) + quad B st d

def QuadSummed (B : Build R) (st : TreeState R) (c : ℕ) (sub : Fin 8 → Octree ℕ ℕ) : Prop :=
  quad B st c = B.asReal (slotPtrs (.cell c sub)) +
    ((List.finRange 8).map fun i => nodeQuad B st (st.heap c).pos (sub i)).sum

theorem nodeQuad_congr {B : Build R} {st st' : TreeState R} {cells : List ℕ}
    (frame : QuadFrame st st' cells) (x : Vec3 R) (T : Octree ℕ ℕ)
    (out : ∀ a ∈ T.cells, a ∉ cells) : nodeQuad B st' x T = nodeQuad B st x T := by
  have bodytab : st'.bodytab = st.bodytab := by rw [frame.same]
  cases T with
  | empty => rfl
  | leaf b => rw [nodeQuad, nodeQuad, bodytab]
  | cell d sub =>
      have same : st'.heap d = st.heap d := frame.heapOut d (out d (by simp [Octree.cells]))
      rw [nodeQuad, nodeQuad, quad, quad, same]

theorem QuadSummed.congr {B : Build R} {st st' : TreeState R} {cells : List ℕ}
    (frame : QuadFrame st st' cells) {c : ℕ} {sub : Fin 8 → Octree ℕ ℕ}
    (out : ∀ a ∈ (Octree.cell c sub).cells, a ∉ cells) (h : QuadSummed B st c sub) :
    QuadSummed B st' c sub := by
  have same : st'.heap c = st.heap c := frame.heapOut c (out c (by simp [Octree.cells]))
  have below : ∀ i, nodeQuad B st' (st'.heap c).pos (sub i) =
      nodeQuad B st (st.heap c).pos (sub i) := fun i => by
    rw [same]
    exact nodeQuad_congr frame _ _ fun a ha =>
      out a ((Octree.mem_cells_cell c sub a).mpr (.inr ⟨i, ha⟩))
  have own : quad B st' c = quad B st c := by rw [quad, quad, same]
  rw [QuadSummed, own]
  simp only [below]
  exact h

/-! ## The pass -/

theorem sumQuad_eq {B : Build R} {p : ℕ} {q : NodePtr} {own : Option (NBodyQuadMatrix R)}
    {st st' : TreeState R} (run : sumQuad B p q own st = some st') :
    ∃ x m, st.pos q = some x ∧ st.mass q = some m ∧ st' = st.setCell p fun r =>
      { r with stuff := .quad (quad B st p + own.elim (pointQuad m (x - (st.heap p).pos))
        (pointQuad m (x - (st.heap p).pos) + ·)) } := by
  simp only [sumQuad, Option.bind_eq_bind, Option.bind_eq_some_iff, Option.pure_def,
    Option.some.injEq] at run
  obtain ⟨x, hx, m, hm, rfl⟩ := run
  cases own <;> exact ⟨x, m, hx, hm, rfl⟩

structure Gathered (B : Build R) (st : TreeState R) (c : ℕ) (sub : Fin 8 → Octree ℕ ℕ)
    (done : List (Fin 8)) (st₁ : TreeState R) : Prop where
  frame : QuadFrame st st₁ (c :: done.flatMap fun i => (sub i).cells)
  own : quad B st₁ c = quad B st c +
    (done.map fun i => nodeQuad B st₁ (st.heap c).pos (sub i)).sum
  below : ∀ i ∈ done, (sub i).Everywhere (QuadSummed B st₁)

variable {B : Build R} {fuel c : ℕ} {st : TreeState R} {sub : Fin 8 → Octree ℕ ℕ}
  {done : List (Fin 8)} {i : Fin 8} {st₁ st₂ st₃ : TreeState R}

theorem Gathered.count (nodup : (Octree.cell c sub).cells.Nodup) (fresh : i ∉ done)
    (h : Gathered B st c sub done st₁) (frame : QuadFrame st₁ st₃ (sub i).cells)
    (below : (sub i).Everywhere (QuadSummed B st₃))
    (counted : st₂ = st₃.setCell c fun r => { r with
      stuff := .quad (quad B st₃ c + nodeQuad B st₃ (st.heap c).pos (sub i)) }) :
    Gathered B st c sub (done ++ [i]) st₂ := by
  obtain ⟨cOut, nodups, apart⟩ := (Octree.nodup_cells_cell c sub).mp nodup
  have here : QuadFrame st₃ st₂ [c] := by
    subst counted
    refine ⟨rfl, fun a => ?_, fun a ha => ?_⟩
    · by_cases hac : a = c
      · subst hac
        simp
      · simp [Function.update_of_ne hac]
    · simp [Function.update_of_ne (fun e => ha (by simp [e]) : a ≠ c)]
  have whole := frame.trans here
  have others : ∀ j ∈ done, ∀ a ∈ (sub j).cells, a ∉ (sub i).cells ++ [c] := by
    intro j hj a ha m
    rcases List.mem_append.mp m with m | m
    · exact apart j i (fun e => fresh (e ▸ hj)) ha m
    · exact cOut j (List.mem_singleton.mp m ▸ ha)
  have this : ∀ a ∈ (sub i).cells, a ∉ [c] := fun a ha m =>
    cOut i (List.mem_singleton.mp m ▸ ha)
  refine ⟨?_, ?_, ?_⟩
  · refine (h.frame.trans whole).mono fun a ha => ?_
    simp only [List.flatMap_append, List.flatMap_singleton, List.cons_append, List.mem_cons,
      List.mem_append, List.not_mem_nil, or_false] at ha ⊢
    tauto
  · have start : quad B st₃ c = quad B st₁ c := by rw [quad, quad, frame.heapOut c (cOut i)]
    have now : quad B st₂ c = quad B st₃ c + nodeQuad B st₃ (st.heap c).pos (sub i) := by
      subst counted
      simp [quad]
    have before : done.map (fun j => nodeQuad B st₂ (st.heap c).pos (sub j)) =
        done.map fun j => nodeQuad B st₁ (st.heap c).pos (sub j) :=
      List.map_congr_left fun j hj => nodeQuad_congr whole _ _ (others j hj)
    rw [now, start, h.own, List.map_append, List.sum_append, before, List.map_singleton,
      List.sum_singleton, nodeQuad_congr here _ _ this, add_assoc]
  · intro j hj
    rcases List.mem_append.mp hj with hj | hj
    · exact (h.below j hj).imp fun d inner inside summed =>
        summed.congr whole fun a ha => others j hj a (inside a ha)
    · rw [List.mem_singleton.mp hj]
      exact below.imp fun d inner inside summed =>
        summed.congr here fun a ha => this a (inside a ha)

theorem Gathered.step {slots : Fin 8 → NodePtr} (nodup : (Octree.cell c sub).cells.Nodup)
    (hsub : ∀ i, Represents st.heap (sub i) (slots i)) (fresh : i ∉ done)
    (child : ∀ d inner st₂ st₃, sub i = .cell d inner → Represents st₂.heap (sub i) (.cell d) →
      hackQuad B fuel st₂ d = some st₃ → (sub i).Everywhere (QuadSummed B st₃))
    (h : Gathered B st c sub done st₁)
    (turn : (if slots i ≠ .null then quadTurn B (fun st c => hackQuad B fuel st c) c st₁ (slots i)
      else some st₁) = some st₂) : Gathered B st c sub (done ++ [i]) st₂ := by
  obtain ⟨cOut, nodups, apart⟩ := (Octree.nodup_cells_cell c sub).mp nodup
  have before : ∀ a ∈ (sub i).cells, st₁.heap a = st.heap a := by
    intro a ha
    refine h.frame.heapOut a fun m => ?_
    rcases List.mem_cons.mp m with rfl | m
    · exact cOut i ha
    · obtain ⟨j, hj, haj⟩ := List.mem_flatMap.mp m
      exact apart i j (fun e => fresh (e ▸ hj)) ha haj
  have rep : Represents st₁.heap (sub i) (slots i) :=
    (hsub i).congr fun a ha => by rw [before a ha]
  have centre : ∀ {s : TreeState R}, QuadFrame st₁ s (sub i).cells →
      (s.heap c).pos = (st.heap c).pos := fun frame => by
    rw [frame.heapOut c (cOut i), h.frame.heap c]
  cases hT : sub i with
  | empty =>
      rw [hT] at rep
      rw [show slots i = .null from rep, if_neg (by simp), Option.some.injEq] at turn
      subst turn
      refine ⟨h.frame.mono fun a ha => ?_, ?_, ?_⟩
      · rw [List.flatMap_append, List.mem_cons, List.mem_append]
        exact (List.mem_cons.mp ha).imp id .inl
      · simpa [hT, nodeQuad] using h.own
      · intro j hj
        rcases List.mem_append.mp hj with hj | hj
        · exact h.below j hj
        · rw [List.mem_singleton.mp hj, hT]
          trivial
  | leaf b =>
      rw [hT] at rep
      rw [show slots i = .leaf b from rep, if_pos (by simp), quadTurn,
        Option.ite_none_right_eq_some] at turn
      obtain ⟨x, m, hx, hm, rfl⟩ := sumQuad_eq turn.2
      rw [TreeState.pos, Option.some.injEq] at hx
      rw [TreeState.mass, Option.some.injEq] at hm
      refine h.count nodup fresh (QuadFrame.refl _ _) (by rw [hT]; trivial) ?_
      rw [hT, nodeQuad, ← centre (QuadFrame.refl _ _), hx, hm]
      rfl
  | cell d inner =>
      have pointer : slots i = .cell d := by
        rw [hT] at rep
        exact rep.1
      rw [pointer, if_pos (by simp), quadTurn, Option.bind_eq_bind] at turn
      obtain ⟨st₃, deeper, turn⟩ := Option.bind_eq_some_iff.mp turn
      rw [pointer] at rep
      obtain ⟨x, m, hx, hm, rfl⟩ := sumQuad_eq turn
      rw [TreeState.pos, Option.some.injEq] at hx
      rw [TreeState.mass, Option.some.injEq] at hm
      have frame := hackQuad_frame rep (nodups i) deeper
      refine h.count nodup fresh frame (child d inner st₁ st₃ hT rep deeper) ?_
      rw [hT, nodeQuad, ← centre frame, hx, hm]
      rfl

theorem hackQuad_summed {st' : TreeState R} {T : Octree ℕ ℕ}
    (rep : Represents st.heap T (.cell c)) (nodup : T.cells.Nodup)
    (run : hackQuad B fuel st c = some st') : T.Everywhere (QuadSummed B st') := by
  induction T generalizing fuel c st st' with
  | empty => trivial
  | leaf b => trivial
  | cell d sub ih =>
      cases fuel with
      | zero => simp [hackQuad] at run
      | succ fuel =>
          obtain ⟨hcd, s, hs, hsub⟩ := rep
          rw [Ref.cell.injEq] at hcd
          subst hcd
          have nodups := ((Octree.nodup_cells_cell c sub).mp nodup).2.1
          simp only [hackQuad, TreeState.subp, hs, Option.bind_eq_bind, Option.bind_some, occupied,
            List.foldlM_filter, List.foldlM_map] at run
          have gathered : Gathered B st c sub (List.finRange 8) st' := by
            refine foldlM_invariant (Gathered B st c sub) ?_ ?_ run
            · exact ⟨QuadFrame.refl _ _, by simp, by simp⟩
            · intro done i rest st₁ st₂ split inv turn
              have fresh : i ∉ done := fun m => by
                have nodup := List.nodup_finRange 8
                rw [← split] at nodup
                exact (List.nodup_append.mp nodup).2.2 i m i (by simp) rfl
              have turn : (if s i ≠ .null then
                  quadTurn B (fun st c => hackQuad B fuel st c) c st₁ (s i) else some st₁) =
                  some st₂ := by simpa using turn
              exact inv.step nodup hsub fresh (fun d inner st₂ st₃ _ rep deeper =>
                ih i rep (nodups i) deeper) turn
          refine ⟨?_, fun i => gathered.below i (List.mem_finRange i)⟩
          have centre : (st'.heap c).pos = (st.heap c).pos := by rw [gathered.frame.heap c]
          have start : quad B st c = B.asReal (slotPtrs (.cell c sub)) := by
            rw [quad, hs, slots_of_represents hsub]
          rw [QuadSummed, gathered.own, start, centre]

/-! ## The bodies below a cell -/

/-- The moment `∑ m (3 dr ⊗ dr - |dr|²)` of bodies about `x`. -/
def bodiesQuad (st : TreeState R) (x : Vec3 R) (bodies : List ℕ) : NBodyQuadMatrix R :=
  secondMoment momentMap (fun b => (st.bodytab b).mass) (fun b => (st.bodytab b).pos) x bodies

/-- The moment stored in a cell is that of the bodies below it about its position. -/
def DirectQuad (B : Build R) (st : TreeState R) (c : ℕ) (sub : Fin 8 → Octree ℕ ℕ) : Prop :=
  quad B st c = bodiesQuad st (st.heap c).pos (Octree.cell c sub).leaves

/-- The pointers of a cell read as zero. -/
def ReadsZero (B : Build R) (c : ℕ) (sub : Fin 8 → Octree ℕ ℕ) : Prop :=
  B.asReal (slotPtrs (.cell c sub)) = 0

structure Centred (st : TreeState R) (c : ℕ) (sub : Fin 8 → Octree ℕ ℕ) : Prop where
  mass : (st.heap c).mass = (Octree.cell c sub).total fun b => (st.bodytab b).mass
  moment : (st.heap c).mass • (st.heap c).pos =
    (Octree.cell c sub).total fun b => (st.bodytab b).mass • (st.bodytab b).pos

theorem bodiesQuad_cell (st : TreeState R) (x : Vec3 R) (c : ℕ)
    (sub : Fin 8 → Octree ℕ ℕ) : bodiesQuad st x (Octree.cell c sub).leaves =
      ((List.finRange 8).map fun i => bodiesQuad st x (sub i).leaves).sum := by
  simp only [bodiesQuad, secondMoment]
  exact Octree.total_cell (fun b => (st.bodytab b).mass • momentMap ((st.bodytab b).pos - x)) c sub

variable [CharZero R]

theorem nodeQuad_eq {B : Build R} {st : TreeState R} (x : Vec3 R) {T : Octree ℕ ℕ}
    (centred : T.Everywhere (Centred st)) (direct : T.Everywhere (DirectQuad B st)) :
    nodeQuad B st x T = bodiesQuad st x T.leaves := by
  cases T with
  | empty => rfl
  | leaf b => simp [nodeQuad, bodiesQuad, Octree.leaves, pointQuad_eq]
  | cell d sub =>
      have steiner := secondMoment_steiner momentMap (fun b => (st.bodytab b).mass)
        (fun b => (st.bodytab b).pos) (st.heap d).pos x (Octree.cell d sub).leaves
        (by
          have moment := centred.1.moment
          rw [centred.1.mass] at moment
          exact moment)
      rw [nodeQuad, direct.1, bodiesQuad, bodiesQuad, steiner, pointQuad_eq, centred.1.mass]
      rfl

theorem everywhere_direct_iff {B : Build R} {st : TreeState R} {T : Octree ℕ ℕ}
    (centred : T.Everywhere (Centred st)) (summed : T.Everywhere (QuadSummed B st)) :
    T.Everywhere (DirectQuad B st) ↔ T.Everywhere (ReadsZero B) := by
  induction T with
  | empty => rfl
  | leaf b => rfl
  | cell c sub ih =>
      have below : (∀ i, (sub i).Everywhere (DirectQuad B st)) ↔
          ∀ i, (sub i).Everywhere (ReadsZero B) :=
        forall_congr' fun i => ih i (centred.2 i) (summed.2 i)
      rw [Octree.Everywhere, Octree.Everywhere, ← below]
      refine and_congr_left fun direct => ?_
      have nodes : (fun i => nodeQuad B st (st.heap c).pos (sub i)) =
          fun i => bodiesQuad st (st.heap c).pos (sub i).leaves :=
        funext fun i => nodeQuad_eq _ (centred.2 i) (direct i)
      rw [DirectQuad, ReadsZero, summed.1, nodes, ← bodiesQuad_cell, add_eq_right]

/-- With quadrupoles, the moments in a tree just made are those of the massive bodies below
its cells exactly if the child pointers of every cell read as zero. -/
theorem hackQuad_iff {R : Type} [Field R] [LinearOrder R] [IsStrictOrderedRing R] (B : Build R)
    (ctx : NBodyCtx R) (fuel : ℕ) (st st' : TreeState R) (reach : Reachable B st)
    (positive : ∀ i < st.nbody, 0 < (st.bodytab i).mass) (useQuad : ctx.useQuad = true)
    (run : nbMakeTree B ctx fuel st = some (.success, st')) :
    ∃ c T, Built B ctx fuel st st' c T ∧
      (T.Everywhere (DirectQuad B st') ↔ T.Everywhere (ReadsZero B)) := by
  obtain ⟨c, T, built, nodup, -, -, -, -, weighed⟩ :=
    nbMakeTree_weighed reach (fun i hi => (positive i hi).le) run
  obtain ⟨st₅, rep, quadPass⟩ := built.slots
  rw [useQuad, if_pos rfl] at quadPass
  have centred : T.Everywhere (Centred st') :=
    weighed.everywhere fun _ _ _ w => ⟨w.mass, w.moment⟩
  exact ⟨c, T, built, everywhere_direct_iff centred (hackQuad_summed rep nodup quadPass)⟩

/-! ## Pointers of eight bytes -/

/-- An address read as a subnormal double: bodies and cells stand somewhere in memory. -/
def pointerReads : NodePtr → ℚ
  | .leaf b => (2 ^ 46 + 112 * b) / 2 ^ 1074
  | .cell c => (2 ^ 45 + 144 * c) / 2 ^ 1074
  | _ => 0

open Foundation.Numerals in
/-- Six of the eight pointers stand where the moment does. -/
def pointerBuild : Build ℚ := { rowBuild with
  asReal := fun s => ⟨pointerReads (s 0), pointerReads (s 1), pointerReads (s 2),
    pointerReads (s 3), pointerReads (s 4), pointerReads (s 5)⟩ }

/-- Two bodies in the last two octants of the root. -/
def lastOctants : TreeState ℚ := { rowState 2 1 with
  bodytab := fun i => { pos := ⟨1, 1, 1 - 2 * i⟩, mass := 1, id := i, vel := 0 } }

theorem hackQuad_iff_lastOctants : ∃ st', nbMakeTree pointerBuild rowCtx 9 lastOctants =
      some (.success, st') ∧
    ∃ c T, Built pointerBuild rowCtx 9 lastOctants st' c T ∧
      (T.Everywhere (DirectQuad pointerBuild st') ↔ T.Everywhere (ReadsZero pointerBuild)) := by
  obtain ⟨st', run⟩ := success_of_status (x := nbMakeTree pointerBuild rowCtx 9 lastOctants)
    (by decide +kernel)
  exact ⟨st', run, hackQuad_iff pointerBuild rowCtx 9 lastOctants st' (.start ..)
    (fun _ _ => zero_lt_one) rfl run⟩

/-- Two bodies in the third and the fifth octant of the root, at one height. -/
def acrossRoot : TreeState ℚ := { rowState 2 1 with
  bodytab := fun i => { pos := ⟨2 * i - 1, 1 - 2 * i, -1⟩, mass := 1, id := i, vel := 0 } }

/-- Nothing is added to the `xz` of the moment of two bodies at one height: what stands
there is the pointer to the first of them, in double precision as in exact arithmetic. -/
theorem hackQuad_pointers : ∃ st', nbMakeTree pointerBuild rowCtx 9 acrossRoot =
      some (.success, st') ∧ st'.tree.root = .cell 0 ∧
    (bodiesQuad st' (st'.heap 0).pos [0, 1]).xz = 0 ∧
    (quad pointerBuild st' 0).xz = pointerReads (.leaf 0) ∧
    quad pointerBuild st' 0 ≠ bodiesQuad st' (st'.heap 0).pos [0, 1] := by
  have run : (nbMakeTree pointerBuild rowCtx 9 acrossRoot).any (fun r =>
      decide (r.1 = .success ∧ r.2.tree.root = .cell 0 ∧
        (bodiesQuad r.2 (r.2.heap 0).pos [0, 1]).xz = 0 ∧
        (quad pointerBuild r.2 0).xz = pointerReads (.leaf 0))) = true := by
    decide +kernel
  obtain ⟨⟨rc, st'⟩, made, here⟩ := exists_of_any run
  obtain ⟨rfl, root, direct, stored⟩ := of_decide_eq_true here
  refine ⟨st', made, root, direct, stored, fun same => ?_⟩
  have zero : pointerReads (.leaf 0) = 0 := by rw [← stored, same, direct]
  exact absurd zero (by decide +kernel)

end MilkyWay.NBody
