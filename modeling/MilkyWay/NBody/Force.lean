import MilkyWay.NBody.State

/-! The accelerations of all bodies. `nbGravMap_again` says when evaluating them once
more, after velocities have changed and the clock has moved on, gives them back. -/

namespace MilkyWay.NBody

open Foundation

variable {R I H : Type} [Zero R] [Add R] [Neg R] [Sub R] [Mul R] [Div R] [OfScientific R] [BEq R]
  [LT R] [DecidableLT R] [LE R] [DecidableLE R] [NatCast R]

def points (bodies : List (Body R)) : List (Vec3 R × R) := bodies.map fun b => (b.pos, b.mass)

/-- The memory a tree of the points is built in; incest is raised in the state. -/
def treeState (st : NBodyState R) : TreeState R where
  tree := ⟨.null, st.rsize, 0, 0, st.structureError⟩
  freeCell := .null
  bodytab i := match (points st.bodytab)[i]? with
    | some p => { pos := p.1, mass := p.2, vel := 0 }
    | none => { pos := 0, mass := 0, vel := 0 }
  nbody := (points st.bodytab).length
  heap _ := ⟨0, .wild, 0, 0, .wild, .subp fun _ => .wild⟩
  heapTop := 0
  treeIncest := false

def barTime (ctx : NBodyCtx R) (st : NBodyState R) : R :=
  (st.step : R) * ctx.timestep - st.previousForwardTime

/-- The position, mass and scale of the satellite, or a massless one. -/
def lmc (ctx : NBodyCtx R) (st : NBodyState R) : Vec3 R × R × R :=
  if ctx.LMC then (st.LMCpos, ctx.LMCmass, ctx.LMCscale) else (⟨0.0, 0.0, 0.0⟩, 0.0, 1.0)

/-- The gravity `a` at `pos` with the external acceleration, and whether the script
that computes it failed. -/
def addExternal (W : World R I H) (ctx : NBodyCtx R) (st : NBodyState R) (pos a : Vec3 R) :
    Option (Vec3 R × Bool) :=
  let (LMCx, lmcmass, lmcscale) := lmc ctx st
  match ctx.potentialType with
  | .default => do
      let ext ← nbExtAcceleration W.L W.K ctx.pot pos (barTime ctx st)
      let externAcc := ext + plummerAccel W.L pos LMCx lmcmass lmcscale
      return (a + externAcc, false)
  | .none => some (a, false)
  | .customLua =>
      let (ext, failed) := W.K.closure pos
      let externAcc := ext + plummerAccel W.L pos LMCx lmcmass lmcscale
      some (a + externAcc, failed)

/-- The force on each body, whether its gravity meets incest and whether its script
fails. -/
def bodyForces (W : World R I H) (ctx : NBodyCtx R) (st : NBodyState R)
    (gravity : ℕ → Option (Vec3 R × Bool)) : Option (List (Vec3 R × Bool × Bool)) :=
  (points st.bodytab).zipIdx.mapM fun (p, i) => do
    let (a, incest) ← gravity i
    let (a, failed) ← addExternal W ctx st p.1 a
    return (a, incest, failed)

def mapForce (W : World R I H) (ctx : NBodyCtx R) (st : NBodyState R)
    (gravity : ℕ → Option (Vec3 R × Bool)) : Option (NBodyState R) :=
  (bodyForces W ctx st gravity).map fun forces => { st with
    acctab := forces.map (·.1)
    treeIncest := st.treeIncest || forces.any (·.2.1)
    potentialEvalError := st.potentialEvalError || forces.any (·.2.2) }

def nbMapForceBody (W : World R I H) (ctx : NBodyCtx R) (st : NBodyState R) (t : TreeState R) :
    Option (NBodyState R) :=
  mapForce W ctx st fun i => (nbGravity W.B ctx W.fuel t i).map fun r => (r.1, r.2.treeIncest)

def nbMapForceBody_Exact (W : World R I H) (ctx : NBodyCtx R) (st : NBodyState R) :
    Option (NBodyState R) :=
  mapForce W ctx st fun i => some (nbGravity_Exact W.B ctx (treeState st) i, false)

def nbIncestStatusCheck (ctx : NBodyCtx R) (st : NBodyState R) : NBodyStatus :=
  if st.treeIncest then
    if ctx.allowIncest then .treeIncestNonfatal else .treeIncestFatal
  else .success

def forceStatus (ctx : NBodyCtx R) (st : NBodyState R) : NBodyStatus :=
  if st.potentialEvalError then .luaPotentialError else nbIncestStatusCheck ctx st

def nbGravMap (W : World R I H) (ctx : NBodyCtx R) (st : NBodyState R) :
    Option (NBodyStatus × NBodyState R) :=
  if ctx.criterion ≠ .exact then do
    let (rc, t) ← nbMakeTree W.B ctx W.fuel (treeState st)
    let st := { st with rsize := t.tree.rsize, structureError := t.tree.structureError }
    if nbStatusIsFatal rc.bits then
      return (rc, st)
    let st ← nbMapForceBody W ctx st t
    return (forceStatus ctx st, st)
  else do
    let st ← nbMapForceBody_Exact W ctx st
    return (forceStatus ctx st, st)

/-! ## Evaluation once more -/

section
omit [Add R] [Neg R] [Sub R] [Div R] [BEq R] [LE R] [DecidableLE R] [NatCast R] [Zero R]

theorem expandLoop_wide {m rsize r : R} {fuel : ℕ} (run : expandLoop m fuel rsize = some r) :
    ¬r < 2.0 * m := by
  induction fuel generalizing rsize with
  | zero => cases run
  | succ fuel ih =>
      rw [expandLoop] at run
      by_cases small : rsize < 2.0 * m
      · rw [if_pos small] at run
        exact ih run
      · rw [if_neg small] at run
        cases run
        exact small

theorem expandLoop_again {m rsize r : R} {fuel : ℕ} (run : expandLoop m fuel rsize = some r) :
    expandLoop m fuel r = some r := by
  have wide := expandLoop_wide run
  cases fuel with
  | zero => cases run
  | succ fuel => rw [expandLoop, if_neg wide]

theorem expandLoop_pos [Zero R] (doubling : ∀ r : R, 0 < r → 0 < r * 2.0) {m rsize r : R}
    {fuel : ℕ} (run : expandLoop m fuel rsize = some r) (pos : 0 < rsize) : 0 < r := by
  induction fuel generalizing rsize with
  | zero => cases run
  | succ fuel ih =>
      rw [expandLoop] at run
      by_cases small : rsize < 2.0 * m
      · rw [if_pos small] at run
        exact ih run (doubling rsize pos)
      · rw [if_neg small] at run
        cases run
        exact pos

end

section
omit [Div R] [NatCast R] [LE R] [DecidableLE R] [Add R]

theorem expandBox_intro {B : Build R} {fuel : ℕ} {st : TreeState R} {root : Vec3 R} {rsize : R}
    (rootPos : st.pos st.tree.root = some root) (assertion : B.ndebug ∨ 0 < st.tree.rsize)
    (loop : expandLoop (xyzmax st root) fuel st.tree.rsize = some rsize) :
    expandBox B fuel st = some (st.setTree fun t => { t with rsize }) := by
  have holds : B.assert (0 < st.tree.rsize) = some () := if_pos assertion
  simp only [expandBox, rootPos, holds, loop, Option.bind_eq_bind, Option.bind_some,
    Option.pure_def]

theorem expandBox_again (doubling : ∀ r : R, 0 < r → 0 < r * 2.0) {B : Build R} {fuel : ℕ}
    {st st' : TreeState R} (run : expandBox B fuel st = some st') :
    expandBox B fuel (st.setTree fun t => { t with rsize := st'.tree.rsize }) = some st' := by
  simp only [expandBox, Option.bind_eq_bind, Option.bind_eq_some_iff, Option.pure_def,
    Option.some.injEq] at run
  obtain ⟨root, hroot, _, positive, rsize, loop, rfl⟩ := run
  have assertion : B.ndebug ∨ 0 < st.tree.rsize := by
    by_contra fails
    rw [Build.assert, if_neg fails] at positive
    cases positive
  exact expandBox_intro hroot
    (assertion.imp id (expandLoop_pos doubling loop)) (expandLoop_again loop)

end

omit [Add R] [Neg R] [Sub R] [Mul R] [Div R] [OfScientific R] [BEq R] [LT R] [DecidableLT R]
  [LE R] [DecidableLE R] [NatCast R] in
theorem nbNewTree_rsize {fuel : ℕ} {st st₁ : TreeState R} (noRoot : st.tree.root = .null)
    (new : nbNewTree fuel st = some st₁) (rsize : R) :
    nbNewTree fuel (st.setTree fun t => { t with rsize }) =
      some (st₁.setTree fun t => { t with rsize }) := by
  obtain ⟨⟨root, size, used, depth, error⟩, freeCell, bodytab, nbody, heap, top, incest⟩ := st
  cases noRoot
  cases fuel with
  | zero => cases new
  | succ fuel =>
      cases freeCell with
      | null => cases new; rfl
      | wild => cases new
      | cell c => cases new; rfl
      | leaf b => cases new

omit [NatCast R] in
theorem nbMakeTree_again (doubling : ∀ r : R, 0 < r → 0 < r * 2.0) {B : Build R}
    {ctx : NBodyCtx R} {fuel : ℕ} {st t : TreeState R} (ok : TreeOk st)
    (noRoot : st.tree.root = .null) (run : nbMakeTree B ctx fuel st = some (.success, t)) :
    t.tree.structureError = false ∧ st.tree.structureError = false ∧
    nbMakeTree B ctx fuel (st.setTree fun s => { s with rsize := t.tree.rsize }) =
      some (.success, t) := by
  obtain ⟨st₁, st₂, st₃, new, expand, load, stages⟩ := nbMakeTree_stages run
  obtain ⟨c, leaked, free, T, from_, -⟩ := nbMakeTree_load ok (fun _ _ => True) new expand
    load (fun _ _ _ => trivial) (fun _ _ _ _ _ _ _ _ _ _ _ _ _ _ => trivial)
  obtain ⟨rc, -⟩ | ⟨noError, d, st₄, root, mass, stages⟩ := stages
  · cases rc
  · rw [from_.loaded.root, Ref.cell.injEq] at root
    subst root
    obtain ⟨rc, -⟩ | ⟨-, noError₄, st₅, thread, quadPass⟩ := stages
    · cases rc
    · obtain ⟨-, links, -, -⟩ := from_.built noError mass thread quadPass
      have rsize : t.tree.rsize = st₂.tree.rsize := by
        rw [links.tree, (hackCofM_frame from_.loaded.rep mass).tree]
        exact from_.loaded.rsize
      refine ⟨?_, ?_, ?_⟩
      · rw [links.tree]
        exact noError₄
      · have error₂ := (from_.loaded.noError noError).1
        obtain ⟨_, _, _, _, rfl⟩ := expandBox_eq expand
        obtain ⟨_, _, _, _, _, tree, _⟩ := nbNewTree_spec ok new
        rw [TreeState.setTree_tree, tree] at error₂
        exact error₂
      · have new' := nbNewTree_rsize noRoot new st₂.tree.rsize
        have expand' := expandBox_again doubling expand
        rw [← run, rsize, nbMakeTree, nbMakeTree, new, new', Option.bind_eq_bind,
          Option.bind_eq_bind, Option.bind_some, Option.bind_some, expand, expand']

/-- No force on a body depends on the time of the bar. -/
def ForceRests (ctx : NBodyCtx R) : Prop :=
  ctx.potentialType ≠ .default ∨ ctx.pot.disk2.type ≠ .orbitingBar

structure SameForces (ctx : NBodyCtx R) (s t : NBodyState R) : Prop where
  rsize : t.rsize = s.rsize
  structureError : t.structureError = s.structureError
  points : points t.bodytab = points s.bodytab
  lmc : lmc ctx t = lmc ctx s
  treeIncest : t.treeIncest = s.treeIncest
  potentialEvalError : t.potentialEvalError = s.potentialEvalError

section
omit [BEq R]

theorem addExternal_congr {W : World R I H} {ctx : NBodyCtx R} {s t : NBodyState R}
    (rests : ForceRests ctx) (satellite : lmc ctx t = lmc ctx s) (pos a : Vec3 R) :
    addExternal W ctx t pos a = addExternal W ctx s pos a := by
  unfold addExternal
  rw [satellite]
  cases h : ctx.potentialType with
  | default =>
      have rests : ctx.pot.disk2.type ≠ .orbitingBar := rests.resolve_left fun ne => ne h
      rw [nbExtAcceleration_time rests pos (barTime ctx t) (barTime ctx s)]
  | none => rfl
  | customLua => rfl

theorem bodyForces_congr {W : World R I H} {ctx : NBodyCtx R} {s t : NBodyState R}
    (rests : ForceRests ctx) (satellite : lmc ctx t = lmc ctx s)
    (same : points t.bodytab = points s.bodytab) (gravity : ℕ → Option (Vec3 R × Bool)) :
    bodyForces W ctx t gravity = bodyForces W ctx s gravity := by
  unfold bodyForces
  rw [same]
  simp only [addExternal_congr rests satellite]

theorem length_bodyForces {W : World R I H} {ctx : NBodyCtx R} {st : NBodyState R}
    {gravity : ℕ → Option (Vec3 R × Bool)} {forces : List (Vec3 R × Bool × Bool)}
    (run : bodyForces W ctx st gravity = some forces) : forces.length = st.bodytab.length := by
  rw [length_of_mapM run, List.length_zipIdx, points, List.length_map]

theorem mapForce_again {W : World R I H} {ctx : NBodyCtx R} {st s t : NBodyState R}
    {gravity : ℕ → Option (Vec3 R × Bool)} (rests : ForceRests ctx)
    (run : mapForce W ctx st gravity = some s) (same : SameForces ctx s t) :
    mapForce W ctx t gravity = some { t with acctab := s.acctab } := by
  rw [mapForce, Option.map_eq_some_iff] at run
  obtain ⟨forces, run, rfl⟩ := run
  have again : bodyForces W ctx t gravity = some forces := by
    rw [bodyForces_congr rests same.lmc same.points gravity]
    rw [← run]
    exact bodyForces_congr rests rfl rfl gravity
  rw [mapForce, again, Option.map_some, Option.some.injEq]
  have incest : t.treeIncest = (t.treeIncest || forces.any (·.2.1)) := by
    rw [same.treeIncest, Bool.or_assoc, Bool.or_self]
  have error : t.potentialEvalError = (t.potentialEvalError || forces.any (·.2.2)) := by
    rw [same.potentialEvalError, Bool.or_assoc, Bool.or_self]
  rw [← incest, ← error]

structure ForceFrame (st s : NBodyState R) : Prop where
  length : s.acctab.length = st.bodytab.length
  rest : s = { st with
    acctab := s.acctab, treeIncest := s.treeIncest, potentialEvalError := s.potentialEvalError }

theorem mapForce_frame {W : World R I H} {ctx : NBodyCtx R} {st s : NBodyState R}
    {gravity : ℕ → Option (Vec3 R × Bool)} (run : mapForce W ctx st gravity = some s) :
    ForceFrame st s := by
  rw [mapForce, Option.map_eq_some_iff] at run
  obtain ⟨forces, run, rfl⟩ := run
  exact ⟨by rw [List.length_map, length_bodyForces run], rfl⟩

end

def treeBox (st : NBodyState R) (t : TreeState R) : NBodyState R :=
  { st with rsize := t.tree.rsize, structureError := t.tree.structureError }

theorem nbGravMap_tree {W : World R I H} {ctx : NBodyCtx R} {st s : NBodyState R}
    {rc : NBodyStatus} (tree : ctx.criterion ≠ .exact)
    (run : nbGravMap W ctx st = some (rc, s)) :
    ∃ rc' t, nbMakeTree W.B ctx W.fuel (treeState st) = some (rc', t) ∧
      (nbStatusIsFatal rc'.bits = true ∧ rc = rc' ∧ s = treeBox st t ∨
        rc' = .success ∧ nbMapForceBody W ctx (treeBox st t) t = some s ∧
          rc = forceStatus ctx s) := by
  rw [nbGravMap, if_pos tree] at run
  simp only [Option.bind_eq_bind, Option.bind_eq_some_iff] at run
  obtain ⟨⟨rc', t⟩, made, run⟩ := run
  refine ⟨rc', t, made, ?_⟩
  have isSuccess : nbStatusIsFatal rc'.bits = true ∨ rc' = .success := by
    obtain ⟨_, _, _, _, _, _, stages⟩ := nbMakeTree_stages made
    obtain ⟨rfl, -⟩ | ⟨-, _, _, _, _, stages⟩ := stages
    · exact .inl rfl
    · obtain ⟨rfl, -⟩ | ⟨rfl, -⟩ := stages
      · exact .inl rfl
      · exact .inr rfl
  obtain fatal | rfl := isSuccess
  · rw [if_pos fatal, Option.pure_def, Option.some.injEq, Prod.mk.injEq] at run
    exact .inl ⟨fatal, run.1.symm, run.2.symm⟩
  · have goesOn : nbStatusIsFatal NBodyStatus.success.bits = false := rfl
    rw [goesOn, if_neg Bool.false_ne_true, Option.bind_eq_some_iff] at run
    obtain ⟨s', forces, run⟩ := run
    rw [Option.pure_def, Option.some.injEq, Prod.mk.injEq] at run
    obtain ⟨rfl, rfl⟩ := run
    exact .inr ⟨rfl, forces, rfl⟩

theorem nbGravMap_exact {W : World R I H} {ctx : NBodyCtx R} {st s : NBodyState R}
    {rc : NBodyStatus} (exact_ : ctx.criterion = .exact)
    (run : nbGravMap W ctx st = some (rc, s)) :
    nbMapForceBody_Exact W ctx st = some s ∧ rc = forceStatus ctx s := by
  rw [nbGravMap, if_neg (not_not.mpr exact_), Option.bind_eq_bind, Option.bind_eq_some_iff] at run
  obtain ⟨s', forces, run⟩ := run
  rw [Option.pure_def, Option.some.injEq, Prod.mk.injEq] at run
  obtain ⟨rfl, rfl⟩ := run
  exact ⟨forces, rfl⟩

def withForces (st s : NBodyState R) : NBodyState R := { st with
  acctab := s.acctab
  treeIncest := s.treeIncest
  potentialEvalError := s.potentialEvalError
  rsize := s.rsize
  structureError := s.structureError }

theorem nbGravMap_frame {W : World R I H} {ctx : NBodyCtx R} {st s : NBodyState R}
    {rc : NBodyStatus} (run : nbGravMap W ctx st = some (rc, s)) :
    s = withForces st s ∧
    (nbStatusIsFatal rc.bits = false → s.acctab.length = st.bodytab.length) := by
  by_cases exact_ : ctx.criterion = .exact
  · have frame := mapForce_frame (nbGravMap_exact exact_ run).1
    refine ⟨?_, fun _ => frame.length⟩
    rw [frame.rest]
    rfl
  · obtain ⟨rc', t, -, ⟨fatal, rfl, rfl⟩ | ⟨-, forces, -⟩⟩ := nbGravMap_tree exact_ run
    · exact ⟨rfl, fun notFatal => absurd (fatal.symm.trans notFatal) Bool.true_eq_false_eq_False⟩
    · have frame := mapForce_frame forces
      refine ⟨?_, fun _ => frame.length⟩
      rw [frame.rest]
      rfl

theorem nbGravMap_noError {W : World R I H} {ctx : NBodyCtx R} {st s : NBodyState R}
    {rc : NBodyStatus} (run : nbGravMap W ctx st = some (rc, s))
    (notFatal : nbStatusIsFatal rc.bits = false) : s.potentialEvalError = false := by
  have status : rc = forceStatus ctx s := by
    by_cases exact_ : ctx.criterion = .exact
    · exact (nbGravMap_exact exact_ run).2
    · obtain ⟨rc', t, -, ⟨fatal, rfl, rfl⟩ | ⟨-, -, status⟩⟩ := nbGravMap_tree exact_ run
      · exact absurd (fatal.symm.trans notFatal) Bool.true_eq_false_eq_False
      · exact status
  cases error : s.potentialEvalError with
  | false => rfl
  | true =>
      rw [status, forceStatus, if_pos error] at notFatal
      exact absurd notFatal (by decide)

section
omit [Add R] [Neg R] [Sub R] [Mul R] [Div R] [BEq R] [LT R] [DecidableLT R] [LE R] [DecidableLE R]
  [NatCast R]

theorem treeState_congr {ctx : NBodyCtx R} {s t : NBodyState R}
    (same : SameForces ctx s t) : treeState t = treeState s := by
  rw [treeState, treeState, same.rsize, same.structureError, same.points]

omit [OfScientific R] in
theorem treeState_ok (st : NBodyState R) : TreeOk (treeState st) :=
  ⟨.empty, [], [], ⟨rfl, List.nodup_nil, by simp [Octree.cells]⟩, rfl, .inl trivial⟩

end

omit [BEq R] in
theorem mapForce_congr {W : World R I H} {ctx : NBodyCtx R} {s t s' : NBodyState R}
    {gravity : ℕ → Option (Vec3 R × Bool)} (rests : ForceRests ctx) (same : SameForces ctx s t)
    (run : mapForce W ctx s gravity = some s') :
    mapForce W ctx t gravity = some (withForces t s') := by
  rw [mapForce, Option.map_eq_some_iff] at run
  obtain ⟨forces, run, rfl⟩ := run
  rw [mapForce, bodyForces_congr rests same.lmc same.points gravity, run, Option.map_some,
    same.treeIncest, same.potentialEvalError, withForces, ← same.rsize, ← same.structureError]

theorem nbGravMap_congr {W : World R I H} {ctx : NBodyCtx R} {s t s' : NBodyState R}
    {rc : NBodyStatus} (rests : ForceRests ctx) (same : SameForces ctx s t)
    (accelerations : t.acctab = s.acctab) (run : nbGravMap W ctx s = some (rc, s')) :
    nbGravMap W ctx t = some (rc, withForces t s') := by
  have status : forceStatus ctx (withForces t s') = forceStatus ctx s' := rfl
  by_cases exact_ : ctx.criterion = .exact
  · obtain ⟨forces, rfl⟩ := nbGravMap_exact exact_ run
    rw [nbMapForceBody_Exact, ← treeState_congr same] at forces
    have forced := mapForce_congr rests same forces
    rw [nbGravMap, if_neg (not_not.mpr exact_), nbMapForceBody_Exact, forced,
      Option.bind_eq_bind, Option.bind_some, status, Option.pure_def]
  · obtain ⟨rc', tree, made, ⟨fatal, rfl, rfl⟩ | ⟨rfl, forces, rfl⟩⟩ := nbGravMap_tree exact_ run
    · rw [nbGravMap, if_pos exact_, treeState_congr same, made, Option.bind_eq_bind,
        Option.bind_some]
      dsimp only
      rw [if_pos fatal, Option.pure_def, Option.some.injEq, Prod.mk.injEq]
      refine ⟨rfl, ?_⟩
      show treeBox t tree = withForces t (treeBox s tree)
      simp only [withForces, treeBox, ← same.treeIncest, ← same.potentialEvalError,
        ← accelerations]
    · have boxed : SameForces ctx (treeBox s tree) (treeBox t tree) :=
        ⟨rfl, rfl, same.points, same.lmc, same.treeIncest, same.potentialEvalError⟩
      have forced : nbMapForceBody W ctx (treeBox t tree) tree = some (withForces t s') :=
        mapForce_congr rests boxed forces
      have goesOn : nbStatusIsFatal NBodyStatus.success.bits = false := rfl
      rw [nbGravMap, if_pos exact_, treeState_congr same, made, Option.bind_eq_bind,
        Option.bind_some]
      show (if nbStatusIsFatal NBodyStatus.success.bits = true then _ else
        (nbMapForceBody W ctx (treeBox t tree) tree).bind _) = _
      rw [goesOn, if_neg Bool.false_ne_true, forced, Option.bind_some, status, Option.pure_def]

theorem nbGravMap_again (doubling : ∀ r : R, 0 < r → 0 < r * 2.0) {W : World R I H}
    {ctx : NBodyCtx R} {st s t : NBodyState R} {rc : NBodyStatus}
    (run : nbGravMap W ctx st = some (rc, s)) (notFatal : nbStatusIsFatal rc.bits = false)
    (rests : ForceRests ctx) (same : SameForces ctx s t) :
    nbGravMap W ctx t = some (rc, { t with acctab := s.acctab }) := by
  have status : forceStatus ctx { t with acctab := s.acctab } = forceStatus ctx s := by
    simp only [forceStatus, nbIncestStatusCheck, same.potentialEvalError, same.treeIncest]
  by_cases exact_ : ctx.criterion = .exact
  · obtain ⟨forces, rfl⟩ := nbGravMap_exact exact_ run
    have states : treeState st = treeState t := by
      rw [treeState_congr same]
      rw [nbMapForceBody_Exact, mapForce, Option.map_eq_some_iff] at forces
      obtain ⟨_, _, rfl⟩ := forces
      rfl
    have again := mapForce_again rests forces same
    rw [nbGravMap, if_neg (not_not.mpr exact_), nbMapForceBody_Exact, ← states, again,
      Option.bind_eq_bind, Option.bind_some, status, Option.pure_def]
  · obtain ⟨rc', tree, made, ⟨fatal, rfl, -⟩ | ⟨rfl, forces, rfl⟩⟩ := nbGravMap_tree exact_ run
    · exact absurd (fatal.symm.trans notFatal) Bool.true_eq_false_eq_False
    · obtain ⟨noError, noError₀, made'⟩ :=
        nbMakeTree_again doubling (treeState_ok st) rfl made
      have rest := (mapForce_frame forces).rest
      have rsize : t.rsize = tree.tree.rsize := by rw [same.rsize, rest]; rfl
      have error : t.structureError = tree.tree.structureError := by
        rw [same.structureError, rest]
        rfl
      have points : points t.bodytab = points st.bodytab := by rw [same.points, rest]; rfl
      have states : treeState t =
          (treeState st).setTree fun b => { b with rsize := tree.tree.rsize } := by
        simp only [treeState, TreeState.setTree, points, rsize, error, noError]
        rw [show st.structureError = false from noError₀]
      have box : treeBox t tree = t := by rw [treeBox, ← rsize, ← error]
      have again : nbMapForceBody W ctx (treeBox t tree) tree =
          some { t with acctab := s.acctab } := by
        rw [box]
        exact mapForce_again rests forces same
      have goesOn : nbStatusIsFatal NBodyStatus.success.bits = false := rfl
      rw [nbGravMap, if_pos exact_, states, made', Option.bind_eq_bind, Option.bind_some]
      show (if nbStatusIsFatal NBodyStatus.success.bits = true then _ else
        (nbMapForceBody W ctx (treeBox t tree) tree).bind _) = _
      rw [goesOn, if_neg Bool.false_ne_true, again, Option.bind_some, status, Option.pure_def]

end MilkyWay.NBody
