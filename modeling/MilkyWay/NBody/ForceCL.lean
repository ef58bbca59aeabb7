import MilkyWay.Foundation.StackWalk
import MilkyWay.NBody.BuildTreeCL
import MilkyWay.NBody.Gravity

/-! Gravity on a device, for a work-item that walks the tree alone. A node is compared with
what the stack holds at the depth of its parent; `forceCalculationTree_iff` states when this is
the walk of `nbGravity` with the same moments. -/

namespace MilkyWay.NBody

open Foundation

/-! ## The kernel -/

/-- The tree on the device: the bodies come before the cells, the root is the last node. -/
structure ForceMem (R : Type) where
  NBODY : ℕ
  NNODE : ℕ
  MAXDEPTH : ℕ
  maxDepth : ℕ
  radius : R
  child : ℕ → Option ℕ
  posn : ℕ → Vec3 R
  mass : ℕ → R
  critRadii : ℕ → R
  quad : ℕ → NBodyQuadMatrix R

/-- The stack of a work-item. -/
structure ForceStack (R : Type) where
  depth : ℕ
  node : ℕ → ℕ
  pos : ℕ → ℕ
  dq : ℕ → R
  quad : ℕ → NBodyQuadMatrix R

/-- What is done with a node: it is opened, or a mass at a place, for a cell with a moment,
is added. -/
inductive NodeVisit (R : Type) where
  | opened (n : ℕ)
  | body (n : ℕ) (m : R) (x : Vec3 R)
  | cell (n : ℕ) (m : R) (x : Vec3 R) (Q : NBodyQuadMatrix R)

structure ForceSum (R : Type) where
  acc : Vec3 R
  skipSelf : Bool
  visited : List (NodeVisit R)

section
variable {R : Type} [Field R] [LinearOrder R]

def rSqCL (x p : Vec3 R) : R :=
  let d := x - p
  mad d.z d.z (mad d.y d.y (d.x * d.x))

def addMonopoleCL (B : Build R) (ctx : NBodyCtx R) (m : R) (d acc : Vec3 R) (rSq : R) : Vec3 R :=
  let rSq := rSq + ctx.eps2
  let r := B.sqrt rSq
  let ai := m / (rSq * r)
  ⟨mad ai d.x acc.x, mad ai d.y acc.y, mad ai d.z acc.z⟩

def addQuadrupoleCL (B : Build R) (ctx : NBodyCtx R) (Q : NBodyQuadMatrix R) (d acc : Vec3 R)
    (rSq : R) : Vec3 R :=
  let rSq := rSq + ctx.eps2
  let r := B.sqrt rSq
  let dr5inv := 1.0 / (sqr rSq * r)
  let quad_dx := mad Q.xz d.z (mad Q.xy d.y (Q.xx * d.x))
  let quad_dy := mad Q.yz d.z (mad Q.yy d.y (Q.xy * d.x))
  let quad_dz := mad Q.zz d.z (mad Q.yz d.y (Q.xz * d.x))
  let drQdr := mad quad_dz d.z (mad quad_dy d.y (quad_dx * d.x))
  let phiQuad := 2.5 * (dr5inv * drQdr) / rSq
  ⟨mad (-dr5inv) quad_dx (mad phiQuad d.x acc.x), mad (-dr5inv) quad_dy (mad phiQuad d.y acc.y),
    mad (-dr5inv) quad_dz (mad phiQuad d.z acc.z)⟩

/-- Work-item of body `i` at `p` does something with a node; it does not skip itself, which
adds nothing. -/
def ForceSum.visit (B : Build R) (ctx : NBodyCtx R) (p : Vec3 R) (i : ℕ) (s : ForceSum R)
    (v : NodeVisit R) : ForceSum R :=
  let s := { s with visited := s.visited ++ [v] }
  match v with
  | .opened _ => s
  | .body n m x =>
      { s with acc := addMonopoleCL B ctx m (x - p) s.acc (rSqCL x p)
               skipSelf := s.skipSelf || n == i }
  | .cell n m x Q =>
      let acc := addMonopoleCL B ctx m (x - p) s.acc (rSqCL x p)
      { s with acc := if ctx.useQuad then addQuadrupoleCL B ctx Q (x - p) acc (rSqCL x p) else acc
               skipSelf := s.skipSelf || n == i }

def keepsRadius (ctx : NBodyCtx R) : Bool := ctx.criterion = .sw93 || ctx.criterion = .treeCode

def ForceStack.push (ctx : NBodyCtx R) (mem : ForceMem R) (l : ForceStack R) (n : ℕ) :
    ForceStack R :=
  let depth := l.depth + 1
  { depth
    node := Function.update l.node depth n
    pos := Function.update l.pos depth 0
    dq := if keepsRadius ctx then Function.update l.dq depth (mem.critRadii n) else l.dq
    quad := if ctx.useQuad then Function.update l.quad depth (mem.quad n) else l.quad }

/-- The turns of the two loops. The first frame is left when its children are done; an empty
slot ends any other frame. -/
def forceLoop (B : Build R) (ctx : NBodyCtx R) (mem : ForceMem R) (i : ℕ) :
    ℕ → ForceStack R → ForceSum R → Option (ForceSum R)
  | 0, _, _ => none
  | fuel + 1, l, s =>
      let p := mem.posn i
      let curPos := l.pos l.depth
      if curPos < 8 then
        let l := { l with pos := Function.update l.pos l.depth (curPos + 1) }
        match mem.child (8 * l.node l.depth + curPos) with
        | some n =>
            if n < mem.NBODY then
              forceLoop B ctx mem i fuel l (s.visit B ctx p i (.body n (mem.mass n) (mem.posn n)))
            else if l.dq l.depth ≤ rSqCL (mem.posn n) p then
              forceLoop B ctx mem i fuel l
                (s.visit B ctx p i (.cell n (mem.mass n) (mem.posn n) (l.quad l.depth)))
            else if l.depth + 1 < mem.MAXDEPTH then
              forceLoop B ctx mem i fuel (l.push ctx mem n) (s.visit B ctx p i (.opened n))
            else none
        | none => forceLoop B ctx mem i fuel { l with depth := l.depth - 1 } s
      else if l.depth = 0 then some s
      else forceLoop B ctx mem i fuel { l with depth := l.depth - 1 } s

/-- What the stack starts with, on top of local memory that holds anything. The radii of the
levels are written once, up to `maxDepth`. -/
def forceStart (ctx : NBodyCtx R) (mem : ForceMem R) (garbage : ForceStack R) : ForceStack R :=
  let levels := if ctx.criterion = .bh86 then fun k =>
      if k = 0 ∨ k < mem.maxDepth then levelRadii ctx mem.radius k else garbage.dq k
    else garbage.dq
  { depth := 0
    node := Function.update garbage.node 0 mem.NNODE
    pos := Function.update garbage.pos 0 0
    dq := if keepsRadius ctx then Function.update levels 0 (mem.critRadii mem.NNODE) else levels
    quad := if ctx.useQuad then Function.update garbage.quad 0 (mem.quad mem.NNODE)
      else garbage.quad }

/-- The gravity that `forceCalculation` finds in the tree for body `i`. A tree that is too deep
is an error; so is a body that was not met. -/
def forceCalculationTree (B : Build R) (ctx : NBodyCtx R) (mem : ForceMem R)
    (garbage : ForceStack R) (fuel i : ℕ) : Option (ForceSum R) :=
  if mem.maxDepth ≤ mem.MAXDEPTH then
    forceLoop B ctx mem i fuel (forceStart ctx mem garbage) ⟨0, false, [.opened mem.NNODE]⟩
  else none

/-! ## The kernel as a walk with a stack -/

def ForceMem.radiusAt (ctx : NBodyCtx R) (mem : ForceMem R) (L c : ℕ) : R :=
  if ctx.criterion = .bh86 then levelRadii ctx mem.radius L else mem.critRadii c

def ForceMem.children (mem : ForceMem R) (c k : ℕ) : Option (ℕ ⊕ ℕ) :=
  (mem.child (8 * c + k)).map fun n => if n < mem.NBODY then .inr n else .inl n

def ForceMem.walk (ctx : NBodyCtx R) (mem : ForceMem R) (p : Vec3 R) : StackWalk ℕ ℕ where
  child := mem.children
  accepts L c d := decide (mem.radiusAt ctx L c ≤ rSqCL (mem.posn d) p)
  limit := mem.maxDepth

def ForceMem.event (mem : ForceMem R) : StackVisit ℕ ℕ → NodeVisit R
  | .leaf b => .body b (mem.mass b) (mem.posn b)
  | .accept _ c d => .cell d (mem.mass d) (mem.posn d) (mem.quad c)
  | .enter d => .opened d

def frames (node pos : ℕ → ℕ) : ℕ → List (ℕ × ℕ)
  | 0 => []
  | n + 1 => (node n, pos n) :: frames node pos n

structure ForceStack.Kept (ctx : NBodyCtx R) (mem : ForceMem R) (l : ForceStack R) : Prop where
  dq : ∀ k ≤ l.depth, l.dq k = mem.radiusAt ctx k (l.node k)
  quad : ∀ k ≤ l.depth, l.quad k = mem.quad (l.node k)
  levels : ctx.criterion = .bh86 → ∀ k < mem.maxDepth, l.dq k = levelRadii ctx mem.radius k

variable {B : Build R} {ctx : NBodyCtx R} {mem : ForceMem R} {l : ForceStack R} {i : ℕ}

theorem length_frames (node pos : ℕ → ℕ) (n : ℕ) : (frames node pos n).length = n := by
  induction n with
  | zero => rfl
  | succ n ih => rw [frames, List.length_cons, ih]

theorem frames_congr {node node' pos pos' : ℕ → ℕ} {n : ℕ}
    (same : ∀ k < n, node' k = node k ∧ pos' k = pos k) :
    frames node' pos' n = frames node pos n := by
  induction n with
  | zero => rfl
  | succ n ih =>
      obtain ⟨hnode, hpos⟩ := same n (Nat.lt_succ_self n)
      rw [frames, frames, hnode, hpos, ih fun k hk => same k (by omega)]

theorem ForceStack.Kept.pop (h : l.Kept ctx mem) (pos : ℕ → ℕ) :
    ForceStack.Kept ctx mem { l with pos, depth := l.depth - 1 } :=
  ⟨fun k hk => h.dq k (hk.trans (Nat.sub_le _ _)), fun k hk => h.quad k (hk.trans (Nat.sub_le _ _)),
    h.levels⟩

theorem ForceStack.Kept.push (h : l.Kept ctx mem) (useQuad : ctx.useQuad = true)
    (tree : keepsRadius ctx = !decide (ctx.criterion = .bh86))
    (room : l.depth + 1 < mem.maxDepth) (n : ℕ) : (l.push ctx mem n).Kept ctx mem := by
  have old : ∀ k ≤ l.depth + 1, k ≠ l.depth + 1 → k ≤ l.depth := by omega
  refine ⟨fun k hk => ?_, fun k hk => ?_, fun bh86 k hk => ?_⟩
  · have hk : k ≤ l.depth + 1 := hk
    by_cases bh86 : ctx.criterion = .bh86
    · rw [ForceMem.radiusAt, if_pos bh86, ForceStack.push, tree]
      simp only [bh86, decide_true, Bool.not_true, if_neg (by decide : ¬false = true)]
      exact h.levels bh86 k (by omega)
    · rw [ForceMem.radiusAt, if_neg bh86, ForceStack.push, tree]
      simp only [bh86, decide_false, Bool.not_false, if_true]
      by_cases top : k = l.depth + 1
      · rw [top, Function.update_self, Function.update_self]
      · rw [Function.update_of_ne top, Function.update_of_ne top, h.dq k (old k hk top),
          ForceMem.radiusAt, if_neg bh86]
  · have hk : k ≤ l.depth + 1 := hk
    rw [ForceStack.push, useQuad]
    simp only [if_true]
    by_cases top : k = l.depth + 1
    · rw [top, Function.update_self, Function.update_self]
    · rw [Function.update_of_ne top, Function.update_of_ne top, h.quad k (old k hk top)]
  · rw [ForceStack.push, tree]
    simp only [bh86, decide_true, Bool.not_true, if_neg (by decide : ¬false = true)]
    exact h.levels bh86 k hk

theorem forceLoop_of_run (useQuad : ctx.useQuad = true)
    (tree : keepsRadius ctx = !decide (ctx.criterion = .bh86))
    (fits : mem.maxDepth ≤ mem.MAXDEPTH) (fuel : ℕ) (l : ForceStack R) (s r : ForceSum R)
    (kept : l.Kept ctx mem)
    (run : (mem.walk ctx (mem.posn i)).run (fun s v => s.visit B ctx (mem.posn i) i (mem.event v))
      fuel (frames l.node l.pos (l.depth + 1)) s = some r) :
    forceLoop B ctx mem i fuel l s = some r := by
  induction fuel generalizing l s with
  | zero => cases run
  | succ fuel ih =>
      rw [frames, StackWalk.run, length_frames] at run
      rw [forceLoop]
      dsimp only
      by_cases more : l.pos l.depth < 8
      · rw [if_pos more] at run
        rw [if_pos more]
        set pos := Function.update l.pos l.depth (l.pos l.depth + 1) with hpos
        have others : ∀ k < l.depth, pos k = l.pos k := fun k hk =>
          Function.update_of_ne hk.ne _ _
        have under : frames l.node pos l.depth = frames l.node l.pos l.depth :=
          frames_congr fun k hk => ⟨rfl, others k hk⟩
        have next : frames l.node pos (l.depth + 1) =
            (l.node l.depth, l.pos l.depth + 1) :: frames l.node l.pos l.depth := by
          rw [frames, under, hpos, Function.update_self]
        have kept' : ForceStack.Kept ctx mem { l with pos } := ⟨kept.dq, kept.quad, kept.levels⟩
        have child : (mem.walk ctx (mem.posn i)).child (l.node l.depth) (l.pos l.depth) =
            (mem.child (8 * l.node l.depth + l.pos l.depth)).map fun n =>
              if n < mem.NBODY then .inr n else .inl n := rfl
        rw [child] at run
        cases slot : mem.child (8 * l.node l.depth + l.pos l.depth) with
        | none =>
            rw [slot, Option.map_none] at run
            refine ih _ s (kept.pop pos) ?_
            cases depth : l.depth with
            | zero =>
                rw [depth] at run next
                show StackWalk.run _ _ fuel (frames l.node pos 1) s = some r
                rw [next]
                exact run
            | succ n =>
                rw [depth] at run under
                show StackWalk.run _ _ fuel (frames l.node pos (n + 1)) s = some r
                rw [under]
                exact run
        | some n =>
            rw [slot, Option.map_some] at run
            dsimp only
            by_cases body : n < mem.NBODY
            · rw [if_pos body] at run ⊢
              refine ih _ _ kept' ?_
              rw [next]
              exact run
            · rw [if_neg body] at run ⊢
              have radius := kept.dq l.depth le_rfl
              have accepts : (mem.walk ctx (mem.posn i)).accepts l.depth (l.node l.depth) n =
                  decide (l.dq l.depth ≤ rSqCL (mem.posn n) (mem.posn i)) := by
                rw [radius]
                rfl
              dsimp only at run
              rw [accepts] at run
              by_cases accept : l.dq l.depth ≤ rSqCL (mem.posn n) (mem.posn i)
              · rw [if_pos (decide_eq_true accept)] at run
                rw [if_pos accept, kept.quad l.depth le_rfl]
                refine ih _ _ kept' ?_
                rw [next]
                exact run
              · rw [if_neg (by simpa using accept)] at run
                rw [if_neg accept]
                by_cases room : l.depth + 1 < mem.maxDepth
                · have limit : l.depth + 1 < (mem.walk ctx (mem.posn i)).limit := room
                  rw [if_pos limit] at run
                  rw [if_pos (room.trans_le fits)]
                  refine ih _ _ (kept'.push useQuad tree room n) ?_
                  show StackWalk.run _ _ fuel (frames (Function.update l.node (l.depth + 1) n)
                    (Function.update pos (l.depth + 1) 0) (l.depth + 1 + 1)) _ = some r
                  rw [frames, Function.update_self, Function.update_self,
                    @frames_congr l.node _ pos _ _ fun k hk =>
                      ⟨Function.update_of_ne hk.ne _ _, Function.update_of_ne hk.ne _ _⟩, next]
                  exact run
                · have limit : ¬l.depth + 1 < (mem.walk ctx (mem.posn i)).limit := room
                  rw [if_neg limit] at run
                  cases run
      · rw [if_neg more] at run
        rw [if_neg more]
        cases depth : l.depth with
        | zero =>
            rw [depth, frames] at run
            rw [if_pos rfl]
            cases fuel with
            | zero => cases run
            | succ fuel => exact run
        | succ n =>
            rw [depth] at run
            rw [if_neg (Nat.succ_ne_zero n)]
            refine ih _ s ?_ run
            have popped := kept.pop l.pos
            rw [depth] at popped
            exact popped

theorem forceStart_kept (useQuad : ctx.useQuad = true)
    (tree : keepsRadius ctx = !decide (ctx.criterion = .bh86)) (garbage : ForceStack R) :
    (forceStart ctx mem garbage).Kept ctx mem := by
  refine ⟨fun k hk => ?_, fun k hk => ?_, fun bh86 k hk => ?_⟩
  · obtain rfl : k = 0 := Nat.le_zero.mp hk
    by_cases bh86 : ctx.criterion = .bh86
    · simp [forceStart, tree, bh86, ForceMem.radiusAt]
    · simp [forceStart, tree, bh86, ForceMem.radiusAt]
  · obtain rfl : k = 0 := Nat.le_zero.mp hk
    simp [forceStart, useQuad]
  · simp [forceStart, tree, bh86, hk]

/-! ## The sums -/

/-- What a visit adds to the acceleration. -/
def NodeVisit.pull (B : Build R) (ctx : NBodyCtx R) (p : Vec3 R) : NodeVisit R → Vec3 R
  | .opened _ => 0
  | .body _ m x => monopole B ctx m (x - p)
  | .cell _ m x Q => addQuadrupole B ctx Q (x - p) (monopole B ctx m (x - p))

omit [LinearOrder R] in
theorem rSqCL_eq (x p : Vec3 R) : rSqCL x p = (x - p).normSq := by
  simp only [rSqCL, mad, Vec3.normSq]
  ring

omit [LinearOrder R] in
theorem addMonopoleCL_eq (m : R) (x p acc : Vec3 R) :
    addMonopoleCL B ctx m (x - p) acc (rSqCL x p) = acc + monopole B ctx m (x - p) := by
  rw [monopole_eq, rSqCL_eq, addMonopoleCL]
  ext <;> simp only [mad, Vec3.add_x, Vec3.add_y, Vec3.add_z, Vec3.smul_x, Vec3.smul_y,
    Vec3.smul_z] <;> ring

omit [LinearOrder R] in
theorem addQuadrupole_add (Q : NBodyQuadMatrix R) (d acc acc' : Vec3 R) :
    addQuadrupole B ctx Q d (acc + acc') = acc + addQuadrupole B ctx Q d acc' := by
  simp only [addQuadrupole]
  ext <;> simp only [Vec3.add_x, Vec3.add_y, Vec3.add_z, Vec3.sub_x, Vec3.sub_y, Vec3.sub_z] <;>
    ring

omit [LinearOrder R] in
theorem addQuadrupoleCL_eq (Q : NBodyQuadMatrix R) (x p acc : Vec3 R) :
    addQuadrupoleCL B ctx Q (x - p) acc (rSqCL x p) = addQuadrupole B ctx Q (x - p) acc := by
  rw [rSqCL_eq, addQuadrupoleCL, addQuadrupole]
  simp only [mw_sqrv_eq]
  ext <;> simp only [mad, Vec3.add_x, Vec3.add_y, Vec3.add_z, Vec3.sub_x, Vec3.sub_y, Vec3.sub_z,
    Vec3.smul_x, Vec3.smul_y, Vec3.smul_z] <;> ring

omit [LinearOrder R] in
theorem ForceSum.visit_eq (useQuad : ctx.useQuad = true) (p : Vec3 R) (s : ForceSum R)
    (v : NodeVisit R) : (s.visit B ctx p i v).acc = s.acc + v.pull B ctx p ∧
      (s.visit B ctx p i v).visited = s.visited ++ [v] := by
  cases v with
  | opened n => exact ⟨(add_zero _).symm, rfl⟩
  | body n m x => exact ⟨addMonopoleCL_eq m x p s.acc, rfl⟩
  | cell n m x Q =>
      refine ⟨?_, rfl⟩
      rw [ForceSum.visit, useQuad]
      simp only [if_true]
      rw [addQuadrupoleCL_eq, addMonopoleCL_eq, addQuadrupole_add]
      rfl

omit [LinearOrder R] in
theorem foldl_visit (useQuad : ctx.useQuad = true) (p : Vec3 R) (l : List (NodeVisit R))
    (s : ForceSum R) : (l.foldl (fun s v => s.visit B ctx p i v) s).acc =
        s.acc + (l.map fun v => v.pull B ctx p).sum ∧
      (l.foldl (fun s v => s.visit B ctx p i v) s).visited = s.visited ++ l := by
  induction l generalizing s with
  | nil => simp
  | cons v l ih =>
      obtain ⟨acc, visited⟩ := ForceSum.visit_eq (B := B) (i := i) useQuad p s v
      obtain ⟨accs, visiteds⟩ := ih (s.visit B ctx p i v)
      rw [List.foldl_cons, accs, visiteds, acc, visited, List.map_cons, List.sum_cons, add_assoc,
        List.append_assoc]
      exact ⟨rfl, rfl⟩

/-! ## The host on the same tree -/

/-- What the host does with a node, under the names of the device. -/
def hostVisit (B : Build R) (st : TreeState R) (name : ℕ → ℕ) (p : Vec3 R) :
    NodePtr → Option (NodeVisit R)
  | .leaf b => some (.body b (st.bodytab b).mass (st.bodytab b).pos)
  | .cell c => some (if isOpened st p c then .opened (name c)
      else .cell (name c) (st.heap c).mass (st.heap c).pos (quad B st c))
  | _ => none

/-- The tree `T` of the host is the one on the device, where cell `c` is node `name c`. -/
structure Mirrors (B : Build R) (ctx : NBodyCtx R) (st : TreeState R) (mem : ForceMem R)
    (name : ℕ → ℕ) (T : Octree ℕ ℕ) : Prop where
  body : ∀ b < mem.NBODY, mem.posn b = (st.bodytab b).pos ∧ mem.mass b = (st.bodytab b).mass
  leaf : ∀ b ∈ T.leaves, b < mem.NBODY
  cell : ∀ c ∈ T.cells, mem.NBODY ≤ name c ∧ mem.posn (name c) = (st.heap c).pos ∧
    mem.mass (name c) = (st.heap c).mass ∧ mem.quad (name c) = quad B st c
  radius : ctx.criterion ≠ .bh86 → ∀ c ∈ T.cells, mem.critRadii (name c) = (st.heap c).rcrit2
  apart : ∀ c ∈ T.cells, ∀ d ∈ T.cells, name c = name d → c = d
  stored : StackWalk.Stored mem.children name T
  deep : T.deepest < mem.maxDepth
  fits : mem.maxDepth ≤ mem.MAXDEPTH

/-- Below cell `c` at level `L` the test with what the stack holds for `c` has the result of
the host's, and a cell that is accepted has the moment of `c`. -/
def AgreesBelow (B : Build R) (ctx : NBodyCtx R) (st : TreeState R) (mem : ForceMem R)
    (name : ℕ → ℕ) (p : Vec3 R) : ℕ → ℕ → Octree ℕ ℕ → Prop
  | _, _, .empty => True
  | _, _, .leaf _ => True
  | L, c, .cell d sub =>
      (mem.radiusAt ctx L (name c) ≤ ((st.heap d).pos - p).normSq ↔ isOpened st p d = false) ∧
      (isOpened st p d = false → quad B st d = quad B st c) ∧
      (isOpened st p d = true → ∀ i, AgreesBelow B ctx st mem name p (L + 1) d (sub i))

/-- The root is opened on the host, and below it the tests agree. -/
def Agrees (B : Build R) (ctx : NBodyCtx R) (st : TreeState R) (mem : ForceMem R)
    (name : ℕ → ℕ) (p : Vec3 R) (c : ℕ) (sub : Fin 8 → Octree ℕ ℕ) : Prop :=
  isOpened st p c = true ∧ ∀ i, AgreesBelow B ctx st mem name p 0 c (sub i)

/-! ## Walks that do the same -/

def deviceVisits (ctx : NBodyCtx R) (mem : ForceMem R) (name : ℕ → ℕ) (p : Vec3 R) (L c : ℕ)
    (T : Octree ℕ ℕ) : List (NodeVisit R) :=
  ((mem.walk ctx p).visits name L (name c) T).map mem.event

def hostVisits (B : Build R) (st : TreeState R) (name : ℕ → ℕ) (p : Vec3 R) (T : Octree ℕ ℕ) :
    List (NodeVisit R) :=
  (T.visits (isOpened st p)).filterMap (hostVisit B st name p)

def NodeVisit.about : NodeVisit R → Option ℕ
  | .opened n => some n
  | .body _ _ _ => none
  | .cell n _ _ _ => some n

def Inside (T T₀ : Octree ℕ ℕ) : Prop :=
  (∀ b ∈ T.leaves, b ∈ T₀.leaves) ∧ ∀ c ∈ T.cells, c ∈ T₀.cells

theorem Inside.slot {c : ℕ} {sub : Fin 8 → Octree ℕ ℕ} {T₀ : Octree ℕ ℕ}
    (h : Inside (.cell c sub) T₀) (j : Fin 8) : Inside (sub j) T₀ :=
  ⟨fun b hb => h.1 b ((Octree.mem_leaves_cell c sub b).mpr ⟨j, hb⟩),
    fun d hd => h.2 d ((Octree.mem_cells_cell c sub d).mpr (.inr ⟨j, hd⟩))⟩

variable {st : TreeState R} {name : ℕ → ℕ} {p : Vec3 R} {T₀ : Octree ℕ ℕ}

theorem deviceVisits_cell (L c d : ℕ) (sub : Fin 8 → Octree ℕ ℕ) :
    deviceVisits ctx mem name p L c (.cell d sub) =
      if mem.radiusAt ctx L (name c) ≤ rSqCL (mem.posn (name d)) p then
        [.cell (name d) (mem.mass (name d)) (mem.posn (name d)) (mem.quad (name c))]
      else .opened (name d) ::
        (List.finRange 8).flatMap fun j => deviceVisits ctx mem name p (L + 1) d (sub j) := by
  rw [deviceVisits, StackWalk.visits]
  by_cases accept : mem.radiusAt ctx L (name c) ≤ rSqCL (mem.posn (name d)) p
  · have accepts : (mem.walk ctx p).accepts L (name c) (name d) = true := decide_eq_true accept
    rw [if_pos accept, if_pos accepts]
    rfl
  · have accepts : (mem.walk ctx p).accepts L (name c) (name d) = false := decide_eq_false accept
    rw [if_neg accept, accepts, if_neg (by decide), List.map_cons, List.map_flatMap]
    rfl

theorem hostVisits_cell (d : ℕ) (sub : Fin 8 → Octree ℕ ℕ) :
    hostVisits B st name p (.cell d sub) = if isOpened st p d then .opened (name d) ::
        (List.finRange 8).flatMap fun j => hostVisits B st name p (sub j)
      else [.cell (name d) (st.heap d).mass (st.heap d).pos (quad B st d)] := by
  rw [hostVisits, Octree.visits]
  cases opened : isOpened st p d with
  | true =>
      rw [if_pos rfl, if_pos rfl, List.filterMap_cons, List.filterMap_flatMap]
      simp only [hostVisit, opened, if_true]
      rfl
  | false => simp [hostVisit, opened]

theorem AgreesBelow.visits (mirrors : Mirrors B ctx st mem name T₀) {L c : ℕ} {T : Octree ℕ ℕ}
    (inside : Inside T T₀) (parent : c ∈ T₀.cells)
    (agrees : AgreesBelow B ctx st mem name p L c T) :
    deviceVisits ctx mem name p L c T = hostVisits B st name p T := by
  induction T generalizing L c with
  | empty => rfl
  | leaf b =>
      obtain ⟨pos, mass⟩ := mirrors.body b (mirrors.leaf b (inside.1 b (by simp [Octree.leaves])))
      simp [deviceVisits, hostVisits, StackWalk.visits, Octree.visits, ForceMem.event, hostVisit,
        pos, mass]
  | cell d sub ih =>
      obtain ⟨test, moment, below⟩ := agrees
      have here := inside.2 d (by simp [Octree.cells])
      obtain ⟨-, pos, mass, quad⟩ := mirrors.cell d here
      rw [deviceVisits_cell, hostVisits_cell, rSqCL_eq, pos, mass,
        (mirrors.cell c parent).2.2.2]
      cases opened : isOpened st p d with
      | true =>
          rw [if_neg (by rw [test, opened]; decide), if_pos rfl]
          have each : ∀ j, deviceVisits ctx mem name p (L + 1) d (sub j) =
              hostVisits B st name p (sub j) := fun j =>
            ih j (inside.slot j) here (below opened j)
          simp only [each]
      | false =>
          rw [if_pos (test.mpr opened), if_neg (by decide), moment opened]

theorem about_deviceVisits {L c : ℕ} {T : Octree ℕ ℕ} {v : NodeVisit R} {n : ℕ}
    (mem_ : v ∈ deviceVisits ctx mem name p L c T) (about : v.about = some n) :
    ∃ d ∈ T.cells, n = name d := by
  induction T generalizing L c with
  | empty => cases mem_
  | leaf b =>
      simp only [deviceVisits, StackWalk.visits, List.map_cons, List.map_nil,
        List.mem_singleton] at mem_
      rw [mem_] at about
      cases about
  | cell d sub ih =>
      rw [deviceVisits_cell] at mem_
      have own : d ∈ (Octree.cell d sub).cells := by simp [Octree.cells]
      split at mem_
      · rw [List.mem_singleton.mp mem_] at about
        exact ⟨d, own, (Option.some.inj about).symm⟩
      · rcases List.mem_cons.mp mem_ with rfl | deeper
        · exact ⟨d, own, (Option.some.inj about).symm⟩
        · obtain ⟨j, -, deeper⟩ := List.mem_flatMap.mp deeper
          obtain ⟨e, he, named⟩ := ih j deeper
          exact ⟨e, (Octree.mem_cells_cell d sub e).mpr (.inr ⟨j, he⟩), named⟩

theorem about_hostVisits {T : Octree ℕ ℕ} {v : NodeVisit R} {n : ℕ}
    (mem_ : v ∈ hostVisits B st name p T) (about : v.about = some n) :
    ∃ d ∈ T.cells, n = name d := by
  induction T with
  | empty => cases mem_
  | leaf b =>
      simp only [hostVisits, Octree.visits, hostVisit, List.filterMap_cons, List.filterMap_nil,
        List.mem_singleton] at mem_
      rw [mem_] at about
      cases about
  | cell d sub ih =>
      rw [hostVisits_cell] at mem_
      have own : d ∈ (Octree.cell d sub).cells := by simp [Octree.cells]
      split at mem_
      · rcases List.mem_cons.mp mem_ with rfl | deeper
        · exact ⟨d, own, (Option.some.inj about).symm⟩
        · obtain ⟨j, -, deeper⟩ := List.mem_flatMap.mp deeper
          obtain ⟨e, he, named⟩ := ih j deeper
          exact ⟨e, (Octree.mem_cells_cell d sub e).mpr (.inr ⟨j, he⟩), named⟩
      · rw [List.mem_singleton.mp mem_] at about
        exact ⟨d, own, (Option.some.inj about).symm⟩

def SameCells (l l' : List (NodeVisit R)) : Prop :=
  ∀ v : NodeVisit R, v.about.isSome → (v ∈ l ↔ v ∈ l')

theorem SameCells.slots {d : ℕ} {sub : Fin 8 → Octree ℕ ℕ}
    {device : Fin 8 → List (NodeVisit R)}
    (apart : ∀ a ∈ (Octree.cell d sub).cells, ∀ b ∈ (Octree.cell d sub).cells,
      name a = name b → a = b)
    (nodup : (Octree.cell d sub).cells.Nodup)
    (own : ∀ j v n, v ∈ device j → v.about = some n → ∃ e ∈ (sub j).cells, n = name e)
    (same : SameCells (.opened (name d) :: (List.finRange 8).flatMap device)
      (.opened (name d) :: (List.finRange 8).flatMap fun j => hostVisits B st name p (sub j)))
    (j : Fin 8) : SameCells (device j) (hostVisits B st name p (sub j)) := by
  obtain ⟨cOut, -, disjoint⟩ := (Octree.nodup_cells_cell d sub).mp nodup
  have below : ∀ k e, e ∈ (sub k).cells → e ∈ (Octree.cell d sub).cells := fun k e he =>
    (Octree.mem_cells_cell d sub e).mpr (.inr ⟨k, he⟩)
  have root : d ∈ (Octree.cell d sub).cells := by simp [Octree.cells]
  -- a cell has one slot, and the cell above is in none
  have slot : ∀ (g : Fin 8 → List (NodeVisit R)) v n, v.about = some n →
      (∀ k v n, v ∈ g k → v.about = some n → ∃ e ∈ (sub k).cells, n = name e) →
      (∃ e ∈ (sub j).cells, n = name e) →
      v ∈ (NodeVisit.opened (name d) :: (List.finRange 8).flatMap g) → v ∈ g j := by
    rintro g v n about own' ⟨e, he, named⟩ mem_
    rcases List.mem_cons.mp mem_ with rfl | deeper
    · have top : d = e := apart d root e (below j e he)
        ((Option.some.inj about).trans named)
      exact absurd he (top ▸ cOut j)
    · obtain ⟨k, -, deeper⟩ := List.mem_flatMap.mp deeper
      obtain ⟨e', he', named'⟩ := own' k v n deeper about
      have unique : e' = e := apart e' (below k e' he') e (below j e he) (named'.symm.trans named)
      by_cases other : k = j
      · rw [← other]
        exact deeper
      · exact absurd he (fun m => disjoint k j other he' (unique ▸ m))
  intro v about
  obtain ⟨n, about⟩ := Option.isSome_iff_exists.mp about
  have up : ∀ (g : Fin 8 → List (NodeVisit R)), v ∈ g j →
      v ∈ (NodeVisit.opened (name d) :: (List.finRange 8).flatMap g) := fun g m =>
    List.mem_cons_of_mem _ (List.mem_flatMap.mpr ⟨j, List.mem_finRange j, m⟩)
  have iff := same v (by rw [about]; rfl)
  constructor
  · intro m
    exact slot _ v n about (fun k v n m a => about_hostVisits m a) (own j v n m about)
      (iff.mp (up device m))
  · intro m
    exact slot _ v n about own (about_hostVisits m about) (iff.mpr (up _ m))

theorem opens_of_mem {d : ℕ} {sub : Fin 8 → Octree ℕ ℕ}
    (h : .opened (name d) ∈ hostVisits B st name p (.cell d sub)) : isOpened st p d = true := by
  rw [hostVisits_cell] at h
  by_contra closed
  rw [if_neg closed] at h
  cases List.mem_singleton.mp h

theorem AgreesBelow.of_visits (mirrors : Mirrors B ctx st mem name T₀) {L c : ℕ}
    {T : Octree ℕ ℕ} (inside : Inside T T₀) (parent : c ∈ T₀.cells) (nodup : T.cells.Nodup)
    (same : SameCells (deviceVisits ctx mem name p L c T) (hostVisits B st name p T)) :
    AgreesBelow B ctx st mem name p L c T := by
  induction T generalizing L c with
  | empty => trivial
  | leaf b => trivial
  | cell d sub ih =>
      obtain ⟨cOut, nodups, -⟩ := (Octree.nodup_cells_cell d sub).mp nodup
      have here := inside.2 d (by simp [Octree.cells])
      have apart : ∀ a ∈ (Octree.cell d sub).cells, ∀ b ∈ (Octree.cell d sub).cells,
          name a = name b → a = b := fun a ha b hb =>
        mirrors.apart a (inside.2 a ha) b (inside.2 b hb)
      obtain ⟨-, pos, mass, quad_⟩ := mirrors.cell d here
      have test : rSqCL (mem.posn (name d)) p = ((st.heap d).pos - p).normSq := by
        rw [rSqCL_eq, pos]
      rw [deviceVisits_cell, test] at same
      rw [AgreesBelow]
      by_cases accept : mem.radiusAt ctx L (name c) ≤ ((st.heap d).pos - p).normSq
      · rw [if_pos accept] at same
        have mem_ := (same _ rfl).mp (List.mem_singleton_self _)
        rw [hostVisits_cell] at mem_
        cases opened : isOpened st p d with
        | true =>
            rw [opened, if_pos rfl] at mem_
            rcases List.mem_cons.mp mem_ with none_ | deeper
            · cases none_
            · obtain ⟨j, -, deeper⟩ := List.mem_flatMap.mp deeper
              obtain ⟨e, he, named⟩ := about_hostVisits deeper rfl
              have top := apart d (by simp [Octree.cells]) e
                ((Octree.mem_cells_cell d sub e).mpr (.inr ⟨j, he⟩)) named
              exact absurd he (top ▸ cOut j)
        | false =>
            rw [opened, if_neg (by decide), List.mem_singleton, NodeVisit.cell.injEq] at mem_
            refine ⟨iff_of_true accept rfl, fun _ => ?_, fun never => by cases never⟩
            rw [← mem_.2.2.2, (mirrors.cell c parent).2.2.2]
      · rw [if_neg accept] at same
        have opened := opens_of_mem ((same (.opened (name d)) rfl).mp (by simp))
        rw [hostVisits_cell, opened, if_pos rfl] at same
        refine ⟨iff_of_false accept (by rw [opened]; decide), fun never => ?_, fun _ j => ?_⟩
        · rw [opened] at never
          cases never
        · refine ih j (inside.slot j) here (nodups j) ?_
          exact same.slots apart nodup (fun j v n m a => about_deviceVisits m a) j

/-! ## The force -/

omit [Field R] [LinearOrder R] in
theorem mem_deviceVisits_perm {l : List (StackVisit ℕ ℕ)} {c : ℕ} {sub : Fin 8 → Octree ℕ ℕ}
    {W : StackWalk ℕ ℕ} (perm : l.Perm (W.visitsBelow name 0 c sub)) :
    (l.map mem.event).Perm
      ((List.finRange 8).flatMap fun j => (W.visits name 0 (name c) (sub j)).map mem.event) := by
  rw [← List.map_flatMap]
  exact perm.map _

theorem foldl_scanNode (useQuad : ctx.useQuad = true) (i : ℕ) (l : List NodePtr)
    (s : Vec3 R × Bool) : (l.foldl (scanNode B ctx st i) s).1 = s.1 +
      ((l.filterMap (hostVisit B st name (st.bodytab i).pos)).map fun v =>
        v.pull B ctx (st.bodytab i).pos).sum := by
  induction l generalizing s with
  | nil => simp
  | cons q l ih =>
      rw [List.foldl_cons, ih]
      cases q with
      | null => rfl
      | wild => rfl
      | leaf b =>
          by_cases own : b = i
          · subst own
            simp [scanNode, visitNode, hostVisit, NodeVisit.pull, monopole_here]
          · simp [scanNode, visitNode, hostVisit, NodeVisit.pull, own, add_assoc]
      | cell c =>
          cases opened : isOpened st (st.bodytab i).pos c with
          | true => simp [scanNode, hostVisit, NodeVisit.pull, opened]
          | false =>
              simp [scanNode, visitNode, hostVisit, NodeVisit.pull, opened, useQuad,
                addQuadrupole_add, add_assoc]

theorem forceCalculationTree_run {c : ℕ} {sub : Fin 8 → Octree ℕ ℕ} (useQuad : ctx.useQuad = true)
    (tree : keepsRadius ctx = !decide (ctx.criterion = .bh86))
    (mirrors : Mirrors B ctx st mem name (.cell c sub)) (root : name c = mem.NNODE)
    (garbage : ForceStack R) (i : ℕ) :
    ∃ fuel out, forceCalculationTree B ctx mem garbage fuel i = some out ∧
      out.visited.Perm (.opened (name c) :: (List.finRange 8).flatMap fun j =>
        deviceVisits ctx mem name (mem.posn i) 0 c (sub j)) ∧
      out.acc = (out.visited.map fun v => v.pull B ctx (mem.posn i)).sum := by
  set visit := fun (s : ForceSum R) v => s.visit B ctx (mem.posn i) i (mem.event v)
  obtain ⟨n, l, perm, runs⟩ := @StackWalk.run_stored _ _ _ _ (mem.walk ctx (mem.posn i)) name
    visit (Octree.cell c sub) mirrors.stored c sub rfl []
    (by rw [List.length_nil, Nat.zero_add]; exact mirrors.deep)
  have run := runs 1 ⟨0, false, [.opened mem.NNODE]⟩
  rw [StackWalk.run] at run
  have calculation := forceLoop_of_run (B := B) useQuad tree mirrors.fits (n + 1)
    (forceStart ctx mem garbage) _ _ (forceStart_kept useQuad tree garbage) (by
      show StackWalk.run _ _ _ [(Function.update garbage.node 0 mem.NNODE 0,
        Function.update garbage.pos 0 0 0)] _ = _
      rw [Function.update_self, Function.update_self, ← root]
      exact run)
  have sums : (l.foldl visit ⟨0, false, [.opened mem.NNODE]⟩).acc =
        0 + ((l.map mem.event).map fun v => v.pull B ctx (mem.posn i)).sum ∧
      (l.foldl visit ⟨0, false, [.opened mem.NNODE]⟩).visited =
        [.opened mem.NNODE] ++ l.map mem.event := by
    have all := foldl_visit (B := B) (i := i) useQuad (mem.posn i) (l.map mem.event)
      ⟨0, false, [.opened mem.NNODE]⟩
    rw [List.foldl_map] at all
    exact all
  refine ⟨n + 1, l.foldl visit ⟨0, false, [.opened mem.NNODE]⟩, ?_, ?_, ?_⟩
  · rw [forceCalculationTree, if_pos mirrors.fits]
    exact calculation
  · rw [sums.2, root]
    exact (mem_deviceVisits_perm perm).cons _
  · rw [sums.1, sums.2]
    simp [NodeVisit.pull]

/-- For a body on a device with quadrupoles, the kernel opens and accepts the same cells as
the host, adds each one's own mass and moment and gets the same force, exactly if the root
is opened on the host, every child of an opened cell passes the test with what the stack
holds for its parent exactly if it passes its own, and those that pass have the moment of
their parent. -/
theorem forceCalculationTree_iff (B : Build R) (ctx : NBodyCtx R) (st : TreeState R)
    (mem : ForceMem R) (garbage : ForceStack R) (name : ℕ → ℕ) (c : ℕ)
    (sub : Fin 8 → Octree ℕ ℕ) (useQuad : ctx.useQuad = true)
    (tree : ctx.criterion = .bh86 ∨ ctx.criterion = .sw93 ∨ ctx.criterion = .treeCode)
    (root : st.tree.root = .cell c) (linked : (links st).Threaded (.cell c sub) .null)
    (nodup : (Octree.cell c sub).cells.Nodup) (mirrors : Mirrors B ctx st mem name (.cell c sub))
    (top : name c = mem.NNODE) (i : ℕ) (hi : i < mem.NBODY) :
    ∃ fuel out fuel' acc st' visited, forceCalculationTree B ctx mem garbage fuel i = some out ∧
      nbGravity B ctx fuel' st i = some (acc, st') ∧
      nbWalk st (isOpened st (st.bodytab i).pos) fuel' st.tree.root [] = some visited ∧
      ((out.acc = acc ∧
          out.visited.Perm (visited.filterMap (hostVisit B st name (st.bodytab i).pos))) ↔
        Agrees B ctx st mem name (st.bodytab i).pos c sub) := by
  have tree : keepsRadius ctx = !decide (ctx.criterion = .bh86) := by
    rcases tree with h | h | h <;> simp [keepsRadius, h]
  have place : mem.posn i = (st.bodytab i).pos := (mirrors.body i hi).1
  obtain ⟨fuel, out, run, perm, sum⟩ := forceCalculationTree_run useQuad tree mirrors top garbage i
  rw [place] at perm sum
  set p := (st.bodytab i).pos with hp
  have own : Inside (.cell c sub) (.cell c sub) := ⟨fun _ h => h, fun _ h => h⟩
  have here : c ∈ (Octree.cell c sub).cells := by simp [Octree.cells]
  have scan := (links st).walk_threaded (isOpened st p) (scanNode B ctx st i) (.cell c sub) .null
    1 (0, false) linked
  rw [Links.walk, ← nbGravityLoop_eq, Octree.entry, ← root] at scan
  obtain ⟨st', gravity⟩ := nbGravity_of_loop scan
  have walk := (links st).walk_threaded (isOpened st p) (fun visited q => visited ++ [q])
    (.cell c sub) .null 1 [] linked
  rw [Links.walk, ← nbWalk_eq, Octree.entry, ← root, foldl_append_singleton,
    List.nil_append] at walk
  refine ⟨fuel, out, _, _, st', _, run, gravity, walk, ?_⟩
  have scanned := @foldl_scanNode _ _ _ B ctx st name useQuad i
  rw [scanned, zero_add, ← hp]
  change (_ = ((hostVisits B st name p (.cell c sub)).map _).sum ∧
    out.visited.Perm (hostVisits B st name p (.cell c sub))) ↔ _
  constructor
  · rintro ⟨-, perm'⟩
    have same : SameCells _ (hostVisits B st name p (.cell c sub)) := fun v _ =>
      (perm.symm.trans perm').mem_iff
    have opened := opens_of_mem ((same (.opened (name c)) rfl).mp (by simp))
    rw [hostVisits_cell, opened, if_pos rfl] at same
    refine ⟨opened, fun j => ?_⟩
    refine AgreesBelow.of_visits mirrors (own.slot j) here
      (((Octree.nodup_cells_cell c sub).mp nodup).2.1 j) ?_
    exact same.slots mirrors.apart nodup (fun j v n m a => about_deviceVisits m a) j
  · rintro ⟨opened, below⟩
    have same : (List.finRange 8).flatMap (fun j => deviceVisits ctx mem name p 0 c (sub j)) =
        (List.finRange 8).flatMap fun j => hostVisits B st name p (sub j) :=
      List.flatMap_congr fun j _ => (below j).visits mirrors (own.slot j) here
    rw [same] at perm
    rw [hostVisits_cell, opened, if_pos rfl]
    exact ⟨sum.trans (perm.map _).sum_eq, perm⟩

end

/-! ## A cell with two bodies, seen from a third -/

def forkCtx : NBodyCtx ℚ := { rowCtx with criterion := .bh86, theta := 1, eps2 := 3 }

open Foundation.Numerals in
/-- The far octant of a root of side 8 holds two bodies. -/
def forkSlots (j : Fin 8) : Octree ℕ ℕ :=
  if j = 0 then .leaf 0
  else if j = 7 then .cell 1 fun j => if j = 3 then .leaf 1 else if j = 7 then .leaf 2 else .empty
  else .empty

def fork : Octree ℕ ℕ := .cell 0 forkSlots

/-- The masses are 1, the moments are those of the bodies. -/
def forkState : TreeState ℚ where
  tree := ⟨.cell 0, 8, 2, 1, false⟩
  freeCell := .null
  bodytab
    | 0 => { pos := ⟨-3, -3, -3⟩, next := .cell 1, mass := 1, vel := 0 }
    | 1 => { pos := ⟨1, 3, 3⟩, next := .leaf 2, mass := 1, vel := 0 }
    | _ => { pos := ⟨3, 3, 3⟩, next := .null, mass := 1, vel := 0 }
  nbody := 3
  heap
    | 0 => ⟨⟨1 / 3, 1, 1⟩, .null, 3, 64, .leaf 0, .quad ⟨-32 / 3, 60, 60, 16 / 3, 72, 16 / 3⟩⟩
    | _ => ⟨⟨2, 3, 3⟩, .null, 2, 16, .leaf 1, .quad ⟨4, 0, 0, -2, 0, -2⟩⟩
  heapTop := 2
  treeIncest := false

/-- The root is node 5 and the other cell is node 4. -/
def forkMem : ForceMem ℚ where
  NBODY := 3
  NNODE := 5
  MAXDEPTH := 26
  maxDepth := 2
  radius := 4
  child
    | 40 => some 0
    | 41 => some 4
    | 32 => some 1
    | 33 => some 2
    | _ => none
  posn n := if n < 3 then (forkState.bodytab n).pos else (forkState.heap (5 - n)).pos
  mass n := if n < 3 then (forkState.bodytab n).mass else (forkState.heap (5 - n)).mass
  critRadii _ := 0
  quad n := quad rowBuild forkState (5 - n)

def emptyStack : ForceStack ℚ :=
  ⟨0, fun _ => 0, fun _ => 0, fun _ => 0, fun _ => ⟨0, 0, 0, 0, 0, 0⟩⟩

theorem forkStored : StackWalk.Stored forkMem.children (fun c => 5 - c) fork := by
  refine ⟨⟨[0, 7], by decide, by decide⟩, fun j => ?_⟩
  by_cases deeper : j = 7
  · subst deeper
    refine ⟨⟨[3, 7], by decide, by decide⟩, fun k => ?_⟩
    fin_cases k <;> trivial
  · fin_cases j <;> trivial

theorem forkMirrors : Mirrors rowBuild forkCtx forkState forkMem (fun c => 5 - c) fork := by
  have cells : ∀ c ∈ fork.cells, c = 0 ∨ c = 1 := by decide
  refine ⟨fun b hb => ?_, by decide, fun c hc => ?_, fun other => absurd rfl other, ?_, forkStored,
    by decide, by decide⟩
  · have hb : b < 3 := hb
    simp [forkMem, hb]
  · rcases cells c hc with rfl | rfl <;> exact ⟨by decide, rfl, rfl, rfl⟩
  · intro c hc d hd same
    rcases cells c hc with rfl | rfl <;> rcases cells d hd with rfl | rfl <;>
      first | rfl | exact absurd same (by decide)

theorem forkLinked : (links forkState).Threaded fork .null := by
  refine ⟨rfl, rfl, fun j => ?_⟩
  by_cases deeper : j = 7
  · subst deeper
    refine ⟨rfl, rfl, fun k => ?_⟩
    fin_cases k <;> trivial
  · fin_cases j <;> trivial

theorem forceCalculationTree_iff_fork : ∃ fuel out fuel' acc st' visited,
    forceCalculationTree rowBuild forkCtx forkMem emptyStack fuel 0 = some out ∧
      nbGravity rowBuild forkCtx fuel' forkState 0 = some (acc, st') ∧
      nbWalk forkState (isOpened forkState (forkState.bodytab 0).pos) fuel' forkState.tree.root [] =
        some visited ∧
      ((out.acc = acc ∧ out.visited.Perm (visited.filterMap
          (hostVisit rowBuild forkState (fun c => 5 - c) (forkState.bodytab 0).pos))) ↔
        Agrees rowBuild forkCtx forkState forkMem (fun c => 5 - c) (forkState.bodytab 0).pos 0
          forkSlots) :=
  forceCalculationTree_iff rowBuild forkCtx forkState forkMem emptyStack (fun c => 5 - c) 0
    forkSlots rfl (.inl rfl) rfl forkLinked (by decide) forkMirrors rfl 0 (by decide)

/-- The cell of the two bodies is accepted by both and pulls with the moment of the root on
the device. -/
theorem forceCalculationTree_moment :
    Mirrors rowBuild forkCtx forkState forkMem (fun c => 5 - c) fork ∧
    ∃ out acc st', forceCalculationTree rowBuild forkCtx forkMem emptyStack 20 0 = some out ∧
      nbGravity rowBuild forkCtx 9 forkState 0 = some (acc, st') ∧ out.acc ≠ acc := by
  have runs : (forceCalculationTree rowBuild forkCtx forkMem emptyStack 20 0).bind (fun out =>
      (nbGravity rowBuild forkCtx 9 forkState 0).map fun r => decide (out.acc ≠ r.1)) =
        some true := by
    decide +kernel
  obtain ⟨out, run, host⟩ := Option.bind_eq_some_iff.mp runs
  obtain ⟨⟨acc, st'⟩, gravity, differs⟩ := Option.map_eq_some_iff.mp host
  exact ⟨forkMirrors, out, acc, st', run, gravity, of_decide_eq_true differs⟩

end MilkyWay.NBody
