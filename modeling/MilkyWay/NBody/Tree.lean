import MilkyWay.NBody.Types

/-! Construction of the tree. Each function takes the memory it works on and gives
the memory it leaves, or `none` where the code aborts, follows a pointer that was
never set, takes a body for a cell or, in a loop or a recursion, has not come to an end
within its fuel. -/

namespace MilkyWay.NBody

open Foundation

variable {R : Type}

namespace TreeState

def pos (st : TreeState R) : NodePtr → Option (Vec3 R)
  | .leaf b => some (st.bodytab b).pos
  | .cell c => some (st.heap c).pos
  | _ => none

def mass (st : TreeState R) : NodePtr → Option R
  | .leaf b => some (st.bodytab b).mass
  | .cell c => some (st.heap c).mass
  | _ => none

/-- The type of a body is not that of a cell. A body of type 0 would be used as a cell,
whose fields reach past the end of a body. -/
def isBody (st : TreeState R) (b : ℕ) : Bool := (st.bodytab b).type != 0

def subp (st : TreeState R) (c : ℕ) : Option (Fin 8 → NodePtr) :=
  match (st.heap c).stuff with
  | .subp s => some s
  | .quad _ => none

def setCell (st : TreeState R) (c : ℕ) (f : NBodyCell R → NBodyCell R) : TreeState R :=
  { st with heap := Function.update st.heap c (f (st.heap c)) }

def setTree (st : TreeState R) (f : NBodyTree R → NBodyTree R) : TreeState R :=
  { st with tree := f st.tree }

def setSubp (st : TreeState R) (c : ℕ) (s : Fin 8 → NodePtr) : TreeState R :=
  st.setCell c fun q => { q with stuff := .subp s }

def setNext (st : TreeState R) : NodePtr → NodePtr → Option (TreeState R)
  | .leaf b, n => some { st with
      bodytab := Function.update st.bodytab b { st.bodytab b with next := n } }
  | .cell c, n => some (st.setCell c fun q => { q with next := n })
  | _, _ => none

section
variable (st : TreeState R) (c : ℕ) (f : NBodyCell R → NBodyCell R) (g : NBodyTree R → NBodyTree R)

@[simp] theorem setCell_heap :
    (st.setCell c f).heap = Function.update st.heap c (f (st.heap c)) := rfl
@[simp] theorem setCell_tree : (st.setCell c f).tree = st.tree := rfl
@[simp] theorem setCell_freeCell : (st.setCell c f).freeCell = st.freeCell := rfl
@[simp] theorem setCell_bodytab : (st.setCell c f).bodytab = st.bodytab := rfl
@[simp] theorem setCell_nbody : (st.setCell c f).nbody = st.nbody := rfl
@[simp] theorem setCell_treeIncest : (st.setCell c f).treeIncest = st.treeIncest := rfl
@[simp] theorem setCell_heapTop : (st.setCell c f).heapTop = st.heapTop := rfl
@[simp] theorem setTree_heap : (st.setTree g).heap = st.heap := rfl
@[simp] theorem setTree_tree : (st.setTree g).tree = g st.tree := rfl
@[simp] theorem setTree_freeCell : (st.setTree g).freeCell = st.freeCell := rfl
@[simp] theorem setTree_bodytab : (st.setTree g).bodytab = st.bodytab := rfl
@[simp] theorem setTree_nbody : (st.setTree g).nbody = st.nbody := rfl
@[simp] theorem setTree_treeIncest : (st.setTree g).treeIncest = st.treeIncest := rfl
@[simp] theorem setTree_heapTop : (st.setTree g).heapTop = st.heapTop := rfl

end

end TreeState

variable [Zero R] [Add R] [Neg R] [Sub R] [Mul R] [Div R] [OfScientific R] [BEq R]
  [LT R] [DecidableLT R] [LE R] [DecidableLE R]

def sqr (x : R) : R := x * x

def mw_abs (x : R) : R := if x < 0 then -x else x

/-- The larger of two numbers, or the other one when one is not a number. -/
def mw_fmax (a b : R) : R := if a != a then b else if a < b then b else a

def mw_sqrv (a : Vec3 R) : R := a.z * a.z + (a.y * a.y + a.x * a.x)

def mw_distv (sqrt : R → R) (u v : Vec3 R) : R :=
  sqrt (sqr (u.x - v.x) + sqr (u.y - v.y) + sqr (u.z - v.z))

def mw_divvs (v : Vec3 R) (s : R) : Vec3 R := ⟨v.x / s, v.y / s, v.z / s⟩

open Foundation.Numerals in
/-- The index of the subcell for a body at `p` in a cell at `q`. -/
def nbSubIndex (p q : Vec3 R) : Fin 8 :=
  (if q.x ≤ p.x then 4 else 0) + (if q.y ≤ p.y then 2 else 0) + (if q.z ≤ p.z then 1 else 0)

/-- Find the range of the coordinates relative to the root. -/
def xyzmax (st : TreeState R) (root : Vec3 R) : R :=
  (List.range st.nbody).foldl (fun m i =>
    let p := (st.bodytab i).pos
    let m := mw_fmax m (mw_abs (p.x - root.x))
    let m := mw_fmax m (mw_abs (p.y - root.y))
    mw_fmax m (mw_abs (p.z - root.z))) 0

def expandLoop (xyzmax : R) : ℕ → R → Option R
  | 0, _ => none
  | fuel + 1, rsize =>
      if rsize < 2.0 * xyzmax then expandLoop xyzmax fuel (rsize * 2.0) else some rsize

def expandBox (B : Build R) (fuel : ℕ) (st : TreeState R) : Option (TreeState R) := do
  let root ← st.pos st.tree.root
  B.assert (0 < st.tree.rsize)
  let rsize ← expandLoop (xyzmax st root) fuel st.tree.rsize
  return st.setTree fun t => { t with rsize }

/-- Take a cell from the front of the free list or allocate one. Its next link is
left as it was. -/
def nbMakeCell (st : TreeState R) : Option (ℕ × TreeState R) := do
  let (c, st) ← match st.freeCell with
    | .null => some (st.heapTop, { st with heapTop := st.heapTop + 1 })
    | .cell c => some (c, { st with freeCell := (st.heap c).next })
    | _ => none
  let st := st.setCell c fun q => { q with more := .null, stuff := .subp fun _ => .null }
  return (c, st.setTree fun t => { t with cellUsed := t.cellUsed + 1 })

def reclaimLoop : ℕ → TreeState R → NodePtr → Option (TreeState R)
  | 0, _, _ => none
  | _ + 1, st, .null => some st
  | _ + 1, _, .wild => none
  | fuel + 1, st, .leaf b =>
      if st.isBody b then reclaimLoop fuel st (st.bodytab b).next else none
  | fuel + 1, st, .cell c =>
      let reclaimed := st.setCell c fun q => { q with next := st.freeCell }
      reclaimLoop fuel { reclaimed with freeCell := .cell c } (st.heap c).more

def nbNewTree (fuel : ℕ) (st : TreeState R) : Option (TreeState R) := do
  let st ← reclaimLoop fuel st st.tree.root
  let st := st.setTree fun t => { t with cellUsed := 0, maxDepth := 0 }
  let (c, st) ← nbMakeCell st
  let st := st.setTree fun t => { t with root := .cell c }
  return st.setCell c fun q => { q with pos := 0 }

def calcOffset (pPos qPos qsize : R) : R :=
  qPos + 0.25 * (if pPos < qPos then -qsize else qsize)

def nbInitMidpoint (p q : Vec3 R) (qsize : R) : Vec3 R :=
  ⟨calcOffset p.x q.x qsize, calcOffset p.y q.y qsize, calcOffset p.z q.z qsize⟩

def splitSlot (st : TreeState R) (q : ℕ) (qind : Fin 8) (p : Vec3 R) (o : ℕ) (qsize : R) :
    Option (ℕ × TreeState R) := do
  let (c, st) ← nbMakeCell st
  let st := st.setCell c fun r => { r with pos := nbInitMidpoint p (st.heap q).pos qsize }
  let sub ← st.subp c
  let oind := nbSubIndex (st.bodytab o).pos (st.heap c).pos
  let st := st.setSubp c (Function.update sub oind (.leaf o))
  let sub ← st.subp q
  return (c, st.setSubp q (Function.update sub qind (.cell c)))

def loadLoop (B : Build R) (p : ℕ) : ℕ → TreeState R → ℕ → R → ℕ → Option (TreeState R)
  | 0, _, _, _, _ => none
  | fuel + 1, st, q, qsize, lev => do
      let x := (st.bodytab p).pos
      let qind := nbSubIndex x (st.heap q).pos
      let sub ← st.subp q
      match sub qind with
      | .null =>
          let st := st.setSubp q (Function.update sub qind (.leaf p))
          return st.setTree fun t => { t with maxDepth := max t.maxDepth lev }
      | .wild => none
      | .leaf o =>
          if qsize ≤ B.epsilon then
            return st.setTree fun t => { t with structureError := true }
          if st.isBody o then
            let (c, st) ← splitSlot st q qind x o qsize
            loadLoop B p fuel st c (qsize * 0.5) (lev + 1)
          else none
      | .cell c =>
          if qsize ≤ B.epsilon then
            return st.setTree fun t => { t with structureError := true }
          loadLoop B p fuel st c (qsize * 0.5) (lev + 1)

/-- Descend the tree and insert the body `p` in its place. -/
def nbLoadBody (B : Build R) (fuel : ℕ) (st : TreeState R) (p : ℕ) : Option (TreeState R) :=
  match st.tree.root with
  | .cell q => loadLoop B p fuel st q st.tree.rsize 0
  | _ => none

def bmax2Inc (cmPos pPos psize : R) : R :=
  let dmin := cmPos - (pPos - 0.5 * psize)
  sqr (mw_fmax dmin (psize - dmin))

def calcSW93MaxDist2 (p cmpos : Vec3 R) (psize : R) : R :=
  bmax2Inc cmpos.x p.x psize + bmax2Inc cmpos.y p.y psize + bmax2Inc cmpos.z p.z psize

/-- The critical radius squared of a cell with midpoint `p`. -/
def findRCrit (B : Build R) (ctx : NBodyCtx R) (p : Vec3 R) (treeRSize : R) (cmpos : Vec3 R)
    (psize : R) : Option R :=
  if ctx.theta == 0 then some (sqr (2.0 * treeRSize))
  else match ctx.criterion with
    | .treeCode => some (sqr (psize / ctx.theta + mw_distv B.sqrt cmpos p))
    | .sw93 => some (calcSW93MaxDist2 p cmpos psize / sqr ctx.theta)
    | .bh86 => some (sqr (psize / ctx.theta))
    | .invalid => none
    | .exact => none

/-- The centre of mass is out of bounds in one dimension. -/
def nbCheckTreeDim (pPos cmPos halfPsize : R) : Bool :=
  cmPos < pPos - halfPsize || pPos + halfPsize < cmPos

def nbCheckTreeStructure (tree : NBodyTree R) (p cmpos : Vec3 R) (psize : R) : NBodyTree R :=
  let halfPsize := 0.5 * psize
  let error := nbCheckTreeDim p.x cmpos.x halfPsize || nbCheckTreeDim p.y cmpos.y halfPsize ||
    nbCheckTreeDim p.z cmpos.z halfPsize
  { tree with structureError := tree.structureError || error }

def sumSubnode (p : ℕ) (q : NodePtr) (st : TreeState R) (cmpos : Vec3 R) :
    Option (TreeState R × Vec3 R) := do
  let m ← st.mass q
  let x ← st.pos q
  return (st.setCell p fun c => { c with mass := c.mass + m }, cmpos + m • x)

/-- The turn for slot `i` of the loop over the subnodes of `p`; a subnode that is a
cell goes through the pass first. -/
def sumTurn (pass : TreeState R → ℕ → Option (TreeState R)) (p : ℕ) (s : TreeState R × Vec3 R)
    (i : Fin 8) : Option (TreeState R × Vec3 R) := do
  let sub ← s.1.subp p
  match sub i with
  | .null => return s
  | .wild => none
  | .leaf b => if s.1.isBody b then sumSubnode p (.leaf b) s.1 s.2 else none
  | .cell c =>
      let st ← pass s.1 c
      sumSubnode p (.cell c) st s.2

/-- Set the critical radius of a cell whose subnodes have been summed and move it
to its centre of mass; a cell without mass stays at its midpoint. -/
def finishCofM (B : Build R) (ctx : NBodyCtx R) (p : ℕ) (psize : R) (st : TreeState R)
    (cmpos : Vec3 R) : Option (TreeState R) := do
  let mass := (st.heap p).mass
  let mid := (st.heap p).pos
  let cmpos := if 0 < mass then mw_divvs cmpos mass else mid
  let st := st.setTree fun t => nbCheckTreeStructure t mid cmpos psize
  let rcrit2 ← findRCrit B ctx mid st.tree.rsize cmpos psize
  return st.setCell p fun c => { c with rcrit2, pos := cmpos }

/-- Descend the tree finding centres of mass and setting critical radii. -/
def hackCofM (B : Build R) (ctx : NBodyCtx R) : ℕ → TreeState R → ℕ → R → Option (TreeState R)
  | 0, _, _, _ => none
  | fuel + 1, st, p, psize => do
      B.assert (B.epsilon ≤ psize)
      let st := st.setCell p fun c => { c with mass := 0 }
      let pass := fun st c => hackCofM B ctx fuel st c (0.5 * psize)
      let (st, cmpos) ← (List.finRange 8).foldlM (sumTurn pass p) (st, 0)
      finishCofM B ctx p psize st cmpos

def occupied (sub : Fin 8 → NodePtr) : List NodePtr :=
  ((List.finRange 8).map sub).filter (· ≠ .null)

/-- Install the links below `p` with next stop `n`. The first child is read from the
table before `n` is stored behind the last one. -/
def threadTree : ℕ → TreeState R → NodePtr → NodePtr → Option (TreeState R)
  | 0, _, _, _ => none
  | fuel + 1, st, p, n => do
      let st ← st.setNext p n
      match p with
      | .cell c =>
          let desc := occupied (← st.subp c)
          let st := st.setCell c fun q => { q with more := desc.headD .wild }
          (desc.zip (desc.tail ++ [n])).foldlM (fun st d => threadTree fuel st d.1 d.2) st
      | .leaf b => if st.isBody b then some st else none
      | _ => none

def nbIncAddNBodyQuadMatrix (a b : NBodyQuadMatrix R) : NBodyQuadMatrix R :=
  ⟨a.xx + b.xx, a.xy + b.xy, a.xz + b.xz, a.yy + b.yy, a.yz + b.yz, a.zz + b.zz⟩

/-- The storage of a cell read as a quadrupole. -/
def quad (B : Build R) (st : TreeState R) (c : ℕ) : NBodyQuadMatrix R :=
  match (st.heap c).stuff with
  | .subp s => B.asReal s
  | .quad m => m

def pointQuad (m : R) (dr : Vec3 R) : NBodyQuadMatrix R :=
  let drsq := mw_sqrv dr
  { xx := m * (3.0 * (dr.x * dr.x) - drsq)
    xy := m * (3.0 * (dr.x * dr.y))
    xz := m * (3.0 * (dr.x * dr.z))
    yy := m * (3.0 * (dr.y * dr.y) - drsq)
    yz := m * (3.0 * (dr.y * dr.z))
    zz := m * (3.0 * (dr.z * dr.z) - drsq) }

def sumQuad (B : Build R) (p : ℕ) (q : NodePtr) (own : Option (NBodyQuadMatrix R))
    (st : TreeState R) : Option (TreeState R) := do
  let x ← st.pos q
  let m ← st.mass q
  let point := pointQuad m (x - (st.heap p).pos)
  let moment := match own with
    | some inner => nbIncAddNBodyQuadMatrix point inner
    | none => point
  let total := nbIncAddNBodyQuadMatrix (quad B st p) moment
  return st.setCell p fun r => { r with stuff := .quad total }

def quadTurn (B : Build R) (pass : TreeState R → ℕ → Option (TreeState R)) (p : ℕ)
    (st : TreeState R) : NodePtr → Option (TreeState R)
  | .cell c => do
      let st ← pass st c
      sumQuad B p (.cell c) (some (quad B st c)) st
  | .leaf b => if st.isBody b then sumQuad B p (.leaf b) none st else none
  | _ => none

/-- Descend the tree evaluating quadrupole moments. A cell's moment is accumulated
in the storage its descendents were read from. -/
def hackQuad (B : Build R) : ℕ → TreeState R → ℕ → Option (TreeState R)
  | 0, _, _ => none
  | fuel + 1, st, p => do
      let desc := occupied (← st.subp p)
      desc.foldlM (quadTurn B (fun st c => hackQuad B fuel st c) p) st

def loadBodies (B : Build R) (fuel : ℕ) (st : TreeState R) : Option (TreeState R) :=
  (List.range st.nbody).foldlM (fun st p =>
    if (st.bodytab p).mass != 0 then nbLoadBody B fuel st p else some st) st

def nbMakeTree (B : Build R) (ctx : NBodyCtx R) (fuel : ℕ) (st : TreeState R) :
    Option (NBodyStatus × TreeState R) := do
  let st ← nbNewTree fuel st
  let st ← expandBox B fuel st
  let st ← loadBodies B fuel st
  if st.tree.structureError then return (.treeStructureError, st)
  let root ← st.tree.root.cell?
  let st ← hackCofM B ctx fuel st root st.tree.rsize
  if st.tree.structureError then return (.treeStructureError, st)
  let st ← threadTree fuel st (.cell root) .null
  (if ctx.useQuad then hackQuad B fuel st root else some st).map fun st => (.success, st)

end MilkyWay.NBody
