import MilkyWay.NBody.BuildTreeCL

/-! The kernel `buildTree` by the single accesses of its work-items to the memory they share. A
work-item follows the path of its body to a slot, locks the slot with a compare-and-swap, stores
the body or builds new cells below the slot, and unlocks it. The items of a launch take their
steps in any order; memory is sequentially consistent. Barriers only take orders away, so they do
not occur here, and the positions of bodies are constant, so that reading one is no step. -/

namespace MilkyWay.NBody

open Foundation

inductive SlotCL where
  | lock
  | null
  | body (b : ℕ)
  | cell (c : ℕ)
deriving DecidableEq

namespace SlotCL

def ref : SlotCL → Ref ℕ ℕ
  | .lock => .wild
  | .null => .null
  | .body b => .leaf b
  | .cell c => .cell c

def isNode : SlotCL → Bool
  | .body _ => true
  | .cell _ => true
  | _ => false

def isCell : SlotCL → Bool
  | .cell _ => true
  | _ => false

def index : SlotCL → ℕ
  | .body b => b
  | .cell c => c
  | _ => 0

theorem ref_injective : Function.Injective ref := by
  intro a b same
  cases a <;> cases b <;> simp_all [ref]

end SlotCL

theorem mod_eight_lt (x : ℕ) : x % 8 < 8 := Nat.mod_lt x (Nat.zero_lt_succ 7)

def slotNumber (x : ℕ) : Fin 8 := ⟨x % 8, mod_eight_lt x⟩

/-- The buffers and the fields of `_treeStatus` that the kernel uses. -/
structure BuildMemory (R : Type) where
  child : ℕ → Fin 8 → SlotCL
  pos : ℕ → Vec3 R
  critRadii : ℕ → R
  radius : R
  bottom : ℕ
  maxDepth : ℕ
  doneCnt : ℕ
  errorCode : Bool

def BuildMemory.setChild {R : Type} (m : BuildMemory R) (n : ℕ) (j : Fin 8) (ch : SlotCL) :
    BuildMemory R :=
  { m with child := Function.update m.child n (Function.update (m.child n) j ch) }

structure DescentCL (R : Type) where
  p : Vec3 R
  n : ℕ
  j : Fin 8
  depth : ℕ
  r : R

structure SplittingCL (R : Type) extends DescentCL R where
  locked : ℕ × Fin 8
  patch : Option ℕ
  ch : SlotCL

inductive BuildPc (R : Type) where
  | start
  | next
  | look (a : DescentCL R)
  | enter (a : DescentCL R) (c : ℕ)
  | lock (a : DescentCL R) (ch : SlotCL)
  | put (a : DescentCL R)
  | alloc (s : SplittingCL R)
  | size (s : SplittingCL R) (cell : ℕ)
  | readCentre (s : SplittingCL R) (cell : ℕ)
  | writeCentre (s : SplittingCL R) (cell : ℕ) (x : Vec3 R)
  | link (s : SplittingCL R) (cell : ℕ) (x : Vec3 R)
  | old (s : SplittingCL R) (cell : ℕ) (x : Vec3 R)
  | fresh (s : SplittingCL R) (cell : ℕ) (x : Vec3 R)
  | place (s : SplittingCL R)
  | publish (s : SplittingCL R)
  | report
  | finish
  | done

def BuildPc.isDone {R : Type} : BuildPc R → Bool
  | .done => true
  | _ => false

structure BuildItem (R : Type) where
  pc : BuildPc R
  i : ℕ
  localMaxDepth : ℕ
  successCount : ℕ

/-- A launch of the kernel: `items` is the global size, `consistent` is the constant
`HAVE_CONSISTENT_MEMORY`. -/
structure BuildLaunch where
  consistent : Bool
  items : ℕ
  offset : ℕ
  maxNBody : ℕ

def BuildLaunch.maxN (l : BuildLaunch) (k : BuildArgs) : ℕ :=
  if l.consistent then l.maxNBody else k.NBODY

/-- The slot is locked or could not be locked: try again, or give the body up until the next
launch. -/
def BuildItem.fail {R : Type} (l : BuildLaunch) (it : BuildItem R) (a : DescentCL R) :
    BuildItem R :=
  if l.consistent then { it with pc := .look a } else { it with i := it.i + l.items, pc := .next }

def BuildItem.succeed {R : Type} (l : BuildLaunch) (it : BuildItem R) (depth : ℕ) : BuildItem R where
  pc := .next
  i := it.i + l.items
  localMaxDepth := max depth it.localMaxDepth
  successCount := if l.consistent then it.successCount else it.successCount + 1

variable {R : Type} [Field R] [LinearOrder R]

def newCentre (p q : Vec3 R) (r : R) : Vec3 R :=
  ⟨q.x + if p.x < q.x then -r else r, q.y + if p.y < q.y then -r else r,
    q.z + if p.z < q.z then -r else r⟩

/-- The next access of a work-item. -/
def itemStep (k : BuildArgs) (l : BuildLaunch) (m : BuildMemory R) (it : BuildItem R) :
    BuildMemory R × BuildItem R :=
  match it.pc with
  | .start =>
      (m, { it with pc := if !l.consistent && m.doneCnt == k.NBODY then .done else .next })
  | .next =>
      if it.i < l.maxN k then
        let p := m.pos it.i
        (m, { it with pc := .look ⟨p, k.NNODE, subIndexCL p (m.pos k.NNODE), 1, m.radius⟩ })
      else (m, { it with pc := .report })
  | .look a =>
      let ch := m.child a.n a.j
      if ch.isCell && a.depth ≤ k.MAXDEPTH then (m, { it with pc := .enter a ch.index })
      else if ch = .lock ∨ ch = .body it.i then (m, it.fail l a)
      else (m, { it with pc := .lock a ch })
  | .enter a c =>
      let a := { a with n := c, depth := a.depth + 1, r := a.r * 0.5,
                        j := subIndexCL a.p (m.pos c) }
      (m, { it with pc := .look a })
  | .lock a ch =>
      -- atom_cmpxchg
      if m.child a.n a.j = ch then
        (m.setChild a.n a.j .lock,
          { it with pc := if ch = .null then .put a else .alloc ⟨a, (a.n, a.j), none, ch⟩ })
      else (m, it.fail l a)
  | .put a => (m.setChild a.n a.j (.body it.i), it.succeed l a.depth)
  | .alloc s =>
      let cell := m.bottom - 1
      let overflow := decide (cell ≤ k.NBODY)
      let m := { m with bottom := if overflow then k.NNODE else cell
                        errorCode := m.errorCode || overflow }
      let s := { s with depth := s.depth + 1, patch := some (max (s.patch.getD cell) cell) }
      (m, { it with pc := .size s cell })
  | .size s cell =>
      let critRadii := if k.keepsSize then Function.update m.critRadii cell s.r else m.critRadii
      ({ m with critRadii }, { it with pc := .readCentre s cell })
  | .readCentre s cell =>
      let s := { s with r := s.r * 0.5 }
      (m, { it with pc := .writeCentre s cell (newCentre s.p (m.pos s.n) s.r) })
  | .writeCentre s cell x =>
      ({ m with pos := Function.update m.pos cell x }, { it with pc := .link s cell x })
  | .link s cell x =>
      (if s.patch ≠ some cell then m.setChild s.n s.j (.cell cell) else m,
        { it with pc := .old s cell x })
  | .old s cell x =>
      (m.setChild cell (subIndexCL (m.pos s.ch.index) x) s.ch, { it with pc := .fresh s cell x })
  | .fresh s cell x =>
      let j := subIndexCL s.p x
      let s := { s with n := cell, j, ch := m.child cell j }
      (m, { it with pc := if s.ch.isNode && s.depth ≤ k.MAXDEPTH then .alloc s else .place s })
  | .place s => (m.setChild s.n s.j (.body it.i), { it with pc := .publish s })
  | .publish s =>
      (m.setChild s.locked.1 s.locked.2 (s.patch.elim .null .cell), it.succeed l s.depth)
  | .report =>
      ({ m with doneCnt := if l.consistent then m.doneCnt else m.doneCnt + it.successCount },
        { it with pc := .finish, successCount := 0 })
  | .finish => ({ m with maxDepth := max m.maxDepth it.localMaxDepth }, { it with pc := .done })
  | .done => (m, it)

structure BuildRun (R : Type) where
  mem : BuildMemory R
  items : ℕ → BuildItem R

/-- Work-item `w` takes its next step. -/
def BuildRun.step (k : BuildArgs) (l : BuildLaunch) (s : BuildRun R) (w : ℕ) : BuildRun R :=
  let next := itemStep k l s.mem (s.items w)
  ⟨next.1, Function.update s.items w next.2⟩

def BuildLaunch.start (l : BuildLaunch) (m : BuildMemory R) : BuildRun R :=
  ⟨m, fun w => ⟨.start, l.offset + w, 1, 0⟩⟩

/-- The work-items take their steps in the order of `order`. -/
def BuildRun.steps (k : BuildArgs) (l : BuildLaunch) (s : BuildRun R)
    (order : List (Fin l.items)) : BuildRun R :=
  order.foldl (fun s (w : Fin l.items) => s.step k l w) s

/-- The kernel in the order of `order`. -/
def BuildLaunch.run (k : BuildArgs) (l : BuildLaunch) (m : BuildMemory R)
    (order : List (Fin l.items)) : BuildRun R :=
  (l.start m).steps k l order

/-- What the host reads back, when all items have ended. -/
def BuildLaunch.buildTree (k : BuildArgs) (l : BuildLaunch) (m : BuildMemory R)
    (order : List (Fin l.items)) : Option (BuildMemory R) :=
  let s := l.run k m order
  if ∀ w : Fin l.items, (s.items w).pc.isDone then some s.mem else none

end MilkyWay.NBody
