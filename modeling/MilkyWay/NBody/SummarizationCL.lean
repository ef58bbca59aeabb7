import MilkyWay.Foundation.Ownership
import MilkyWay.Foundation.Strides
import MilkyWay.NBody.BuildItemsCL
import MilkyWay.NBody.ForceCL

/-! The kernels `summarizationClear` and `summarization` by the accesses of their work-items. An
item adds up the children of its cells and waits for those that other items have not finished; the
mass is stored last, and tells the others that the cell is ready. Only its own item uses the slots,
the centre and the size of a cell, so that these are read and moved in one step. -/

namespace MilkyWay.NBody

open Foundation

structure NodeCL (R : Type) where
  child : Fin 8 → SlotCL
  pos : Vec3 R
  mass : R
  critRadius : R
  count : ℤ
  start : ℤ
  quadXX : Option R
  quadXY : R
  quadXZ : R
  quadYY : R
  quadYZ : R
  quadZZ : R

/-- The arrays and the fields of `_treeStatus`; `structureError` is the error code
`NBODY_KERNEL_TREE_STRUCTURE_ERROR`. -/
structure TreeMemory (R : Type) where
  nodes : ℕ → NodeCL R
  radius : R
  bottom : ℕ
  maxDepth : ℕ
  structureError : Bool

def TreeMemory.setNode {R : Type} (m : TreeMemory R) (n : ℕ) (r : NodeCL R) : TreeMemory R :=
  { m with nodes := Function.update m.nodes n r }

/-- What the passes over the cells are compiled with, and their launch: `items` is the global
size, `groups` the number of groups. -/
structure PassLaunch where
  consistent : Bool
  WARPSIZE : ℕ
  NBODY : ℕ
  NNODE : ℕ
  items : ℕ
  groups : ℕ

def PassLaunch.first (l : PassLaunch) (bottom w : ℕ) : ℕ :=
  alignedStart l.WARPSIZE l.items bottom w

/-- Which access comes next. A child that is ready is added with the mass that was read, and then
the slots are gone on with, `back`, or the next missing child is polled. -/
inductive SumPc (R : Type) where
  | check
  | slot (i j : ℕ)
  | flag (i j : ℕ) (ch : SlotCL)
  | count (ch : SlotCL) (m : R) (back : Option (ℕ × ℕ))
  | add (ch : SlotCL) (m : R) (back : Option (ℕ × ℕ))
  | poll
  | storeCount
  | centre
  | storePos (rc2 : Option R)
  | storeRadius (rc2 : Option R)
  | storeQuad
  | storeMass
  | done

structure SumItem (R : Type) where
  pc : SumPc R
  k : ℕ
  missing : List SlotCL
  cm : R
  p : Vec3 R
  cnt : ℤ

/-- Move on to the next cell. -/
def SumItem.next {R : Type} (l : PassLaunch) (it : SumItem R) : SumItem R :=
  { it with k := it.k + l.items, missing := [], pc := .check }

def SumItem.settle {R : Type} (l : PassLaunch) (it : SumItem R) : SumItem R :=
  if it.missing = [] then { it with pc := .storeCount }
  else if l.consistent || l.groups == 1 then { it with pc := .poll }
  else it.next l

def moveChild (child : Fin 8 → SlotCL) (i j : ℕ) (ch : SlotCL) : Fin 8 → SlotCL :=
  if i ≠ j then
    Function.update (Function.update child (slotNumber i) .null) (slotNumber j) ch
  else child

section

variable {R : Type} [Field R] [LinearOrder R]

/-- The next access of a work-item. -/
def sumStep (B : Build R) (ctx : NBodyCtx R) (l : PassLaunch) (m : TreeMemory R) (it : SumItem R) :
    TreeMemory R × SumItem R :=
  let node := m.nodes it.k
  match it.pc with
  | .check =>
      if it.k ≤ l.NNODE then
        if l.consistent || decide (node.mass < 0) then
          (m, if it.missing = [] then { it with pc := .slot 0 0, cm := 0, p := 0, cnt := 0 }
            else { it with pc := .poll })
        else (m, it.next l)
      else (m, { it with pc := .done })
  | .slot i j =>
      if i < 8 then
        let ch := node.child (slotNumber i)
        if ch.isNode then
          (m.setNode it.k { node with child := moveChild node.child i j ch },
            { it with pc := .flag i j ch })
        else (m, { it with pc := .slot (i + 1) j })
      else (m, ({ it with cnt := it.cnt + j } : SumItem R).settle l)
  | .flag i j ch =>
      let mass := (m.nodes ch.index).mass
      if 0 ≤ mass then (m, { it with pc := .count ch mass (some (i + 1, j + 1)) })
      else (m, { it with missing := ch :: it.missing, pc := .slot (i + 1) (j + 1) })
  | .count ch mass back =>
      let cnt := if back = none ∨ ch.isCell = true then
        it.cnt + ((m.nodes ch.index).count - 1) else it.cnt
      (m, { it with cnt, pc := .add ch mass back })
  | .add ch mass back =>
      let x := (m.nodes ch.index).pos
      let p := ⟨mad mass x.x it.p.x, mad mass x.y it.p.y, mad mass x.z it.p.z⟩
      let it := { it with cm := it.cm + mass, p }
      (m, back.elim (it.settle l) fun at_ => { it with pc := .slot at_.1 at_.2 })
  | .poll =>
      match it.missing with
      | [] => (m, it.settle l)
      | ch :: missing =>
          let mass := (m.nodes ch.index).mass
          if 0 ≤ mass then (m, { it with missing, pc := .count ch mass none })
          else (m, if l.consistent then { it with pc := .check } else it.next l)
  | .storeCount =>
      (m.setNode it.k { node with count := it.cnt }, { it with pc := .centre })
  | .centre =>
      let s := 1 / it.cm
      let p : Vec3 R := ⟨it.p.x * s, it.p.y * s, it.p.z * s⟩
      let c := node.pos
      let psize := node.critRadius
      let outside := keepsRadius ctx && (nbCheckTreeDim c.x p.x psize ||
        nbCheckTreeDim c.y p.y psize || nbCheckTreeDim c.z p.z psize)
      ({ m with structureError := m.structureError || outside },
        { it with p, pc := .storePos (summarizationRC2 B ctx m.radius psize c p) })
  | .storePos rc2 =>
      (m.setNode it.k { node with pos := it.p }, { it with pc := .storeRadius rc2 })
  | .storeRadius rc2 =>
      (if keepsRadius ctx then
          m.setNode it.k { node with critRadius := rc2.getD node.critRadius } else m,
        { it with pc := .storeQuad })
  | .storeQuad =>
      (if ctx.useQuad then m.setNode it.k { node with quadXX := none } else m,
        { it with pc := .storeMass })
  | .storeMass => (m.setNode it.k { node with mass := it.cm }, it.next l)
  | .done => (m, it)

def sumStart (l : PassLaunch) (m : TreeMemory R) : Crew (TreeMemory R) (SumItem R) :=
  ⟨m, fun w => ⟨.check, l.first m.bottom w, [], 0, 0, 0⟩⟩

def SumPc.isDone : SumPc R → Bool
  | .done => true
  | _ => false

/-- The kernel in the order of `order`, when all items have ended. -/
def summarization (B : Build R) (ctx : NBodyCtx R) (l : PassLaunch) (m : TreeMemory R)
    (order : List (Fin l.items)) : Option (TreeMemory R) :=
  let s := (sumStart l m).steps (sumStep B ctx l) order
  if ∀ w : Fin l.items, (s.workers w).pc.isDone then some s.mem else none

end

end MilkyWay.NBody
