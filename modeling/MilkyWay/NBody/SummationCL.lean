import MilkyWay.Foundation.Passes
import MilkyWay.NBody.RowsCL

/-! What holds between two steps of the items of `summarization`: the registers of an item and the
children that are missing add up to the bodies below its cell, and a cell that is ready has the
mass, the centre of mass and the number of the bodies below it. -/

namespace MilkyWay.NBody

open Foundation Foundation.Octree

variable {R : Type} [Field R]

/-! ## What is added up -/

/-- The mass, the first moment and the number of bodies. -/
def weight (start : ℕ → NodeCL R) (l : List ℕ) : R × Vec3 R × ℤ :=
  (l.map fun b => ((start b).mass, (start b).mass • (start b).pos, (1 : ℤ))).sum

theorem weight_eq (start : ℕ → NodeCL R) (l : List ℕ) : weight start l =
    ((l.map fun b => (start b).mass).sum, (l.map fun b => (start b).mass • (start b).pos).sum,
      (l.length : ℤ)) := by
  induction l with
  | nil => rfl
  | cons b l ih =>
      rw [weight, List.map_cons, List.sum_cons, ← weight, ih]
      simp only [List.map_cons, List.sum_cons, List.length_cons, Prod.mk_add_mk, Nat.cast_succ]
      rw [add_comm (1 : ℤ)]

theorem weight_flatMap {α : Type} (start : ℕ → NodeCL R) (f : α → List ℕ) (l : List α) :
    weight start (l.flatMap f) = (l.map fun a => weight start (f a)).sum := by
  induction l with
  | nil => rfl
  | cons a l ih =>
      rw [List.flatMap_cons, weight, List.map_append, List.sum_append, ← weight, ← weight, ih,
        List.map_cons, List.sum_cons]

theorem count_apart (m : R) (x : Vec3 R) (n n' : ℤ) :
    ((m, x, n + n') : R × Vec3 R × ℤ) = (m, x, n) + (0, 0, n') := by
  rw [Prod.mk_add_mk, Prod.mk_add_mk, add_zero, add_zero]

def part (start : ℕ → NodeCL R) (T : Octree ℕ ℕ) (ch : SlotCL) : R × Vec3 R × ℤ :=
  weight start (childBodies T ch) - (0, 0, 1)

theorem sum_part (start : ℕ → NodeCL R) (T : Octree ℕ ℕ) (l : List SlotCL) :
    (l.map (part start T)).sum + (0, 0, (l.length : ℤ)) = weight start (l.flatMap (childBodies T)) := by
  rw [weight_flatMap]
  induction l with
  | nil => exact zero_add _
  | cons ch l ih =>
      have one : ((0, 0, ((ch :: l).length : ℤ)) : R × Vec3 R × ℤ) =
          (0, 0, 1) + (0, 0, (l.length : ℤ)) := by
        rw [Prod.mk_add_mk, Prod.mk_add_mk, add_zero, add_zero, List.length_cons, Nat.cast_succ,
          add_comm (1 : ℤ)]
      rw [List.map_cons, List.sum_cons, List.map_cons, List.sum_cons, ← ih, part, one]
      abel

variable [LinearOrder R]

/-- What a cell holds that is ready. -/
structure Totalled (B : Build R) (ctx : NBodyCtx R) (radius : R) (start : ℕ → NodeCL R)
    (T : Octree ℕ ℕ) (c : ℕ) (r : NodeCL R) : Prop where
  mass : r.mass = ((T.under c).map fun b => (start b).mass).sum
  moment : r.mass • r.pos = ((T.under c).map fun b => (start b).mass • (start b).pos).sum
  count : r.count = (T.under c).length
  order : children r.child = children (start c).child
  inFront : ∃ j, InFront r.child j
  radius : keepsRadius ctx = true →
    summarizationRC2 B ctx radius (start c).critRadius (start c).pos r.pos = some r.critRadius
  quad : ctx.useQuad = true → r.quadXX = none

theorem Totalled.clean {B : Build R} {ctx : NBodyCtx R} {radius : R} {start : ℕ → NodeCL R}
    {T : Octree ℕ ℕ} {c : ℕ} {r : NodeCL R} (h : Totalled B ctx radius start T c r) :
    Clean r.child := by
  obtain ⟨j, inFront⟩ := h.inFront
  exact inFront.clean

structure Unsummed (start : ℕ → NodeCL R) (c : ℕ) (r : NodeCL R) : Prop where
  mass : r.mass < 0
  order : children r.child = children (start c).child
  clean : Clean r.child
  pos : r.pos = (start c).pos
  critRadius : r.critRadius = (start c).critRadius

/-! ## The invariant -/

structure SumPass (R : Type) where
  l : PassLaunch
  bottom : ℕ
  radius : R
  start : ℕ → NodeCL R
  T : Octree ℕ ℕ
  before : ℕ → Prop

namespace SumPass

variable (P : SumPass R) (B : Build R) (ctx : NBodyCtx R)

/-- The cells that the items share. -/
abbrev range : StrideRange := ⟨P.l.WARPSIZE, P.l.items, P.bottom, P.l.NNODE⟩

structure Kept (m : TreeMemory R) : Prop where
  cells : ∀ c ∈ P.T.cells, 0 ≤ (m.nodes c).mass → Totalled B ctx P.radius P.start P.T c (m.nodes c)
  bodies : ∀ b ∈ P.T.leaves, m.nodes b = P.start b
  status : m.radius = P.radius ∧ m.bottom = P.bottom
  earlier : ∀ c ∈ P.T.cells, P.before c → 0 ≤ (m.nodes c).mass

def Ahead (c : ℕ) (r : NodeCL R) : Prop :=
  Unsummed P.start c r ∨ P.l.consistent = false ∧ 0 ≤ r.mass

def Behind (c : ℕ) (r : NodeCL R) : Prop :=
  0 ≤ r.mass ∨ P.l.consistent = false ∧ Unsummed P.start c r ∧
    ∃ d, .cell d ∈ children (P.start c).child ∧ ¬ P.before d

structure Working (r : NodeCL R) (k : ℕ) (missing : List SlotCL) : Prop where
  mass : r.mass < 0
  pos : r.pos = (P.start k).pos
  critRadius : r.critRadius = (P.start k).critRadius
  missing : ∀ ch ∈ missing, ∃ d, ch = .cell d ∧ ch ∈ children (P.start k).child ∧ ¬ P.before d

def Shape (c : ℕ) (row : Fin 8 → SlotCL) : Option (ℕ × ℕ) → Prop
  | some (i, j) => ∃ row₀, children row₀ = children (P.start c).child ∧ Clean row₀ ∧
      Packed row₀ row i j
  | none => children row = children (P.start c).child ∧ ∃ j, InFront row j

def target (c : ℕ) (row : Fin 8 → SlotCL) : Option (ℕ × ℕ) → R × Vec3 R × ℤ
  | some (_, j) => ((front row j).map (part P.start P.T)).sum
  | none => weight P.start (P.T.under c)

def Lacks (it : SumItem R) (rest total : R × Vec3 R × ℤ) : Prop :=
  (it.cm, it.p, it.cnt) + (it.missing.map (part P.start P.T)).sum + rest = total

structure Storing (r : NodeCL R) (k : ℕ) (missing : List SlotCL) (final : NodeCL R) : Prop where
  mass : r.mass < 0
  missing : missing = []
  total : Totalled B ctx P.radius P.start P.T k final

def Holds (sees : SlotCL → R → Prop) (r : NodeCL R) (it : SumItem R) : Prop :=
  match it.pc with
  | .check => it.missing = [] ∧ P.Ahead it.k r ∨ P.l.consistent = true ∧ it.missing ≠ [] ∧
      P.Working r it.k it.missing ∧ P.Shape it.k r.child none ∧ P.Lacks it 0 (P.target it.k r.child none)
  | .slot i j => P.Working r it.k it.missing ∧ P.Shape it.k r.child (some (i, j)) ∧
      P.Lacks it 0 (P.target it.k r.child (some (i, j)))
  | .flag i j ch => P.Working r it.k it.missing ∧ P.Shape it.k r.child (some (i + 1, j + 1)) ∧
      r.child (slotNumber j) = ch ∧ ch ∈ children (P.start it.k).child ∧
      P.Lacks it 0 (P.target it.k r.child (some (i, j)))
  | .count ch m back => P.Working r it.k it.missing ∧ P.Shape it.k r.child back ∧ sees ch m ∧
      ch ∈ children (P.start it.k).child ∧ (back = none → ch.isCell = true) ∧
      P.Lacks it (part P.start P.T ch) (P.target it.k r.child back)
  | .add ch m back => P.Working r it.k it.missing ∧ P.Shape it.k r.child back ∧ sees ch m ∧
      ch ∈ children (P.start it.k).child ∧
      P.Lacks it ((part P.start P.T ch).1, (part P.start P.T ch).2.1, 0)
        (P.target it.k r.child back)
  | .poll => P.Working r it.k it.missing ∧ P.Shape it.k r.child none ∧
      P.Lacks it 0 (P.target it.k r.child none)
  | .storeCount => P.Working r it.k it.missing ∧ it.missing = [] ∧ P.Shape it.k r.child none ∧
      (it.cm, it.p, it.cnt) = weight P.start (P.T.under it.k)
  | .centre => P.Working r it.k it.missing ∧ it.missing = [] ∧ P.Shape it.k r.child none ∧
      (it.cm, it.p, r.count) = weight P.start (P.T.under it.k)
  | .storePos rc2 => P.Storing B ctx r it.k it.missing { r with
      mass := it.cm
      pos := it.p
      critRadius := if keepsRadius ctx then rc2.getD r.critRadius else r.critRadius
      quadXX := if ctx.useQuad then none else r.quadXX }
  | .storeRadius rc2 => P.Storing B ctx r it.k it.missing { r with
      mass := it.cm
      critRadius := if keepsRadius ctx then rc2.getD r.critRadius else r.critRadius
      quadXX := if ctx.useQuad then none else r.quadXX }
  | .storeQuad => P.Storing B ctx r it.k it.missing { r with
      mass := it.cm
      quadXX := if ctx.useQuad then none else r.quadXX }
  | .storeMass => P.Storing B ctx r it.k it.missing { r with mass := it.cm }
  | .done => False

def Sees (m : TreeMemory R) (ch : SlotCL) (mass : R) : Prop :=
  0 ≤ (m.nodes ch.index).mass ∧ (m.nodes ch.index).mass = mass

abbrev course : Course (TreeMemory R) (NodeCL R) (SumItem R) where
  record := TreeMemory.nodes
  position := SumItem.k
  Ahead := P.Ahead
  Behind := P.Behind
  Holds m := P.Holds B ctx (Sees m)
  Rests it := it.pc = .check ∨ it.pc = .done

abbrev Passing (w : ℕ) (m : TreeMemory R) (it : SumItem R) : Prop :=
  (P.course B ctx).Passing P.range w m it

structure Ready : Prop where
  device : OnDevice P.l P.bottom (fun c => (P.start c).child) P.T
  warp : 0 < P.l.WARPSIZE
  items : P.l.WARPSIZE ≤ P.l.items
  masses : ∀ b ∈ P.T.leaves, 0 ≤ (P.start b).mass
  heavy : ∀ c ∈ P.T.cells, 0 < ((P.T.under c).map fun b => (P.start b).mass).sum

end SumPass

end MilkyWay.NBody
