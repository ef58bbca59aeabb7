import MilkyWay.NBody.BoundingBoxCL

/-! The tree on a device and the critical radii of its cells. Work-items insert bodies side
by side; `build_sized` says which size is saved for each cell. The size of the root is half
its side where every other cell has its full side, and the radii that are computed from
them are those of the host under the condition of `critRadius_iff`. -/

namespace MilkyWay.NBody

open Foundation

variable {R : Type} [Field R] [LinearOrder R]

/-! ## The kernel -/

/-- What a slot of a cell holds. A slot that is locked is only seen by the work-item that
has locked it. -/
inductive Child where
  | null
  | body (b : ℕ)
  | cell (c : ℕ)
deriving DecidableEq

/-- The constants a kernel is compiled with; `keepsSize` in the criteria with a size. -/
structure BuildArgs where
  NBODY : ℕ
  NNODE : ℕ
  MAXDEPTH : ℕ
  keepsSize : Bool

structure TreeCL (R : Type) where
  child : ℕ → Fin 8 → Child
  pos : ℕ → Vec3 R
  critRadii : ℕ → R
  bottom : ℕ

open Foundation.Numerals in
def subIndexCL (p q : Vec3 R) : Fin 8 :=
  (if q.x ≤ p.x then 1 else 0) + (if q.y ≤ p.y then 2 else 0) + (if q.z ≤ p.z then 4 else 0)

open Foundation.Numerals in
def slotCube (Q : Cube R) (j : Fin 8) : Cube R where
  center := ⟨Cube.offset Q.center.x Q.size (j.val.testBit 0),
    Cube.offset Q.center.y Q.size (j.val.testBit 1),
    Cube.offset Q.center.z Q.size (j.val.testBit 2)⟩
  size := Q.size / 2

def TreeCL.setChild (t : TreeCL R) (n : ℕ) (j : Fin 8) (ch : Child) : TreeCL R :=
  { t with child := Function.update t.child n (Function.update (t.child n) j ch) }

/-- Create a cell in slot `j` of `n`, half of whose side is `r`, on the way of a body at `p`;
the body `o` from the slot goes into the new cell. -/
def makeCell (k : BuildArgs) (p : Vec3 R) (t : TreeCL R) (n : ℕ) (j : Fin 8) (r : R) (o : ℕ) :
    Option (ℕ × TreeCL R) :=
  let cell := t.bottom - 1
  if cell ≤ k.NBODY then none
  else
    let critRadii := if k.keepsSize then Function.update t.critRadii cell r else t.critRadii
    let q := t.pos n
    let r := r * 0.5
    let x : Vec3 R := ⟨q.x + if p.x < q.x then -r else r, q.y + if p.y < q.y then -r else r,
      q.z + if p.z < q.z then -r else r⟩
    let t := { t with critRadii, bottom := cell, pos := Function.update t.pos cell x }
    some (cell, (t.setChild cell (subIndexCL (t.pos o) x) (.body o)).setChild n j (.cell cell))

/-- Create cells until body `i` at `p` and the body in the slot are in different children.
The first cell is linked when the slot is unlocked. A tree that becomes deeper than
`MAXDEPTH` is not used. -/
def splitLoop (k : BuildArgs) (p : Vec3 R) (i : ℕ) : ℕ → TreeCL R → ℕ → Fin 8 → R → ℕ →
    Option (TreeCL R)
  | 0, _, _, _, _, _ => none
  | fuel + 1, t, n, j, r, o => do
      let (cell, t) ← makeCell k p t n j r o
      let j := subIndexCL p (t.pos cell)
      match t.child cell j with
      | .null => some (t.setChild cell j (.body i))
      | .body o => splitLoop k p i fuel t cell j (r * 0.5) o
      | .cell _ => none

structure ItemCL (R : Type) where
  body : ℕ
  p : Vec3 R
  n : ℕ
  depth : ℕ
  r : R

structure BuildState (R : Type) where
  tree : TreeCL R
  items : ℕ → Option (ItemCL R)

/-- The steps of work-item `w`: take a body to the root, also one that could not be placed
before; follow the path to the next cell; lock the slot, insert the body and unlock it. -/
inductive BuildAct where
  | begin (w i : ℕ)
  | descend (w : ℕ)
  | insert (w : ℕ)

def ItemCL.slot (it : ItemCL R) (t : TreeCL R) : Fin 8 := subIndexCL it.p (t.pos it.n)

def insertBody (k : BuildArgs) (t : TreeCL R) (it : ItemCL R) : Option (TreeCL R) :=
  match t.child it.n (it.slot t) with
  | .null => some (t.setChild it.n (it.slot t) (.body it.body))
  | .body o =>
      if o = it.body then none
      else splitLoop k it.p it.body (k.MAXDEPTH + 1 - it.depth) t it.n (it.slot t) it.r o
  | .cell _ => none

def buildStep (k : BuildArgs) (root : RootCell R) (s : BuildState R) :
    BuildAct → Option (BuildState R)
  | .begin w i =>
      if i < k.NBODY then
        let it := ⟨i, s.tree.pos i, k.NNODE, 1, root.radius⟩
        some { s with items := Function.update s.items w (some it) }
      else none
  | .descend w => do
      let it ← s.items w
      match s.tree.child it.n (it.slot s.tree) with
      | .cell c =>
          if it.depth ≤ k.MAXDEPTH then
            let it := { it with n := c, depth := it.depth + 1, r := it.r * 0.5 }
            some { s with items := Function.update s.items w (some it) }
          else none
      | _ => none
  | .insert w => do
      let it ← s.items w
      let tree ← insertBody k s.tree it
      return ⟨tree, Function.update s.items w none⟩

def buildStart (k : BuildArgs) (posn : ℕ → Vec3 R) (root : RootCell R) (garbage : ℕ → R) :
    BuildState R where
  tree :=
    { child := fun _ _ => .null
      pos := Function.update posn k.NNODE root.pos
      critRadii := if k.keepsSize then Function.update garbage k.NNODE root.radius else garbage
      bottom := k.NNODE }
  items _ := none

/-- Steps of the work-items in the order of `acts`. -/
def buildTreeCL (k : BuildArgs) (posn : ℕ → Vec3 R) (root : RootCell R) (garbage : ℕ → R)
    (acts : List BuildAct) : Option (BuildState R) :=
  acts.foldlM (buildStep k root) (buildStart k posn root garbage)

/-! ## The cubes of the cells -/

/-- The cells below the root with their cubes and their levels. -/
inductive CellCube (k : BuildArgs) (root : RootCell R) (t : TreeCL R) : ℕ → Cube R → ℕ → Prop
  | root : CellCube k root t k.NNODE root.cube 0
  | child (n c : ℕ) (Q : Cube R) (L : ℕ) (j : Fin 8) (parent : CellCube k root t n Q L)
      (slot : t.child n j = .cell c) : CellCube k root t c (slotCube Q j) (L + 1)

structure Sized (k : BuildArgs) (root : RootCell R) (t : TreeCL R) (cube : ℕ → Cube R) :
    Prop where
  top : cube k.NNODE = root.cube
  bottom : t.bottom ≤ k.NNODE
  fresh : ∀ n < t.bottom, ∀ j c, t.child n j ≠ .cell c
  pos : ∀ n, t.bottom ≤ n → n ≤ k.NNODE → t.pos n = (cube n).center
  saved : k.keepsSize → ∀ n, t.bottom ≤ n → n ≤ k.NNODE →
    t.critRadii n = if n = k.NNODE then root.radius else (cube n).size
  below : ∀ n, t.bottom ≤ n → n ≤ k.NNODE → ∀ j c, t.child n j = .cell c →
    t.bottom ≤ c ∧ c < n ∧ cube c = slotCube (cube n) j

structure Halved (k : BuildArgs) (t : TreeCL R) (cube : ℕ → Cube R) (n : ℕ) (r : R) : Prop where
  bottom : t.bottom ≤ n
  top : n ≤ k.NNODE
  half : r = (cube n).size / 2

variable {k : BuildArgs} {root : RootCell R} {t t' : TreeCL R} {cube : ℕ → Cube R}

omit [LinearOrder R] in
theorem CellCube.sized {n L : ℕ} {Q : Cube R} (h : CellCube k root t n Q L)
    (sized : Sized k root t cube) :
    t.bottom ≤ n ∧ n ≤ k.NNODE ∧ Q = cube n ∧ (n = k.NNODE ↔ L = 0) := by
  induction h with
  | root => exact ⟨sized.bottom, le_rfl, sized.top.symm, iff_of_true rfl rfl⟩
  | child n c Q L j parent slot ih =>
      obtain ⟨allocated, inTree, rfl, -⟩ := ih
      obtain ⟨allocated', later, cubes⟩ := sized.below n allocated inTree j c slot
      refine ⟨allocated', by omega, cubes.symm, iff_of_false (by omega) (by omega)⟩

omit [Field R] [LinearOrder R] in
theorem setChild_child (t : TreeCL R) (n : ℕ) (j : Fin 8) (ch : Child) (a : ℕ) (i : Fin 8) :
    (t.setChild n j ch).child a i = if a = n ∧ i = j then ch else t.child a i := by
  by_cases own : a = n
  · subst own
    by_cases here : i = j
    · subst here
      simp [TreeCL.setChild]
    · simp [TreeCL.setChild, here]
  · simp [TreeCL.setChild, own]

omit [Field R] [LinearOrder R] in
theorem child_of_setBody {n b a c : ℕ} {j i : Fin 8}
    (h : (t.setChild n j (.body b)).child a i = .cell c) : t.child a i = .cell c := by
  rw [setChild_child] at h
  split at h
  · cases h
  · exact h

omit [LinearOrder R] in
theorem Sized.setBody (h : Sized k root t cube) (n : ℕ) (j : Fin 8) (b : ℕ) :
    Sized k root (t.setChild n j (.body b)) cube :=
  ⟨h.top, h.bottom, fun a ha i c slot => h.fresh a ha i c (child_of_setBody slot), h.pos, h.saved,
    fun a ha ha' i c slot => h.below a ha ha' i c (child_of_setBody slot)⟩

omit [Field R] in
theorem testBit_subIndexCL (p q : Vec3 R) :
    (subIndexCL p q).val.testBit 0 = decide (q.x ≤ p.x) ∧
      (subIndexCL p q).val.testBit 1 = decide (q.y ≤ p.y) ∧
      (subIndexCL p q).val.testBit 2 = decide (q.z ≤ p.z) := by
  unfold subIndexCL
  split_ifs with hx hy hz hz hy hz hz <;> simp only [hx, hy, hz] <;> decide

variable [IsStrictOrderedRing R]

theorem offsetCL_eq (p q size : R) :
    q + (if p < q then -(size / 2 * 0.5) else size / 2 * 0.5) =
      Cube.offset q size (decide (q ≤ p)) := by
  have half : size / 2 * 0.5 = size / 4 := by
    rw [show (0.5 : R) = 1 / 2 by norm_num]
    ring
  rw [half, Cube.offset]
  by_cases below : p < q
  · simp [below, not_le.mpr below]
  · simp [below, not_lt.mp below]

theorem makeCell_sized {p : Vec3 R} {n o cell : ℕ} {r : R} (h : Sized k root t cube)
    (here : Halved k t cube n r)
    (made : makeCell k p t n (subIndexCL p (t.pos n)) r o = some (cell, t')) :
    ∃ cube', Sized k root t' cube' ∧ Halved k t' cube' cell (r * 0.5) ∧
      t'.bottom ≤ t.bottom ∧ ∀ a, t.bottom ≤ a → cube' a = cube a := by
  obtain ⟨allocated, inTree, rfl⟩ := here
  rw [makeCell] at made
  dsimp only at made
  split at made
  · cases made
  rename_i room
  rw [Option.some.injEq, Prod.mk.injEq] at made
  obtain ⟨rfl, rfl⟩ := made
  set cell := t.bottom - 1 with hcell
  have new : cell < t.bottom := by omega
  set j := subIndexCL p (t.pos n) with hj
  have old : ∀ a, t.bottom ≤ a → a ≠ cell := fun a ha => by omega
  have topOld : t.bottom ≤ k.NNODE := allocated.trans inTree
  have same : ∀ a, t.bottom ≤ a →
      Function.update cube cell (slotCube (cube n) j) a = cube a := fun a ha =>
    Function.update_of_ne (old a ha) _ _
  have bottom : ∀ a, cell ≤ a → a ≠ cell → t.bottom ≤ a := fun a ha ne => by omega
  refine ⟨Function.update cube cell (slotCube (cube n) j), ?_, ?_, new.le, same⟩
  · refine ⟨(same _ topOld).trans h.top, new.le.trans topOld, ?_, ?_, ?_, ?_⟩
    · intro a ha i c
      have ha : a < cell := ha
      rw [setChild_child, if_neg (fun e => by omega)]
      exact fun slot => h.fresh a (by omega) i c (child_of_setBody slot)
    · intro a ha ha'
      by_cases own : a = cell
      · subst own
        obtain ⟨bx, by_, bz⟩ := testBit_subIndexCL p (t.pos n)
        rw [Function.update_self, slotCube, hj, bx, by_, bz]
        show Function.update t.pos cell _ cell = _
        rw [Function.update_self, offsetCL_eq, offsetCL_eq, offsetCL_eq, h.pos n allocated inTree]
      · rw [same a (bottom a ha own), ← h.pos a (bottom a ha own) ha']
        exact Function.update_of_ne own _ _
    · intro keeps a ha ha'
      show (if k.keepsSize = true then Function.update t.critRadii cell _ else t.critRadii) a = _
      rw [if_pos keeps]
      by_cases own : a = cell
      · subst own
        rw [Function.update_self, Function.update_self, if_neg (by omega)]
        rfl
      · rw [same a (bottom a ha own), Function.update_of_ne own]
        exact h.saved keeps a (bottom a ha own) ha'
    · intro a ha ha' i c slot
      rw [setChild_child] at slot
      by_cases linked : a = n ∧ i = j
      · rw [if_pos linked, Child.cell.injEq] at slot
        obtain ⟨rfl, rfl⟩ := linked
        refine ⟨slot.le, by omega, ?_⟩
        rw [← slot, Function.update_self, same a allocated]
      · rw [if_neg linked] at slot
        have slot := child_of_setBody slot
        by_cases own : a = cell
        · subst own
          exact absurd slot (h.fresh cell new i c)
        · obtain ⟨later, below, cubes⟩ := h.below a (bottom a ha own) ha' i c slot
          refine ⟨new.le.trans later, below, ?_⟩
          rw [same a (bottom a ha own), same c later, cubes]
  · refine ⟨le_rfl, new.le.trans topOld, ?_⟩
    have half : (0.5 : R) = 1 / 2 := by norm_num
    rw [Function.update_self, half]
    show _ = (cube n).size / 2 / 2
    ring

theorem splitLoop_sized {p : Vec3 R} {i fuel n o : ℕ} {r : R} (h : Sized k root t cube)
    (here : Halved k t cube n r)
    (run : splitLoop k p i fuel t n (subIndexCL p (t.pos n)) r o = some t') :
    ∃ cube', Sized k root t' cube' ∧ t'.bottom ≤ t.bottom ∧
      ∀ a, t.bottom ≤ a → cube' a = cube a := by
  induction fuel generalizing t cube n r o with
  | zero => cases run
  | succ fuel ih =>
      rw [splitLoop, Option.bind_eq_bind, Option.bind_eq_some_iff] at run
      obtain ⟨⟨cell, t₁⟩, made, run⟩ := run
      obtain ⟨cube₁, sized, halved, lower, same⟩ := makeCell_sized h here made
      dsimp only at run
      cases slot : t₁.child cell (subIndexCL p (t₁.pos cell)) with
      | null =>
          rw [slot, Option.some.injEq] at run
          subst run
          exact ⟨cube₁, sized.setBody _ _ _, lower, same⟩
      | body b =>
          rw [slot] at run
          obtain ⟨cube₂, sized₂, lower₂, same₂⟩ := ih sized halved run
          exact ⟨cube₂, sized₂, lower₂.trans lower, fun a ha =>
            (same₂ a (lower.trans ha)).trans (same a ha)⟩
      | cell c =>
          rw [slot] at run
          cases run

/-- What every run of the kernel keeps: the cells are sized and each item has half the side
of the cell it is at. -/
def Building (k : BuildArgs) (root : RootCell R) (s : BuildState R) : Prop :=
  ∃ cube, Sized k root s.tree cube ∧
    ∀ w it, s.items w = some it → Halved k s.tree cube it.n it.r

omit [LinearOrder R] [IsStrictOrderedRing R] in
theorem Halved.mono {cube' : ℕ → Cube R} {n : ℕ} {r : R} (h : Halved k t cube n r)
    (lower : t'.bottom ≤ t.bottom) (same : ∀ a, t.bottom ≤ a → cube' a = cube a) :
    Halved k t' cube' n r :=
  ⟨lower.trans h.bottom, h.top, by rw [same n h.bottom, h.half]⟩

theorem insertBody_sized {it : ItemCL R} (h : Sized k root t cube)
    (here : Halved k t cube it.n it.r) (run : insertBody k t it = some t') :
    ∃ cube', Sized k root t' cube' ∧ t'.bottom ≤ t.bottom ∧
      ∀ a, t.bottom ≤ a → cube' a = cube a := by
  rw [insertBody] at run
  cases slot : t.child it.n (it.slot t) with
  | null =>
      rw [slot, Option.some.injEq] at run
      subst run
      exact ⟨cube, h.setBody _ _ _, le_rfl, fun _ _ => rfl⟩
  | body o =>
      rw [slot] at run
      dsimp only at run
      split at run
      · cases run
      · exact splitLoop_sized h here run
  | cell c =>
      rw [slot] at run
      cases run

omit [Field R] [LinearOrder R] [IsStrictOrderedRing R] in
theorem forall_items_update {items : ℕ → Option (ItemCL R)} {P : ItemCL R → Prop} {w : ℕ}
    {new : Option (ItemCL R)} (others : ∀ w it, items w = some it → P it)
    (own : ∀ it, new = some it → P it) (a : ℕ) (it : ItemCL R)
    (h : Function.update items w new a = some it) : P it := by
  by_cases same : a = w
  · rw [same, Function.update_self] at h
    exact own it h
  · rw [Function.update_of_ne same] at h
    exact others a it h

theorem buildStep_building {s s' : BuildState R} {a : BuildAct} (h : Building k root s)
    (step : buildStep k root s a = some s') : Building k root s' := by
  obtain ⟨cube, sized, items⟩ := h
  cases a with
  | begin w i =>
      rw [buildStep] at step
      split at step
      · rw [Option.some.injEq] at step
        subst step
        refine ⟨cube, sized, forall_items_update items fun it new => ?_⟩
        cases new
        refine ⟨sized.bottom, le_rfl, ?_⟩
        rw [sized.top, RootCell.cube]
        ring
      · cases step
  | descend w =>
      rw [buildStep, Option.bind_eq_bind, Option.bind_eq_some_iff] at step
      obtain ⟨it, taken, step⟩ := step
      cases slot : s.tree.child it.n (it.slot s.tree) with
      | null => simp [slot] at step
      | body o => simp [slot] at step
      | cell c =>
          rw [slot] at step
          dsimp only at step
          split at step
          · rw [Option.some.injEq] at step
            subst step
            have here := items w it taken
            obtain ⟨allocated, later, cubes⟩ := sized.below it.n here.bottom here.top _ c slot
            refine ⟨cube, sized, forall_items_update items fun it' new => ?_⟩
            cases new
            refine ⟨allocated, later.le.trans here.top, ?_⟩
            have half : (0.5 : R) = 1 / 2 := by norm_num
            rw [cubes, here.half, half]
            show _ = (cube it.n).size / 2 / 2
            ring
          · cases step
  | insert w =>
      simp only [buildStep, Option.bind_eq_bind, Option.bind_eq_some_iff, Option.pure_def,
        Option.some.injEq] at step
      obtain ⟨it, taken, tree, insert, rfl⟩ := step
      obtain ⟨cube', sized', lower, same⟩ := insertBody_sized sized (items w it taken) insert
      refine ⟨cube', sized', forall_items_update (fun a it' old => ?_) fun _ none => by cases none⟩
      exact (items a it' old).mono lower same

theorem build_sized {posn : ℕ → Vec3 R} {garbage : ℕ → R} {acts : List BuildAct}
    {s : BuildState R} (run : buildTreeCL k posn root garbage acts = some s) :
    Building k root s := by
  refine foldlM_invariant (fun _ s => Building k root s) ?_ ?_ run
  · refine ⟨Function.update (fun _ => ⟨0, 0⟩) k.NNODE root.cube, ⟨?_, le_rfl, ?_, ?_, ?_, ?_⟩, ?_⟩
    · exact Function.update_self ..
    · intro n hn j c slot
      cases slot
    · intro n low high
      obtain rfl : n = k.NNODE := le_antisymm high low
      simp [buildStart, RootCell.cube]
    · intro keeps n low high
      obtain rfl : n = k.NNODE := le_antisymm high low
      simp [buildStart, keeps]
    · intro n low high j c slot
      cases slot
    · intro w it none
      cases none
  · exact fun done a rest s s' _ inv step => buildStep_building inv step

/-! ## The critical radii -/

/-- The constants for a context. -/
def buildArgs (ctx : NBodyCtx R) (NBODY NNODE MAXDEPTH : ℕ) : BuildArgs :=
  ⟨NBODY, NNODE, MAXDEPTH, ctx.criterion = .sw93 || ctx.criterion = .treeCode⟩

def mad (a b c : R) : R := a * b + c

/-- The radius assigned to a cell with centre `c` and centre of mass `p`. -/
def summarizationRC2 (B : Build R) (ctx : NBodyCtx R) (rootSize psize : R) (c p : Vec3 R) :
    Option R :=
  if ctx.theta == 0 then some (sqr (2.0 * rootSize))
  else match ctx.criterion with
    | .sw93 =>
        let bmax2 := bmax2Inc p.x c.x psize + bmax2Inc p.y c.y psize + bmax2Inc p.z c.z psize
        some (bmax2 / (ctx.theta * ctx.theta))
    | .treeCode =>
        let d := p - c
        let dr := B.sqrt (mad d.z d.z (mad d.y d.y (d.x * d.x)))
        let rc := psize / ctx.theta + dr
        some (rc * rc)
    | _ => none

def levelRadii (ctx : NBodyCtx R) (rootSize : R) : ℕ → R
  | 0 =>
      let rc := if ctx.theta == 0 then 2.0 * rootSize else rootSize / ctx.theta
      rc * rc
  | i + 1 => 0.25 * levelRadii ctx rootSize i

/-- The squared radius used for cell `n` at level `L` with centre of mass `p`. A cell is
compared with the radius of its parent's level, the root with none. -/
def critRadiusCL (B : Build R) (ctx : NBodyCtx R) (root : RootCell R) (t : TreeCL R) (n L : ℕ)
    (p : Vec3 R) : Option R :=
  match ctx.criterion, L with
  | .sw93, _ => summarizationRC2 B ctx root.radius (t.critRadii n) (t.pos n) p
  | .treeCode, _ => summarizationRC2 B ctx root.radius (t.critRadii n) (t.pos n) p
  | .bh86, l + 1 => some (levelRadii ctx root.radius l)
  | _, _ => none

omit [LinearOrder R] [IsStrictOrderedRing R] in
theorem CellCube.size {n L : ℕ} {Q : Cube R} (h : CellCube k root t n Q L) :
    Q.size = 2 * root.radius / 2 ^ L := by
  induction h with
  | root => rw [pow_zero, div_one, RootCell.cube]
  | child n c Q L j parent slot ih =>
      rw [slotCube, ih, pow_succ, div_div]

omit [IsStrictOrderedRing R] in
theorem summarizationRC2_eq {B : Build R} {ctx : NBodyCtx R} (theta : ctx.theta ≠ 0)
    (sized : ctx.criterion = .sw93 ∨ ctx.criterion = .treeCode) (rootSize treeRSize psize : R)
    (c p : Vec3 R) :
    summarizationRC2 B ctx rootSize psize c p = findRCrit B ctx c treeRSize p psize := by
  rw [summarizationRC2, findRCrit, if_neg (by simpa using theta), if_neg (by simpa using theta)]
  rcases sized with sw93 | treeCode
  · rw [sw93]
    rfl
  · have square : mad (p - c).z (p - c).z (mad (p - c).y (p - c).y ((p - c).x * (p - c).x)) =
        sqr (p.x - c.x) + sqr (p.y - c.y) + sqr (p.z - c.z) := by
      simp only [mad, sqr, Vec3.sub_x, Vec3.sub_y, Vec3.sub_z]
      ring
    rw [treeCode]
    dsimp only
    rw [square]
    rfl

omit [IsStrictOrderedRing R] in
theorem findRCrit_some {B : Build R} {ctx : NBodyCtx R}
    (sized : ctx.criterion = .sw93 ∨ ctx.criterion = .treeCode) (c : Vec3 R) (treeRSize : R)
    (p : Vec3 R) (psize : R) : ∃ v, findRCrit B ctx c treeRSize p psize = some v := by
  rw [findRCrit]
  split
  · exact ⟨_, rfl⟩
  · rcases sized with sw93 | treeCode
    · rw [sw93]
      exact ⟨_, rfl⟩
    · rw [treeCode]
      exact ⟨_, rfl⟩

theorem findRCrit_lt {B : Build R} {ctx : NBodyCtx R} (root : ∀ x, 0 ≤ x → 0 ≤ B.sqrt x)
    (theta : 0 < ctx.theta) (sized : ctx.criterion = .sw93 ∨ ctx.criterion = .treeCode)
    {treeRSize r s v w : R} {c p : Vec3 R} (nonneg : 0 ≤ r) (lt : r < s)
    (hv : findRCrit B ctx c treeRSize p r = some v)
    (hw : findRCrit B ctx c treeRSize p s = some w) : v < w := by
  have square : ∀ a, 0 ≤ a → ∀ x y : R, 0 ≤ x → x < y → (x + a) * (x + a) < (y + a) * (y + a) :=
    fun a ha x y hx hy => mul_self_lt_mul_self (add_nonneg hx ha) (by linarith)
  rw [findRCrit, if_neg (by simpa using theta.ne')] at hv hw
  rcases sized with sw93 | treeCode
  · rw [sw93, Option.some.injEq] at hv hw
    have small := calcSW93MaxDist2_eq ⟨c, r⟩ p
    have large := calcSW93MaxDist2_eq ⟨c, s⟩ p
    simp only at small large
    rw [← hv, ← hw, small, large, sqr]
    refine div_lt_div_of_pos_right ?_ (by positivity)
    have half : r / 2 < s / 2 := by linarith
    have start : 0 ≤ r / 2 := by linarith
    exact add_lt_add (add_lt_add (square _ (abs_nonneg _) _ _ start half)
      (square _ (abs_nonneg _) _ _ start half)) (square _ (abs_nonneg _) _ _ start half)
  · rw [treeCode, Option.some.injEq] at hv hw
    have normSq : 0 ≤ sqr (p.x - c.x) + sqr (p.y - c.y) + sqr (p.z - c.z) :=
      add_nonneg (add_nonneg (mul_self_nonneg _) (mul_self_nonneg _)) (mul_self_nonneg _)
    rw [← hv, ← hw]
    exact square _ (root _ normSq) _ _ (by positivity) (div_lt_div_of_pos_right lt theta)

theorem levelRadii_eq (ctx : NBodyCtx R) (rootSize : R) (l : ℕ) :
    levelRadii ctx rootSize l = levelRadii ctx rootSize 0 / (2 ^ l * 2 ^ l) := by
  induction l with
  | zero => rw [pow_zero, mul_one, div_one]
  | succ l ih =>
      have quarter : (0.25 : R) = 1 / 4 := by norm_num
      calc levelRadii ctx rootSize (l + 1) = 0.25 * levelRadii ctx rootSize l := rfl
        _ = levelRadii ctx rootSize 0 / (2 ^ (l + 1) * 2 ^ (l + 1)) := by
          rw [ih, quarter, pow_succ]
          ring

theorem sqr_double_eq_iff {r q : R} (le : q ≤ 1) :
    q * sqr (2.0 * r) = sqr (2.0 * (2 * r)) ↔ r = 0 := by
  have two : (2.0 : R) = 2 := by norm_num
  rw [two, sqr, sqr]
  constructor
  · intro same
    by_contra some_
    have pos : 0 < r * r := mul_self_pos.mpr some_
    nlinarith
  · rintro rfl
    ring

theorem rootCell_radius_nonneg (posn : ℕ → Vec3 R) (n : ℕ) :
    0 ≤ (rootCell (Box.hull posn n)).radius := by
  have size := Box.cube_size_nonneg (Box.hull_contains posn n 0 (.inl rfl))
  rw [← rootCell_cube] at size
  simp only [RootCell.cube] at size
  linarith

/-- The radius that the device uses for a cell is that of the host exactly if there is none
(no tree with the exact criterion, no comparison of the root with BH86), the root has no
size, or the opening angle is not zero and the cell is not the root. -/
theorem critRadius_iff (B : Build R) (ctx : NBodyCtx R) (NBODY NNODE MAXDEPTH : ℕ)
    (nonneg : ∀ x, 0 ≤ x → 0 ≤ B.sqrt x) (theta : ctx.criterion = .exact ∨ 0 ≤ ctx.theta)
    (valid : ctx.criterion ≠ .invalid) (g : Launch) (posn : ℕ → Vec3 R) (late : ℕ → ℕ → Vec3 ℕ)
    (boxes : ℕ → Box R) (schedule : List ℕ) (b : BoxState R)
    (boxed : boundingBox g posn NBODY late boxes schedule = some b) (finished : Finished g b)
    (root : RootCell R) (written : b.root = some root) (garbage : ℕ → R) (acts : List BuildAct)
    (s : BuildState R)
    (run : buildTreeCL (buildArgs ctx NBODY NNODE MAXDEPTH) posn root garbage acts = some s)
    (n L : ℕ) (Q : Cube R) (cell : CellCube (buildArgs ctx NBODY NNODE MAXDEPTH) root s.tree n Q L)
    (p : Vec3 R) :
    (∀ v, critRadiusCL B ctx root s.tree n L p = some v →
        findRCrit B ctx Q.center root.cube.size p Q.size = some v) ↔
      ctx.criterion = .exact ∨ (ctx.criterion = .bh86 ∧ n = NNODE) ∨ root.radius = 0 ∨
        (ctx.theta ≠ 0 ∧ n ≠ NNODE) := by
  obtain ⟨cube, sized, -⟩ := build_sized run
  obtain ⟨allocated, inTree, rfl, level⟩ := cell.sized sized
  have pos := sized.pos n allocated inTree
  have box : rootCell (Box.hull posn (NBODY - 1)) = root :=
    Option.some.inj ((boundingBox_root boxed finished).symm.trans written)
  have radius : 0 ≤ root.radius := box ▸ rootCell_radius_nonneg posn _
  have two : root.cube.size = 2 * root.radius := rfl
  have level : n = NNODE ↔ L = 0 := level
  have value : ∀ {x : Option R} (w : R), (∀ v, some w = some v → x = some v) ↔ x = some w := by
    simp
  -- the criteria with a size
  have withSize : ctx.criterion = .sw93 ∨ ctx.criterion = .treeCode →
      ((∀ v, summarizationRC2 B ctx root.radius (s.tree.critRadii n) (s.tree.pos n) p = some v →
        findRCrit B ctx (cube n).center root.cube.size p (cube n).size = some v) ↔
      root.radius = 0 ∨ (ctx.theta ≠ 0 ∧ n ≠ NNODE)) := by
    intro criterion
    have theta : 0 ≤ ctx.theta := theta.resolve_left fun none => by
      rcases criterion with c | c <;> rw [none] at c <;> cases c
    have saved : s.tree.critRadii n = if n = NNODE then root.radius else (cube n).size :=
      sized.saved (by simpa [buildArgs] using criterion) n allocated inTree
    by_cases exact_ : ctx.theta = 0
    · rw [summarizationRC2, findRCrit, if_pos (by simp [exact_]), if_pos (by simp [exact_]), value,
        Option.some.injEq, two, eq_comm, ← one_mul (sqr (2.0 * root.radius)),
        sqr_double_eq_iff le_rfl]
      simp [exact_]
    · rw [summarizationRC2_eq exact_ criterion _ root.cube.size, pos, saved]
      by_cases top : n = NNODE
      · have size : (cube n).size = 2 * root.radius := by
          rw [top, ← two, ← sized.top]
          rfl
        rw [if_pos top, size]
        constructor
        · intro same
          by_contra some_
          have grows : 0 < root.radius := lt_of_le_of_ne radius fun e => some_ (.inl e.symm)
          obtain ⟨v, hv⟩ := findRCrit_some criterion (cube n).center root.cube.size p root.radius
          have lt := findRCrit_lt nonneg (lt_of_le_of_ne theta (Ne.symm exact_)) criterion radius
            (by linarith : root.radius < 2 * root.radius) hv (same v hv)
          exact lt_irrefl _ lt
        · rintro (point | ⟨-, other⟩) v hv
          · rw [point] at hv ⊢
            rw [mul_zero]
            exact hv
          · exact absurd top other
      · rw [if_neg top]
        exact iff_of_true (fun v hv => hv) (.inr ⟨exact_, top⟩)
  cases criterion : ctx.criterion with
  | sw93 =>
      simp only [critRadiusCL, criterion]
      rw [withSize (.inl criterion)]
      simp
  | treeCode =>
      simp only [critRadiusCL, criterion]
      rw [withSize (.inr criterion)]
      simp
  | exact => simp [critRadiusCL, criterion]
  | invalid => exact absurd criterion valid
  | bh86 =>
      cases L with
      | zero =>
          have top := level.mpr rfl
          simp [critRadiusCL, criterion, top]
      | succ l =>
          have below : n ≠ NNODE := fun top => Nat.succ_ne_zero l (level.mp top)
          have size := cell.size
          have pow : (0 : R) < 2 ^ l := by positivity
          simp only [critRadiusCL, criterion, value, reduceCtorEq, below, and_false, false_or,
            ne_eq, not_false_eq_true, and_true]
          rw [levelRadii_eq, levelRadii, findRCrit]
          by_cases exact_ : ctx.theta = 0
          · rw [if_pos (by simp [exact_]), if_pos (by simp [exact_]), Option.some.injEq, two,
              eq_comm, div_eq_inv_mul]
            have le : (2 ^ l * 2 ^ l : R)⁻¹ ≤ 1 := by
              have one : (1 : R) ≤ 2 ^ l := one_le_pow₀ one_le_two
              exact inv_le_one_of_one_le₀ (one_le_mul_of_one_le_of_one_le one one)
            rw [show 2.0 * root.radius * (2.0 * root.radius) = sqr (2.0 * root.radius) from rfl,
              sqr_double_eq_iff le]
            simp [exact_]
          · rw [if_neg (by simpa using exact_), if_neg (by simpa using exact_), criterion]
            refine iff_of_true ?_ (.inr exact_)
            rw [Option.some.injEq, sqr, size, pow_succ]
            field_simp

/-! ## Three bodies -/

def threePosn : ℕ → Vec3 ℚ
  | 0 => 0
  | 1 => ⟨2, 2, 0⟩
  | _ => ⟨2, 1, 0⟩

def threeRoot : RootCell ℚ := ⟨1, ⟨1, 1, 0⟩⟩

/-- Two items place the three bodies; the last is met by another one. -/
def threeActs : List BuildAct :=
  [.begin 0 0, .begin 1 1, .insert 1, .insert 0, .begin 1 2, .insert 1]

def halfCtx : NBodyCtx ℚ := { rowCtx with theta := 1 / 2 }

theorem ratSqrt_nonneg (x : ℚ) : 0 ≤ ratSqrt x :=
  div_nonneg (Nat.cast_nonneg _) (Nat.cast_nonneg _)

theorem threeBoxed : ∃ b, boundingBox ⟨1, 1, by decide⟩ threePosn 3 (fun _ _ => ⟨0, 0, 0⟩)
    (fun _ => .point 0) [0, 0] = some b ∧ Finished ⟨1, 1, by decide⟩ b ∧
      b.root = some threeRoot := by
  have runs : (boundingBox ⟨1, 1, by decide⟩ threePosn 3 (fun _ _ => ⟨0, 0, 0⟩)
      (fun _ => .point 0) [0, 0]).map (fun b => decide (Finished ⟨1, 1, by decide⟩ b ∧
        b.root = some threeRoot)) = some true := by
    decide +kernel
  obtain ⟨b, run, holds⟩ := Option.map_eq_some_iff.mp runs
  exact ⟨b, run, of_decide_eq_true holds⟩

theorem critRadius_iff_three : ∃ s Q,
    buildTreeCL (buildArgs halfCtx 3 9 25) threePosn threeRoot (fun _ => 0) threeActs = some s ∧
    CellCube (buildArgs halfCtx 3 9 25) threeRoot s.tree 8 Q 1 ∧
    ((∀ v, critRadiusCL rowBuild halfCtx threeRoot s.tree 8 1 ⟨2, 3 / 2, 0⟩ = some v →
        findRCrit rowBuild halfCtx Q.center threeRoot.cube.size ⟨2, 3 / 2, 0⟩ Q.size = some v) ↔
      halfCtx.criterion = .exact ∨ (halfCtx.criterion = .bh86 ∧ 8 = 9) ∨
        threeRoot.radius = 0 ∨ (halfCtx.theta ≠ 0 ∧ 8 ≠ 9)) := by
  obtain ⟨b, boxed, finished, written⟩ := threeBoxed
  have runs : (buildTreeCL (buildArgs halfCtx 3 9 25) threePosn threeRoot (fun _ => 0)
      threeActs).map (fun s => s.tree.child 9 7) = some (.cell 8) := by
    decide +kernel
  obtain ⟨s, run, slot⟩ := Option.map_eq_some_iff.mp runs
  have cell : CellCube (buildArgs halfCtx 3 9 25) threeRoot s.tree 8
      (slotCube threeRoot.cube 7) 1 := .child _ 8 _ 0 7 .root slot
  exact ⟨s, _, run, cell, critRadius_iff rowBuild halfCtx 3 9 25 (fun x _ => ratSqrt_nonneg x)
    (.inr (by decide +kernel)) (by decide) _ _ _ _ _ b boxed finished _ written _ _ s run 8 1 _
    cell _⟩

/-- The root of the three bodies gets the radius of a cell of half its side. -/
theorem critRadius_root : ∃ b s v,
    boundingBox ⟨1, 1, by decide⟩ threePosn 3 (fun _ _ => ⟨0, 0, 0⟩) (fun _ => .point 0) [0, 0] =
      some b ∧ Finished ⟨1, 1, by decide⟩ b ∧ b.root = some threeRoot ∧
    buildTreeCL (buildArgs halfCtx 3 9 25) threePosn threeRoot (fun _ => 0) threeActs = some s ∧
    CellCube (buildArgs halfCtx 3 9 25) threeRoot s.tree 9 threeRoot.cube 0 ∧
    critRadiusCL rowBuild halfCtx threeRoot s.tree 9 0 ⟨4 / 3, 1, 0⟩ = some v ∧
    findRCrit rowBuild halfCtx threeRoot.cube.center threeRoot.cube.size ⟨4 / 3, 1, 0⟩
      threeRoot.cube.size ≠ some v := by
  obtain ⟨b, boxed, finished, written⟩ := threeBoxed
  have runs : (buildTreeCL (buildArgs halfCtx 3 9 25) threePosn threeRoot (fun _ => 0)
      threeActs).map (fun s => critRadiusCL rowBuild halfCtx threeRoot s.tree 9 0 ⟨4 / 3, 1, 0⟩) =
        some (some (43 / 9)) := by
    decide +kernel
  obtain ⟨s, run, radius⟩ := Option.map_eq_some_iff.mp runs
  exact ⟨b, s, _, boxed, finished, written, run, .root, radius, by decide +kernel⟩

end MilkyWay.NBody
