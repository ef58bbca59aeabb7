import MilkyWay.Foundation.Division
import MilkyWay.NBody.TreeBuild

/-! The octree of the bodies, by their positions and masses alone and in any arithmetic.
The loading of the bodies builds it if there is one, and reports an error only then if one
was there before. The pass over the cells gives each of them the mass and the centre of
mass that follow from the octree, and reports an error where a centre is outside its cube. -/

namespace MilkyWay.NBody

open Foundation

variable {R : Type} [Zero R] [Add R] [Neg R] [Sub R] [Mul R] [Div R] [OfScientific R] [BEq R]
  [LT R] [DecidableLT R] [LE R] [DecidableLE R]

def massive (st : TreeState R) : List ℕ :=
  (List.range st.nbody).filter fun b => (st.bodytab b).mass != 0

/-- The octree of the bodies `l` at `x` in the cube around the origin. Its cells are the
midpoints, and the smallest cube that is divided is larger than epsilon. -/
def BodyOctree (B : Build R) (x : ℕ → Vec3 R) (side : R) (T : Octree (Vec3 R) ℕ) (l : List ℕ) :
    Prop :=
  T.Holds (fun mid b => nbSubIndex (x b) mid) (· * 0.5)
    (fun mid b size => nbInitMidpoint (x b) mid size) (· ≤ B.epsilon) 0 side l

def addNode (s w : R × Vec3 R) : R × Vec3 R := (s.1 + w.1, s.2 + w.1 • w.2)

def weigh (x : ℕ → Vec3 R) (m : ℕ → R) : Octree (Vec3 R) ℕ → R × Vec3 R
  | .empty => (0, 0)
  | .leaf b => (m b, x b)
  | .cell mid sub =>
      let sums := (List.finRange 8).foldl (fun s i =>
        if (sub i).isEmpty then s else addNode s (weigh x m (sub i))) (0, 0)
      (sums.1, if 0 < sums.1 then mw_divvs sums.2 sums.1 else mid)

def outside (mid p : Vec3 R) (size : R) : Bool :=
  nbCheckTreeDim mid.x p.x (0.5 * size) || nbCheckTreeDim mid.y p.y (0.5 * size) ||
    nbCheckTreeDim mid.z p.z (0.5 * size)

def CentresInside (x : ℕ → Vec3 R) (m : ℕ → R) : R → Octree (Vec3 R) ℕ → Prop
  | _, .empty => True
  | _, .leaf _ => True
  | size, .cell mid sub => outside mid (weigh x m (.cell mid sub)).2 size = false ∧
      ∀ i, CentresInside x m (0.5 * size) (sub i)

instance centresInsideDecidable (x : ℕ → Vec3 R) (m : ℕ → R) :
    ∀ size T, Decidable (CentresInside x m size T)
  | _, .empty => .isTrue trivial
  | _, .leaf _ => .isTrue trivial
  | size, .cell _ sub =>
      have : ∀ i, Decidable (CentresInside x m (0.5 * size) (sub i)) :=
        fun i => centresInsideDecidable x m (0.5 * size) (sub i)
      inferInstanceAs (Decidable (_ ∧ _))

/-! ## The octree in memory -/

def positions (st : TreeState R) (b : ℕ) : Vec3 R := (st.bodytab b).pos

def masses (st : TreeState R) (b : ℕ) : R := (st.bodytab b).mass

def midpoints (st : TreeState R) (T : Octree ℕ ℕ) : Octree (Vec3 R) ℕ :=
  T.map fun c => (st.heap c).pos

omit [Zero R] [Sub R] [Div R] [BEq R] in
theorem insertion_midpoints {B : Build R} {st : TreeState R} {b n : ℕ} {size : R}
    {T U : Octree ℕ ℕ} {new : List ℕ} {stored : Bool}
    (h : Insertion (slotOf st) (· * 0.5) (SplitAt st) (· ≤ B.epsilon) b size T U new n stored) :
    Insertion (fun mid a => nbSubIndex (positions st a) mid) (· * 0.5)
      (fun p a s n => n = nbInitMidpoint (positions st a) p s) (· ≤ B.epsilon) b size
      (midpoints st T) (midpoints st U) (new.map fun c => (st.heap c).pos) n stored :=
  h.map (fun _ _ => rfl) fun _ _ _ made => made

structure GrownOctree (B : Build R) (st₀ st : TreeState R) (c : ℕ) (done : List ℕ) (T : Octree ℕ ℕ) :
    Prop where
  octree : (∃ G, BodyOctree B (positions st₀) st₀.tree.rsize G (massive st₀)) →
    BodyOctree B (positions st₀) st₀.tree.rsize (midpoints st T)
      (done.filter fun b => (st₀.bodytab b).mass != 0) ∧
    st.tree.structureError = st₀.tree.structureError
  alone : st₀.tree.rsize ≤ B.epsilon → T.cells = [c]

omit [Sub R] [Div R] in
theorem loadBodies_grown {B : Build R} {fuel c : ℕ} {st₀ st' : TreeState R}
    {leaked free : List ℕ}
    (start : Loaded st₀ st₀ c leaked [] (.cell c fun _ => .empty) free)
    (origin : (st₀.heap c).pos = 0) (run : loadBodies B fuel st₀ = some st') :
    ∃ T free', Loaded st₀ st' c leaked (List.range st₀.nbody) T free' ∧
      GrownOctree B st₀ st' c (List.range st₀.nbody) T := by
  refine foldlM_invariant
    (fun done st => ∃ T free', Loaded st₀ st c leaked done T free' ∧ GrownOctree B st₀ st c done T)
    ⟨_, free, start, fun _ => ⟨⟨origin, fun _ => rfl⟩, rfl⟩, fun _ => Octree.cells_bare c⟩ ?_ run
  rintro done b rest st st₁ split ⟨T, free₁, loaded, grown⟩ turn
  rw [loaded.bodies.bodytab] at turn
  by_cases massive : (st₀.bodytab b).mass != 0
  · rw [if_pos massive] at turn
    obtain ⟨U, free₂, new, n, stored, loaded', ins, pos, error⟩ := loaded.step massive turn
    have same : midpoints st₁ T = midpoints st T := Octree.map_congr pos
    have still : positions st₁ = positions st₀ := by
      funext a
      rw [positions, positions, loaded'.bodies.bodytab]
    have ins' := insertion_midpoints ins
    rw [same, still, loaded.rsize] at ins'
    have more : (done ++ [b]).filter (fun a => (st₀.bodytab a).mass != 0) =
        (done.filter fun a => (st₀.bodytab a).mass != 0) ++ [b] := by
      rw [List.filter_append, List.filter_singleton, massive]
      rfl
    refine ⟨U, free₂, loaded', fun guided => ?_, fun full => ?_⟩
    · obtain ⟨before, calm⟩ := grown.octree guided
      obtain ⟨G, guide⟩ := guided
      have next : (done.filter fun a => (st₀.bodytab a).mass != 0) ++ [b] <+:
          NBody.massive st₀ := by
        rw [← more, NBody.massive, ← split]
        refine List.IsPrefix.filter _ ⟨rest, ?_⟩
        rw [List.append_assoc]
        rfl
      have kept := ins'.stored_of_holds before guide next
      rw [more, error, calm, kept]
      exact ⟨ins'.holds kept before, Bool.or_false _⟩
    · have none := ins.new_eq_nil (loaded.rsize ▸ full)
      have perm := ins.cells
      rw [none, List.nil_append, grown.alone full] at perm
      exact List.perm_singleton.mp perm
  · rw [if_neg massive, Option.some.injEq] at turn
    subst turn
    refine ⟨T, free₁, loaded.skip massive, ?_, grown.alone⟩
    rw [List.filter_append, List.filter_singleton, (Bool.not_eq_true _).mp massive, cond_false,
      List.append_nil]
    exact grown.octree

/-! ## The pass over the cells -/

section
variable {B : Build R} {ctx : NBodyCtx R} {fuel c : ℕ} {size : R} {st : TreeState R}
  {sub : Fin 8 → Octree ℕ ℕ} {slots : Fin 8 → NodePtr} {done : List (Fin 8)} {i : Fin 8}
  {s s' : TreeState R × Vec3 R}

/-- The sums over the slots in order. -/
def sums (x : ℕ → Vec3 R) (m : ℕ → R) (sub : Fin 8 → Octree (Vec3 R) ℕ) (l : List (Fin 8)) :
    R × Vec3 R :=
  l.foldl (fun s i => if (sub i).isEmpty then s else addNode s (weigh x m (sub i))) (0, 0)

structure Counted (st : TreeState R) (c : ℕ) (size : R) (sub : Fin 8 → Octree ℕ ℕ)
    (done : List (Fin 8)) (s : TreeState R × Vec3 R) : Prop where
  frame : MassFrame st s.1 (c :: done.flatMap fun i => (sub i).cells)
  pos : (s.1.heap c).pos = (st.heap c).pos
  sums : ((s.1.heap c).mass, s.2) =
    sums (positions st) (masses st) (fun i => midpoints st (sub i)) done
  error : s.1.tree.structureError = false ↔ st.tree.structureError = false ∧
    ∀ i ∈ done, CentresInside (positions st) (masses st) (0.5 * size) (midpoints st (sub i))

omit [Neg R] [BEq R] [LE R] [DecidableLE R] in
theorem Counted.count {st₃ : TreeState R} {m : R} {x : Vec3 R}
    (nodup : (Octree.cell c sub).cells.Nodup) (h : Counted st c size sub done s)
    (frame : MassFrame s.1 st₃ (sub i).cells) (taken : (sub i).isEmpty = false)
    (node : (m, x) = weigh (positions st) (masses st) (midpoints st (sub i)))
    (error : st₃.tree.structureError = false ↔ s.1.tree.structureError = false ∧
      CentresInside (positions st) (masses st) (0.5 * size) (midpoints st (sub i))) :
    Counted st c size sub (done ++ [i])
      (st₃.setCell c fun q => { q with mass := q.mass + m }, s.2 + m • x) := by
  obtain ⟨cOut, -, -⟩ := (Octree.nodup_cells_cell c sub).mp nodup
  have same : st₃.heap c = s.1.heap c := frame.outside c (cOut i)
  have counted := massFrame_setCell st₃ c NBodyCell.pos (fun q => q.mass + m) NBodyCell.rcrit2
  refine ⟨((h.frame.trans frame).trans counted).mono fun a ha => ?_, ?_, ?_, ?_⟩
  · simp only [List.cons_append, List.mem_cons, List.mem_append, List.flatMap_append,
      List.flatMap_cons, List.flatMap_nil, List.append_nil, List.not_mem_nil, or_false] at ha ⊢
    tauto
  · simpa [same] using h.pos
  · have filled : (midpoints st (sub i)).isEmpty = false := by
      cases child : sub i <;> rw [child] at taken <;> first | rfl | cases taken
    rw [NBody.sums, List.foldl_append, List.foldl_cons, List.foldl_nil, filled,
      if_neg Bool.false_ne_true, ← node]
    have before := h.sums
    rw [NBody.sums] at before
    rw [← before]
    simp [addNode, same]
  · rw [TreeState.setCell_tree, error, h.error, and_assoc]
    simp [List.mem_append, or_imp, forall_and]

omit [Neg R] in
theorem Counted.step (nodup : (Octree.cell c sub).cells.Nodup)
    (hs : (st.heap c).stuff = .subp slots) (hsub : ∀ i, Represents st.heap (sub i) (slots i))
    (fresh : i ∉ done)
    (child : ∀ d inner st₂ st₃, sub i = .cell d inner → Represents st₂.heap (sub i) (.cell d) →
      (∀ a ∈ (sub i).cells, st₂.heap a = st.heap a) → st₂.bodytab = st.bodytab →
      hackCofM B ctx fuel st₂ d (0.5 * size) = some st₃ →
      ((st₃.heap d).mass, (st₃.heap d).pos) =
          weigh (positions st) (masses st) (midpoints st (sub i)) ∧
        (st₃.tree.structureError = false ↔ st₂.tree.structureError = false ∧
          CentresInside (positions st) (masses st) (0.5 * size) (midpoints st (sub i))))
    (h : Counted st c size sub done s)
    (turn : sumTurn (fun st c => hackCofM B ctx fuel st c (0.5 * size)) c s i = some s') :
    Counted st c size sub (done ++ [i]) s' := by
  obtain ⟨cOut, nodups, disjoint⟩ := (Octree.nodup_cells_cell c sub).mp nodup
  have before : ∀ a ∈ (sub i).cells, s.1.heap a = st.heap a := by
    intro a ha
    refine h.frame.outside a fun m => ?_
    rcases List.mem_cons.mp m with rfl | m
    · exact cOut i ha
    · obtain ⟨j, hj, haj⟩ := List.mem_flatMap.mp m
      exact disjoint i j (fun e => fresh (e ▸ hj)) ha haj
  have rep := h.frame.represents (hsub i)
  have bodytab := h.frame.bodies.bodytab
  obtain ⟨empty, rfl⟩ |
      ⟨q, st₃, m, x, hm, hx, rfl, ⟨b, leaf, rfl, rfl, -⟩ | ⟨d, inner, cell, rfl, run⟩⟩ :=
    sumTurn_cases ((h.frame.kept c).2.2.trans hs) rep turn
  · refine ⟨h.frame.mono fun a ha => ?_, h.pos, ?_, ?_⟩
    · simp only [List.mem_cons, List.flatMap_append, List.mem_append] at ha ⊢
      exact ha.imp id .inl
    · rw [h.sums, NBody.sums, NBody.sums, List.foldl_append, List.foldl_cons, List.foldl_nil,
        empty]
      rfl
    · rw [h.error]
      simp [List.mem_append, or_imp, forall_and, empty, midpoints, Octree.map, CentresInside]
  · rw [TreeState.mass, Option.some.injEq, bodytab] at hm
    rw [TreeState.pos, Option.some.injEq, bodytab] at hx
    refine h.count nodup (MassFrame.refl _ _) (by rw [leaf]; rfl) ?_ ?_
    · rw [leaf, ← hm, ← hx]
      rfl
    · rw [leaf]
      exact (and_iff_left trivial).symm
  · have rep_d : Represents s.1.heap (sub i) (.cell d) := by
      rw [cell] at rep ⊢
      exact ⟨rfl, rep.2⟩
    have frame := hackCofM_frame rep_d run
    obtain ⟨node, error⟩ := child d inner s.1 st₃ cell rep_d before bodytab run
    rw [TreeState.mass, Option.some.injEq] at hm
    rw [TreeState.pos, Option.some.injEq] at hx
    rw [hm, hx] at node
    exact h.count nodup frame (by rw [cell]; rfl) node error

omit [Neg R] in
/-- The pass weighs the octree and reports an error where a cell is not centred. -/
theorem hackCofM_centresInside {st' : TreeState R} {T : Octree ℕ ℕ}
    (rep : Represents st.heap T (.cell c)) (nodup : T.cells.Nodup)
    (run : hackCofM B ctx fuel st c size = some st') :
    ((st'.heap c).mass, (st'.heap c).pos) =
        weigh (positions st) (masses st) (midpoints st T) ∧
      (st'.tree.structureError = false ↔ st.tree.structureError = false ∧
        CentresInside (positions st) (masses st) size (midpoints st T)) := by
  induction T generalizing fuel c size st st' with
  | empty => simp [Represents] at rep
  | leaf b => simp [Represents] at rep
  | cell d sub ih =>
      cases fuel with
      | zero => simp [hackCofM] at run
      | succ fuel =>
          obtain ⟨hcd, slots, hs, hsub⟩ := rep
          rw [Ref.cell.injEq] at hcd
          subst hcd
          obtain ⟨⟨st₁, x⟩, loop, finish⟩ := hackCofM_succ run
          set st₀ := st.setCell c fun q => { q with mass := 0 } with hst₀
          have cOut := ((Octree.nodup_cells_cell c sub).mp nodup).1
          have nodups := ((Octree.nodup_cells_cell c sub).mp nodup).2.1
          have away : ∀ i, ∀ a ∈ (sub i).cells, st₀.heap a = st.heap a := by
            intro i a ha
            have hac : a ≠ c := fun e => cOut i (e ▸ ha)
            simp [hst₀, Function.update_of_ne hac]
          have counted : Counted st₀ c size sub (List.finRange 8) (st₁, x) := by
            refine foldlM_invariant (Counted st₀ c size sub) ?_ ?_ loop
            · exact ⟨MassFrame.refl _ _, rfl, by simp [hst₀, NBody.sums], by simp⟩
            · intro done i rest s s' split inv turn
              have fresh : i ∉ done := fun m => by
                have nodup := List.nodup_finRange 8
                rw [← split] at nodup
                exact (List.nodup_append.mp nodup).2.2 i m i (by simp) rfl
              refine inv.step nodup (by simpa [hst₀] using hs)
                (fun i => (hsub i).congr fun a ha => by rw [away i a ha]) fresh ?_ turn
              intro d inner st₂ st₃ hT rep₂ heap bodytab deeper
              have node := ih i rep₂ (nodups i) deeper
              have same : midpoints st₂ (sub i) = midpoints st₀ (sub i) :=
                Octree.map_congr fun a ha => by rw [heap a ha]
              have at_ : positions st₂ = positions st₀ ∧ masses st₂ = masses st₀ := by
                constructor <;> funext b <;> simp only [positions, masses, bodytab]
              rw [same, at_.1, at_.2] at node
              exact node
          have mid : (st₁.heap c).pos = (st.heap c).pos := by
            rw [counted.pos]
            simp [hst₀]
          have below : ∀ i, midpoints st₀ (sub i) = midpoints st (sub i) := fun i =>
            Octree.map_congr fun a ha => by rw [away i a ha]
          have total := counted.sums
          have error := counted.error
          simp only [below] at total error
          obtain ⟨mass, moment⟩ := Prod.mk.inj total
          obtain ⟨rcrit2, -, rfl⟩ := finishCofM_eq finish
          have node : (((st₁.heap c).mass, if 0 < (st₁.heap c).mass then
              mw_divvs x (st₁.heap c).mass else (st₁.heap c).pos) : R × Vec3 R) =
              weigh (positions st) (masses st) (midpoints st (.cell c sub)) := by
            rw [mass, moment, mid]
            rfl
          have centre : (if 0 < (st₁.heap c).mass then mw_divvs x (st₁.heap c).mass
              else (st₁.heap c).pos) = (weigh (positions st) (masses st)
                (midpoints st (.cell c sub))).2 := congrArg Prod.snd node
          refine ⟨?_, ?_⟩
          · rw [← node]
            simp
          · have raised : ∀ p, (nbCheckTreeStructure st₁.tree (st₁.heap c).pos p
                size).structureError = (st₁.tree.structureError ||
                  outside (st₁.heap c).pos p size) := fun _ => rfl
            rw [TreeState.setCell_tree, TreeState.setTree_tree, raised, Bool.or_eq_false_iff]
            dsimp only
            rw [centre, mid, error, and_assoc]
            refine and_congr_right fun _ => and_comm.trans (and_congr_right fun _ => ?_)
            exact ⟨fun h i => h i (List.mem_finRange i), fun h i _ => h i⟩

end

end MilkyWay.NBody
