import MilkyWay.NBody.SummationCL

/-! The steps of `summarization`, one lemma for each kind, and the cells that are ready when a
launch has ended. -/

namespace MilkyWay.NBody

open Foundation Foundation.Octree

variable {R : Type} [Field R] [LinearOrder R]

namespace SumPass

variable {P : SumPass R} {B : Build R} {ctx : NBodyCtx R} {m m' : TreeMemory R}
  {it it' : SumItem R} {w : ℕ}

/-! ## The cells of the items -/

theorem Passing.mine (h : P.Passing B ctx w m it) (ready : P.Ready) (hw : w < P.l.items)
    (le : it.k ≤ P.l.NNODE) : P.range.mine w it.k ∧ it.k ∈ P.T.cells := by
  have own := Course.Passing.mine h ready.warp ready.items hw le
  exact ⟨own, (ready.device.cells _).mp ⟨own.2.1, own.2.2.1⟩⟩

omit [Field R] [LinearOrder R] in
theorem mine_mem {n : ℕ} (ready : OnDevice P.l P.bottom (fun c => (P.start c).child) P.T)
    (h : P.range.mine w n) : n ∈ P.T.cells := (ready.cells n).mp ⟨h.2.1, h.2.2.1⟩

theorem Passing.holds (h : P.Passing B ctx w m it) (le : it.k ≤ P.l.NNODE) :
    P.Holds B ctx (Sees m) (m.nodes it.k) it := h.here le

/-! ## The steps of the others -/

abbrev Guarantees (P : SumPass R) (w : ℕ) (m m' : TreeMemory R) : Prop :=
  Crew.Guarantees TreeMemory.nodes P.range.mine (fun _ r => 0 ≤ r.mass) w m m'

theorem Holds.mono {sees sees' : SlotCL → R → Prop} {r : NodeCL R}
    (h : P.Holds B ctx sees r it) (more : ∀ ch m, sees ch m → sees' ch m) :
    P.Holds B ctx sees' r it := by
  obtain ⟨pc, k, missing, cm, p, cnt⟩ := it
  cases pc with
  | count ch m back =>
      obtain ⟨working, shape, seen, rest⟩ := h
      exact ⟨working, shape, more ch m seen, rest⟩
  | add ch m back =>
      obtain ⟨working, shape, seen, rest⟩ := h
      exact ⟨working, shape, more ch m seen, rest⟩
  | _ => exact h

omit [Field R] in
theorem Sees.congr {ch : SlotCL} {mass : R} [Field R] (h : Sees m ch mass)
    (kept : 0 ≤ (m.nodes ch.index).mass → m'.nodes ch.index = m.nodes ch.index) :
    Sees m' ch mass := by
  rw [Sees, kept h.1]
  exact h

theorem Passing.stable (ready : P.Ready) (hw : w < P.l.items) (h : P.Passing B ctx w m it)
    (leaves : Crew.Leaves TreeMemory.nodes P.range.mine (fun _ r => 0 ≤ r.mass) w m m') :
    P.Passing B ctx w m' it :=
  Course.Passing.stable h (fun le => (h.mine ready hw le).1) leaves fun _ here =>
    Holds.mono here fun _ _ seen => seen.congr fun done => leaves _ (.inr done)

/-! ## The own step -/

theorem Passing.stay (h : P.Passing B ctx w m it) (same : it'.k = it.k) (le : it.k ≤ P.l.NNODE)
    (others : ∀ n, n ≠ it.k → m'.nodes n = m.nodes n)
    (here : P.Holds B ctx (Sees m') (m'.nodes it.k) it') : P.Passing B ctx w m' it' :=
  Course.Passing.stay h same le others here

theorem Passing.advance (h : P.Passing B ctx w m it) (ready : P.Ready) (hw : w < P.l.items)
    (same : it'.k = it.k) (le : it.k ≤ P.l.NNODE)
    (others : ∀ n, n ≠ it.k → m'.nodes n = m.nodes n)
    (behind : P.Behind it.k (m'.nodes it.k)) : P.Passing B ctx w m' (it'.next P.l) := by
  have further : (it'.next P.l).k = it.k + P.l.items := by rw [SumItem.next, same]
  exact Course.Passing.advance h hw (h.mine ready hw le).1.2.1 further (.inl rfl) others behind
    fun r ahead => .inl ⟨rfl, ahead⟩

theorem Kept.store (all : P.Kept B ctx m) (ready : P.Ready) {k : ℕ} (mine : P.range.mine w k)
    (unready : (m.nodes k).mass < 0) (others : ∀ n, n ≠ k → m'.nodes n = m.nodes n)
    (status : m'.radius = m.radius ∧ m'.bottom = m.bottom)
    (total : 0 ≤ (m'.nodes k).mass → Totalled B ctx P.radius P.start P.T k (m'.nodes k)) :
    P.Kept B ctx m' ∧ P.Guarantees w m m' := by
  refine ⟨⟨fun c hc done => ?_, fun b hb => ?_,
    ⟨status.1.trans all.status.1, status.2.trans all.status.2⟩, fun c hc before => ?_⟩,
    fun n kept => others n fun here => ?_⟩
  · by_cases here : c = k
    · rw [here] at done ⊢
      exact total done
    · rw [others c here] at done ⊢
      exact all.cells c hc done
  · rw [others b fun here => ?_]
    · exact all.bodies b hb
    · have small := ready.device.bodies b hb
      have above := ready.device.above
      have lower : P.bottom ≤ k := mine.2.1
      omega
  · have done := all.earlier c hc before
    rwa [others c fun here => absurd done (by rw [here]; exact not_le.mpr unready)]
  · rw [here] at kept
    exact kept.elim (fun other => other mine) fun done => absurd done (not_le.mpr unready)

/-- What a step keeps. -/
def Keeps (P : SumPass R) (B : Build R) (ctx : NBodyCtx R) (w : ℕ) (m m' : TreeMemory R)
    (it' : SumItem R) : Prop :=
  P.Passing B ctx w m' it' ∧ P.Kept B ctx m' ∧ P.Guarantees w m m'

theorem Passing.quiet (h : P.Passing B ctx w m it') (all : P.Kept B ctx m) :
    P.Keeps B ctx w m m it' := ⟨h, all, fun _ _ => rfl⟩

theorem Passing.write (h : P.Passing B ctx w m it) (all : P.Kept B ctx m) (ready : P.Ready)
    (hw : w < P.l.items) (le : it.k ≤ P.l.NNODE) {r : NodeCL R} (before : (m.nodes it.k).mass < 0)
    (after : r.mass < 0) (same : it'.k = it.k)
    (here : P.Holds B ctx (Sees (m.setNode it.k r)) r it') :
    P.Keeps B ctx w m (m.setNode it.k r) it' := by
  have others : ∀ n, n ≠ it.k → (m.setNode it.k r).nodes n = m.nodes n :=
    fun n ne => Function.update_of_ne ne _ _
  have own : (m.setNode it.k r).nodes it.k = r := Function.update_self _ _ _
  refine ⟨h.stay same le others (by rw [own]; exact here),
    all.store ready (h.mine ready hw le).1 before others ⟨rfl, rfl⟩ fun done => ?_⟩
  rw [own] at done
  exact absurd done (not_le.mpr after)

/-! ## A child that is ready -/

theorem Kept.part_eq (all : P.Kept B ctx m) (ready : P.Ready) {k : ℕ} (mem : k ∈ P.T.cells)
    {ch : SlotCL} {mass : R} (child : ch ∈ children (P.start k).child) (seen : Sees m ch mass) :
    part P.start P.T ch = (mass, mass • (m.nodes ch.index).pos,
      if ch.isCell = true then (m.nodes ch.index).count - 1 else 0) := by
  obtain ⟨done, rfl⟩ := seen
  rcases ready.device.child_cases mem child with ⟨b, rfl, leaf⟩ | ⟨d, rfl, cell⟩
  · have same : m.nodes (SlotCL.body b).index = P.start b := all.bodies b leaf
    rw [part, same, childBodies, weight, List.map_singleton, List.sum_singleton]
    simp [SlotCL.isCell]
  · have total : Totalled B ctx P.radius P.start P.T d (m.nodes (SlotCL.cell d).index) :=
      all.cells d cell done
    rw [part, childBodies, weight_eq, total.moment, total.mass, total.count]
    simp [SlotCL.isCell]

theorem Kept.unready_child (all : P.Kept B ctx m) (ready : P.Ready) {k : ℕ}
    (mem : k ∈ P.T.cells) {ch : SlotCL} (child : ch ∈ children (P.start k).child)
    (unready : ¬ 0 ≤ (m.nodes ch.index).mass) :
    ∃ d, ch = .cell d ∧ ch ∈ children (P.start k).child ∧ ¬ P.before d := by
  rcases ready.device.child_cases mem child with ⟨b, rfl, leaf⟩ | ⟨d, rfl, cell⟩
  · refine absurd ?_ unready
    rw [show (SlotCL.body b).index = b from rfl, all.bodies b leaf]
    exact ready.masses b leaf
  · exact ⟨d, rfl, child, fun before => unready (all.earlier d cell before)⟩

/-! ## Looking at the children -/

theorem Passing.settle (h : P.Passing B ctx w m it) (all : P.Kept B ctx m) (ready : P.Ready)
    (hw : w < P.l.items) (le : it.k ≤ P.l.NNODE) (same : it'.k = it.k)
    (working : P.Working (m.nodes it.k) it.k it'.missing)
    (shape : P.Shape it.k (m.nodes it.k).child none)
    (lacks : P.Lacks it' 0 (weight P.start (P.T.under it.k))) :
    P.Keeps B ctx w m m (it'.settle P.l) := by
  refine Passing.quiet ?_ all
  rw [SumItem.settle]
  split
  · next none =>
      rw [← same] at working shape lacks
      refine h.stay same le (fun _ _ => rfl) ⟨?_, none, ?_, ?_⟩
      · rw [← same]
        exact working
      · rw [← same]
        exact shape
      · rwa [Lacks, none, List.map_nil, List.sum_nil, add_zero, add_zero] at lacks
  · next some =>
      split
      · rw [← same] at working shape lacks
        refine h.stay same le (fun _ _ => rfl) ⟨?_, ?_, lacks⟩
        · rw [← same]
          exact working
        · rw [← same]
          exact shape
      · next alone =>
          refine h.advance ready hw same le (fun _ _ => rfl) (.inr ⟨?_, ?_, ?_⟩)
          · rw [Bool.or_eq_true, not_or] at alone
            exact Bool.eq_false_of_not_eq_true alone.1
          · obtain ⟨order, j, inFront⟩ := shape
            exact ⟨working.mass, order, inFront.clean, working.pos, working.critRadius⟩
          · obtain ⟨ch, rest, cons⟩ := List.exists_cons_of_ne_nil some
            obtain ⟨d, cell, child, later⟩ := working.missing ch (by
              rw [cons]
              exact List.mem_cons_self)
            exact ⟨d, by rw [← cell]; exact child, later⟩

theorem Passing.inside (h : P.Passing B ctx w m it) (check : it.pc ≠ .check)
    (done : it.pc ≠ .done) : it.k ≤ P.l.NNODE :=
  not_lt.mp fun lt => Or.elim (h.ended lt) check done

theorem Passing.step_check (h : P.Passing B ctx w m it) (all : P.Kept B ctx m) (ready : P.Ready)
    (hw : w < P.l.items) (pc : it.pc = .check) :
    P.Keeps B ctx w m (sumStep B ctx P.l m it).1 (sumStep B ctx P.l m it).2 := by
  rw [sumStep, pc]
  dsimp only
  split
  · next le =>
      have here := h.holds le
      rw [Holds, pc] at here
      dsimp only at here
      rcases here with ⟨none, ahead⟩ | ⟨consistent, some, working, shape, lacks⟩
      · rcases ahead with fresh | ⟨inconsistent, done⟩
        · have looks : (P.l.consistent || decide ((m.nodes it.k).mass < 0)) = true := by
            rw [decide_eq_true fresh.mass, Bool.or_true]
          rw [if_pos looks, if_pos none]
          refine Passing.quiet (h.stay rfl le (fun _ _ => rfl) ⟨⟨fresh.mass, fresh.pos,
            fresh.critRadius, ?_⟩, ⟨_, fresh.order, fresh.clean, Packed.start _⟩, ?_⟩) all
          · simp [none]
          · show (0, 0, 0) + (it.missing.map _).sum + 0 = _
            rw [none]
            exact (add_zero _).trans (add_zero _)
        · have skips : ¬ (P.l.consistent || decide ((m.nodes it.k).mass < 0)) = true := by
            rw [inconsistent, decide_eq_false (not_lt.mpr done)]
            decide
          rw [if_neg skips]
          exact (h.advance ready hw rfl le (fun _ _ => rfl) (.inl done)).quiet all
      · have looks : (P.l.consistent || decide ((m.nodes it.k).mass < 0)) = true := by
          rw [consistent, Bool.true_or]
        rw [if_pos looks, if_neg some]
        exact Passing.quiet (h.stay rfl le (fun _ _ => rfl) ⟨working, shape, lacks⟩) all
  · next beyond =>
      refine Passing.quiet ⟨h.place, h.behind, h.ahead, fun le => absurd le beyond, fun _ => ?_⟩ all
      exact .inr rfl

theorem Passing.step_slot (h : P.Passing B ctx w m it) (all : P.Kept B ctx m) (ready : P.Ready)
    (hw : w < P.l.items) {i j : ℕ} (pc : it.pc = .slot i j) :
    P.Keeps B ctx w m (sumStep B ctx P.l m it).1 (sumStep B ctx P.l m it).2 := by
  have le := h.inside (by rw [pc]; simp) (by rw [pc]; simp)
  have here := h.holds le
  rw [Holds, pc] at here
  obtain ⟨working, ⟨row₀, order, clean, packed⟩, lacks⟩ := here
  rw [sumStep, pc]
  dsimp only
  split
  · next inside =>
      split
      · next node =>
          obtain ⟨moved, stands, first⟩ := packed.move inside node
          refine h.write all ready hw le working.mass working.mass rfl ⟨?_, ⟨row₀, order, clean, moved⟩,
            stands, ?_, ?_⟩
          · exact ⟨working.mass, working.pos, working.critRadius, working.missing⟩
          · rw [← order, mem_children]
            exact ⟨node, _, (packed.rest i le_rfl inside).symm⟩
          · show P.Lacks it 0 ((front _ j).map _).sum
            rw [first]
            exact lacks
      · next empty =>
          have none : ((m.nodes it.k).child (slotNumber i)).isNode = false :=
            Bool.eq_false_of_not_eq_true empty
          exact Passing.quiet (h.stay rfl le (fun _ _ => rfl)
            ⟨working, ⟨row₀, order, clean, packed.skip clean inside none⟩, lacks⟩) all
  · next past =>
      have last : i = 8 := by
        have small := packed.small
        omega
      subst last
      obtain ⟨same, inFront⟩ := packed.finish
      have mem := (h.mine ready hw le).2
      have length : (front (m.nodes it.k).child j).length = j := by
        rw [front, List.length_map, List.length_range]
      refine h.settle all ready hw le rfl working ⟨same.trans order, j, inFront⟩ ?_
      have first : front (m.nodes it.k).child j = children (P.start it.k).child := by
        rw [← inFront.first, same, order]
      have sum := sum_part P.start P.T (front (m.nodes it.k).child j)
      rw [length, first, ← ready.device.under_eq mem] at sum
      rw [Lacks, target, first] at lacks
      rw [Lacks, ← sum, ← lacks]
      show (it.cm, it.p, it.cnt + (j : ℤ)) + _ + 0 = _
      rw [count_apart]
      abel

theorem Passing.step_flag (h : P.Passing B ctx w m it) (all : P.Kept B ctx m) (ready : P.Ready)
    (hw : w < P.l.items) {i j : ℕ} {ch : SlotCL} (pc : it.pc = .flag i j ch) :
    P.Keeps B ctx w m (sumStep B ctx P.l m it).1 (sumStep B ctx P.l m it).2 := by
  have le := h.inside (by rw [pc]; simp) (by rw [pc]; simp)
  have here := h.holds le
  rw [Holds, pc] at here
  obtain ⟨working, shape, stands, child, lacks⟩ := here
  have one : P.target it.k (m.nodes it.k).child (some (i + 1, j + 1)) =
      P.target it.k (m.nodes it.k).child (some (i, j)) + part P.start P.T ch := by
    rw [target, target, front_succ, List.map_append, List.sum_append, stands, List.map_singleton,
      List.sum_singleton]
  rw [sumStep, pc]
  dsimp only
  split
  · next done =>
      refine Passing.quiet (h.stay rfl le (fun _ _ => rfl) ⟨working, shape, ⟨done, rfl⟩, child,
        by simp, ?_⟩) all
      rw [one, ← lacks, Lacks, add_zero]
  · next unready =>
      refine Passing.quiet (h.stay rfl le (fun _ _ => rfl) ⟨⟨working.mass, working.pos,
        working.critRadius, ?_⟩, shape, ?_⟩) all
      · intro ch' mem
        rcases List.mem_cons.mp mem with rfl | mem
        · exact all.unready_child ready (h.mine ready hw le).2 child unready
        · exact working.missing ch' mem
      · rw [one, ← lacks, Lacks, List.map_cons, List.sum_cons]
        abel

theorem Passing.step_count (h : P.Passing B ctx w m it) (all : P.Kept B ctx m) (ready : P.Ready)
    (hw : w < P.l.items) {ch : SlotCL} {mass : R} {back : Option (ℕ × ℕ)}
    (pc : it.pc = .count ch mass back) :
    P.Keeps B ctx w m (sumStep B ctx P.l m it).1 (sumStep B ctx P.l m it).2 := by
  have le := h.inside (by rw [pc]; simp) (by rw [pc]; simp)
  have here := h.holds le
  rw [Holds, pc] at here
  obtain ⟨working, shape, seen, child, polled, lacks⟩ := here
  have value := all.part_eq ready (h.mine ready hw le).2 child seen
  rw [sumStep, pc]
  dsimp only
  refine Passing.quiet (h.stay rfl le (fun _ _ => rfl) ⟨working, shape, seen, child, ?_⟩) all
  have cell : (back = none ∨ ch.isCell = true) ↔ ch.isCell = true :=
    ⟨fun either => either.elim polled id, .inr⟩
  have counted : (if back = none ∨ ch.isCell = true then
      it.cnt + ((m.nodes ch.index).count - 1) else it.cnt) =
      it.cnt + if ch.isCell = true then (m.nodes ch.index).count - 1 else 0 := by
    rw [if_congr cell rfl rfl]
    split
    · rfl
    · rw [add_zero]
  rw [← lacks, Lacks, value, counted]
  generalize (if ch.isCell = true then (m.nodes ch.index).count - 1 else 0) = n
  have last : (mass, mass • (m.nodes ch.index).pos, n) =
      (mass, mass • (m.nodes ch.index).pos, (0 : ℤ)) + (0, 0, n) := by rw [← count_apart, zero_add]
  show (it.cm, it.p, it.cnt + n) + (it.missing.map _).sum +
    (mass, mass • (m.nodes ch.index).pos, 0) = _
  rw [count_apart, last]
  abel

theorem Passing.step_add (h : P.Passing B ctx w m it) (all : P.Kept B ctx m) (ready : P.Ready)
    (hw : w < P.l.items) {ch : SlotCL} {mass : R} {back : Option (ℕ × ℕ)}
    (pc : it.pc = .add ch mass back) :
    P.Keeps B ctx w m (sumStep B ctx P.l m it).1 (sumStep B ctx P.l m it).2 := by
  have le := h.inside (by rw [pc]; simp) (by rw [pc]; simp)
  have here := h.holds le
  rw [Holds, pc] at here
  obtain ⟨working, shape, seen, child, lacks⟩ := here
  have value := all.part_eq ready (h.mine ready hw le).2 child seen
  rw [sumStep, pc]
  dsimp only
  have added : (⟨mad mass (m.nodes ch.index).pos.x it.p.x, mad mass (m.nodes ch.index).pos.y it.p.y,
      mad mass (m.nodes ch.index).pos.z it.p.z⟩ : Vec3 R) =
      it.p + mass • (m.nodes ch.index).pos := by
    ext <;> exact add_comm _ _
  have sum : P.Lacks { it with
      cm := it.cm + mass
      p := it.p + mass • (m.nodes ch.index).pos } 0 (P.target it.k (m.nodes it.k).child back) := by
    rw [← lacks, Lacks, value]
    have split : ((it.cm + mass, it.p + mass • (m.nodes ch.index).pos, it.cnt) : R × Vec3 R × ℤ) =
        (it.cm, it.p, it.cnt) + (mass, mass • (m.nodes ch.index).pos, 0) := by
      rw [Prod.mk_add_mk, Prod.mk_add_mk, add_zero]
    rw [split]
    abel
  rw [added]
  cases back with
  | none => exact h.settle all ready hw le rfl working shape sum
  | some at_ => exact Passing.quiet (h.stay rfl le (fun _ _ => rfl) ⟨working, shape, sum⟩) all

theorem Passing.step_poll (h : P.Passing B ctx w m it) (all : P.Kept B ctx m) (ready : P.Ready)
    (hw : w < P.l.items) (pc : it.pc = .poll) :
    P.Keeps B ctx w m (sumStep B ctx P.l m it).1 (sumStep B ctx P.l m it).2 := by
  have le := h.inside (by rw [pc]; simp) (by rw [pc]; simp)
  have here := h.holds le
  rw [Holds, pc] at here
  obtain ⟨working, shape, lacks⟩ := here
  obtain ⟨pc', k, missing, cm, p, cnt⟩ := it
  dsimp only at pc
  subst pc
  cases missing with
  | nil => exact h.settle all ready hw le rfl working shape lacks
  | cons ch rest =>
      rw [sumStep]
      dsimp only
      obtain ⟨d, cell, child, later⟩ := working.missing ch List.mem_cons_self
      split
      · next done =>
          refine Passing.quiet (h.stay rfl le (fun _ _ => rfl) ⟨⟨working.mass, working.pos,
            working.critRadius, fun ch' mem => working.missing ch' (List.mem_cons_of_mem _ mem)⟩,
            shape, ⟨done, rfl⟩, child, fun _ => by rw [cell]; rfl, ?_⟩) all
          rw [← lacks, Lacks, List.map_cons, List.sum_cons]
          abel
      · next unready =>
          split
          · next consistent =>
              exact Passing.quiet (h.stay rfl le (fun _ _ => rfl)
                (.inr ⟨consistent, List.cons_ne_nil _ _, working, shape, lacks⟩)) all
          · next inconsistent =>
              obtain ⟨order, j, inFront⟩ := shape
              refine Passing.quiet (h.advance ready hw rfl le (fun _ _ => rfl) (.inr ⟨?_, ?_, d, ?_,
                later⟩)) all
              · exact Bool.eq_false_of_not_eq_true inconsistent
              · exact ⟨working.mass, order, inFront.clean, working.pos, working.critRadius⟩
              · rw [← cell]
                exact child

/-! ## Storing -/

theorem summarizationRC2_getD (B : Build R) {ctx : NBodyCtx R} (keeps : keepsRadius ctx = true)
    (radius size r : R) (c x : Vec3 R) : summarizationRC2 B ctx radius size c x =
      some ((summarizationRC2 B ctx radius size c x).getD r) := by
  rw [keepsRadius, Bool.or_eq_true, decide_eq_true_eq, decide_eq_true_eq] at keeps
  rw [summarizationRC2]
  split
  · rfl
  · rcases keeps with sw | code
    · rw [sw]
      rfl
    · rw [code]
      rfl

theorem Passing.step_storeCount (h : P.Passing B ctx w m it) (all : P.Kept B ctx m)
    (ready : P.Ready) (hw : w < P.l.items) (pc : it.pc = .storeCount) :
    P.Keeps B ctx w m (sumStep B ctx P.l m it).1 (sumStep B ctx P.l m it).2 := by
  have le := h.inside (by rw [pc]; simp) (by rw [pc]; simp)
  have here := h.holds le
  rw [Holds, pc] at here
  obtain ⟨working, none, shape, weighs⟩ := here
  rw [sumStep, pc]
  exact h.write all ready hw le working.mass working.mass rfl
    ⟨⟨working.mass, working.pos, working.critRadius, working.missing⟩, none, shape, weighs⟩

theorem Passing.step_centre (h : P.Passing B ctx w m it) (all : P.Kept B ctx m)
    (ready : P.Ready) (hw : w < P.l.items) (pc : it.pc = .centre) :
    P.Keeps B ctx w m (sumStep B ctx P.l m it).1 (sumStep B ctx P.l m it).2 := by
  have le := h.inside (by rw [pc]; simp) (by rw [pc]; simp)
  have here := h.holds le
  rw [Holds, pc] at here
  obtain ⟨working, none, ⟨order, inFront⟩, weighs⟩ := here
  rw [weight_eq, Prod.mk.injEq, Prod.mk.injEq] at weighs
  obtain ⟨mass, moment, count⟩ := weighs
  have nonzero : it.cm ≠ 0 := by
    rw [mass]
    exact ne_of_gt (ready.heavy _ (h.mine ready hw le).2)
  have scaled : ∀ x : R, it.cm * (x * (1 / it.cm)) = x := fun x => by
    rw [mul_one_div]
    exact mul_div_cancel_of_imp' fun zero => absurd zero nonzero
  have centre : it.cm • (⟨it.p.x * (1 / it.cm), it.p.y * (1 / it.cm), it.p.z * (1 / it.cm)⟩ :
      Vec3 R) = it.p := by
    ext <;> exact scaled _
  rw [sumStep, pc]
  dsimp only
  refine ⟨h.stay rfl le (fun _ _ => rfl) ⟨working.mass, none, mass, ?_, count, order, inFront,
    fun keeps => ?_, fun quad => ?_⟩, ⟨all.cells, all.bodies, all.status, all.earlier⟩,
    fun _ _ => rfl⟩
  · exact centre.trans moment
  · dsimp only
    rw [if_pos keeps, working.pos, working.critRadius, all.status.1]
    exact summarizationRC2_getD B keeps _ _ _ _ _
  · dsimp only
    rw [if_pos quad]

theorem Passing.step_storePos (h : P.Passing B ctx w m it) (all : P.Kept B ctx m)
    (ready : P.Ready) (hw : w < P.l.items) {rc2 : Option R} (pc : it.pc = .storePos rc2) :
    P.Keeps B ctx w m (sumStep B ctx P.l m it).1 (sumStep B ctx P.l m it).2 := by
  have le := h.inside (by rw [pc]; simp) (by rw [pc]; simp)
  have here := h.holds le
  rw [Holds, pc] at here
  rw [sumStep, pc]
  exact h.write all ready hw le here.mass here.mass rfl ⟨here.mass, here.missing, here.total⟩

theorem Passing.step_storeRadius (h : P.Passing B ctx w m it) (all : P.Kept B ctx m)
    (ready : P.Ready) (hw : w < P.l.items) {rc2 : Option R} (pc : it.pc = .storeRadius rc2) :
    P.Keeps B ctx w m (sumStep B ctx P.l m it).1 (sumStep B ctx P.l m it).2 := by
  have le := h.inside (by rw [pc]; simp) (by rw [pc]; simp)
  have here := h.holds le
  rw [Holds, pc] at here
  obtain ⟨mass, none, total⟩ := here
  rw [sumStep, pc]
  dsimp only
  split
  · next keeps =>
      rw [if_pos keeps] at total
      exact h.write all ready hw le mass mass rfl ⟨mass, none, total⟩
  · next drops =>
      rw [if_neg drops] at total
      exact Passing.quiet (h.stay rfl le (fun _ _ => rfl) ⟨mass, none, total⟩) all

theorem Passing.step_storeQuad (h : P.Passing B ctx w m it) (all : P.Kept B ctx m)
    (ready : P.Ready) (hw : w < P.l.items) (pc : it.pc = .storeQuad) :
    P.Keeps B ctx w m (sumStep B ctx P.l m it).1 (sumStep B ctx P.l m it).2 := by
  have le := h.inside (by rw [pc]; simp) (by rw [pc]; simp)
  have here := h.holds le
  rw [Holds, pc] at here
  obtain ⟨mass, none, total⟩ := here
  rw [sumStep, pc]
  dsimp only
  split
  · next quad =>
      rw [if_pos quad] at total
      exact h.write all ready hw le mass mass rfl ⟨mass, none, total⟩
  · next plain =>
      rw [if_neg plain] at total
      exact Passing.quiet (h.stay rfl le (fun _ _ => rfl) ⟨mass, none, total⟩) all

theorem Passing.step_storeMass (h : P.Passing B ctx w m it) (all : P.Kept B ctx m)
    (ready : P.Ready) (hw : w < P.l.items) (pc : it.pc = .storeMass) :
    P.Keeps B ctx w m (sumStep B ctx P.l m it).1 (sumStep B ctx P.l m it).2 := by
  have le := h.inside (by rw [pc]; simp) (by rw [pc]; simp)
  have here := h.holds le
  rw [Holds, pc] at here
  obtain ⟨mass, none, total⟩ := here
  obtain ⟨mine, mem⟩ := h.mine ready hw le
  have heavy : 0 ≤ it.cm := by
    rw [show it.cm = _ from total.mass]
    exact le_of_lt (ready.heavy _ mem)
  rw [sumStep, pc]
  dsimp only
  have others : ∀ n, n ≠ it.k →
      (m.setNode it.k { m.nodes it.k with mass := it.cm }).nodes n = m.nodes n :=
    fun n ne => Function.update_of_ne ne _ _
  have own : (m.setNode it.k { m.nodes it.k with mass := it.cm }).nodes it.k =
      { m.nodes it.k with mass := it.cm } := Function.update_self _ _ _
  refine ⟨h.advance ready hw rfl le others (.inl ?_), all.store ready mine mass others ⟨rfl, rfl⟩
    fun _ => ?_⟩
  · rw [own]
    exact heavy
  · rw [own]
    exact total

theorem Passing.step (h : P.Passing B ctx w m it) (all : P.Kept B ctx m) (ready : P.Ready)
    (hw : w < P.l.items) :
    P.Keeps B ctx w m (sumStep B ctx P.l m it).1 (sumStep B ctx P.l m it).2 := by
  cases pc : it.pc with
  | check => exact h.step_check all ready hw pc
  | slot i j => exact h.step_slot all ready hw pc
  | flag i j ch => exact h.step_flag all ready hw pc
  | count ch mass back => exact h.step_count all ready hw pc
  | add ch mass back => exact h.step_add all ready hw pc
  | poll => exact h.step_poll all ready hw pc
  | storeCount => exact h.step_storeCount all ready hw pc
  | centre => exact h.step_centre all ready hw pc
  | storePos rc2 => exact h.step_storePos all ready hw pc
  | storeRadius rc2 => exact h.step_storeRadius all ready hw pc
  | storeQuad => exact h.step_storeQuad all ready hw pc
  | storeMass => exact h.step_storeMass all ready hw pc
  | done =>
      rw [sumStep, pc]
      exact h.quiet all

end SumPass

end MilkyWay.NBody
