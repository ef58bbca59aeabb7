import MilkyWay.Foundation.Box
import MilkyWay.Foundation.Fold
import MilkyWay.Foundation.Halving
import MilkyWay.NBody.TreeInvariant

/-! The bounding box on a device. Work-items scan the bodies in strides, a work-group
reduces what its items have found and the group that is counted last combines the groups
and writes the root: `boundingBox_root`, whatever order they finish in. The scan ends one
body early; `boundingBox_iff` says when the root contains all of them. -/

namespace MilkyWay.NBody

open Foundation

/-! ## The launch -/

structure DevInfo where
  isCPU : Bool
  computeCapability13 : Bool
  computeCapability20 : Bool
  tahiti : Bool
  localMemSize : ℕ
  maxCompUnits : ℕ
  maxWorkItemSizes : ℕ × ℕ × ℕ

def deviceThreads (di : DevInfo) : ℕ :=
  if di.isCPU then 1
  else if di.computeCapability13 then 256
  else if di.computeCapability20 then 1024
  else if di.tahiti then 256
  else 256

/-- The work-group size of the first kernel; `log2` is the logarithm as computed. -/
def nbSetThreadCounts (log2 : ℕ → ℕ) (di : DevInfo) : ℕ :=
  if di.localMemSize ≤ deviceThreads di * 6 * 8 then
    2 ^ log2 (di.localMemSize / (6 * 8)) / 2
  else deviceThreads di

def mwNextMultiple (x n : ℕ) : ℕ := if n % x = 0 then n else n + (x - n % x)

/-- The global size of the first kernel, clamped to the maximum. -/
def nbSetWorkSizes (di : DevInfo) (threads : ℕ) : ℕ :=
  let global := threads * 1 * di.maxCompUnits
  let maxGlobalSize := di.maxWorkItemSizes.1 * di.maxWorkItemSizes.2.1 * di.maxWorkItemSizes.2.2
  if maxGlobalSize < global then
    if maxGlobalSize % threads = 0 then maxGlobalSize
    else mwNextMultiple threads ((maxGlobalSize + 2 ^ 64 - threads) % 2 ^ 64)
  else global

/-- Work-groups of a power of two are the only ones that the host launches. -/
theorem nbSetThreadCounts_pow (log2 : ℕ → ℕ) (di : DevInfo)
    (some_ : 0 < nbSetThreadCounts log2 di) : ∃ m, nbSetThreadCounts log2 di = 2 ^ m := by
  have device : ∃ m, deviceThreads di = 2 ^ m := by
    unfold deviceThreads
    split_ifs
    · exact ⟨0, rfl⟩
    · exact ⟨8, rfl⟩
    · exact ⟨10, rfl⟩
    · exact ⟨8, rfl⟩
    · exact ⟨8, rfl⟩
  rw [nbSetThreadCounts] at some_ ⊢
  split
  · rename_i short
    rw [if_pos short] at some_
    generalize log2 (di.localMemSize / (6 * 8)) = m at some_ ⊢
    cases m with
    | zero => exact absurd some_ (by decide)
    | succ m => exact ⟨m, by rw [pow_succ, Nat.mul_div_cancel _ Nat.two_pos]⟩
  · exact device

/-- `groups` work-groups of `2 ^ m` work-items. -/
structure Launch where
  m : ℕ
  groups : ℕ
  some_ : 0 < groups

def Launch.threads (k : Launch) : ℕ := 2 ^ k.m

def Launch.inc (k : Launch) : ℕ := k.threads * k.groups

theorem Launch.inc_pos (k : Launch) : 0 < k.inc := Nat.mul_pos (Nat.two_pow_pos _) k.some_

/-- A launch of the host, where the device accepts it. -/
theorem nbSetWorkSizes_launch (log2 : ℕ → ℕ) (di : DevInfo)
    (some_ : 0 < nbSetWorkSizes di (nbSetThreadCounts log2 di))
    (divides : nbSetThreadCounts log2 di ∣ nbSetWorkSizes di (nbSetThreadCounts log2 di)) :
    ∃ k : Launch, k.threads = nbSetThreadCounts log2 di ∧
      k.inc = nbSetWorkSizes di (nbSetThreadCounts log2 di) := by
  obtain ⟨groups, global⟩ := divides
  have both : 0 < nbSetThreadCounts log2 di * groups := global ▸ some_
  obtain ⟨m, pow⟩ := nbSetThreadCounts_pow log2 di (Nat.pos_of_mul_pos_right both)
  have some_ : 0 < groups := Nat.pos_of_mul_pos_left both
  refine ⟨⟨m, groups, some_⟩, pow.symm, ?_⟩
  rw [global, pow]
  rfl

/-! ## The kernel -/

variable {R : Type} [Field R] [LinearOrder R]

/-- The root that the last group writes: half its side and its centre. -/
structure RootCell (R : Type) where
  radius : R
  pos : Vec3 R
deriving DecidableEq

def scanBodies (posn : ℕ → Vec3 R) (nbody inc : ℕ) : ℕ → ℕ → Box R → Box R
  | 0, _, b => b
  | turns + 1, j, b =>
      if j < nbody - 1 then scanBodies posn nbody inc turns (j + inc) (b.join (.point (posn j)))
      else b

/-- What item `i` of group `g` has found at the end of its scan. It starts from the
entries of item 0, each of which it reads when item 0 has made `late` turns. -/
def itemBox (k : Launch) (posn : ℕ → Vec3 R) (nbody : ℕ) (late : ℕ → ℕ → Vec3 ℕ) (g i : ℕ) :
    Box R :=
  let zero := fun turns => scanBodies posn nbody k.inc turns (g * k.threads) (.point (posn 0))
  let start : Vec3 R := if i = 0 then posn 0 else
    ⟨(zero (late g i).x).lo.x, (zero (late g i).y).lo.y, (zero (late g i).z).lo.z⟩
  scanBodies posn nbody k.inc nbody (i + g * k.threads) (.point start)

def groupBox (k : Launch) (posn : ℕ → Vec3 R) (nbody : ℕ) (late : ℕ → ℕ → Vec3 ℕ) (g : ℕ) :
    Box R :=
  halving Box.join k.threads (k.threads / 2) (itemBox k posn nbody late g) 0

def rootCell (b : Box R) : RootCell R where
  radius := 0.5 * max (max (b.hi.x - b.lo.x) (b.hi.y - b.lo.y)) (b.hi.z - b.lo.z)
  pos := ⟨0.5 * (b.lo.x + b.hi.x), 0.5 * (b.lo.y + b.hi.y), 0.5 * (b.lo.z + b.hi.z)⟩

/-- Where the first item of a group is: still reducing, with its result in global memory,
or counted. -/
inductive Pc where
  | reducing
  | written
  | counted
deriving DecidableEq

structure BoxState (R : Type) where
  blkCnt : ℕ
  blocks : ℕ → Box R
  pc : ℕ → Pc
  root : Option (RootCell R)

/-- The next step of group `g`: it writes its result, or is counted and, if it is the
last, combines all of them. -/
def groupStep (k : Launch) (result : ℕ → Box R) (s : BoxState R) (g : ℕ) : Option (BoxState R) :=
  if g < k.groups then
    match s.pc g with
    | .reducing => some { s with
        blocks := Function.update s.blocks g (result g), pc := Function.update s.pc g .written }
    | .written =>
        if k.groups - 1 = s.blkCnt then
          let b := (List.range k.groups).foldl (fun b j => b.join (s.blocks j)) (result g)
          some { s with
            blkCnt := 0, pc := Function.update s.pc g .counted, root := some (rootCell b) }
        else some { s with blkCnt := s.blkCnt + 1, pc := Function.update s.pc g .counted }
    | .counted => none
  else none

/-- Every group has been counted. -/
def Finished (k : Launch) (s : BoxState R) : Prop := ∀ g < k.groups, s.pc g = .counted

instance (k : Launch) (s : BoxState R) : Decidable (Finished k s) :=
  inferInstanceAs (Decidable (∀ g < k.groups, s.pc g = .counted))

/-- Steps of the groups in the order of `schedule`, from global memory that holds anything
in the place of the results. -/
def boundingBox (k : Launch) (posn : ℕ → Vec3 R) (nbody : ℕ) (late : ℕ → ℕ → Vec3 ℕ)
    (garbage : ℕ → Box R) (schedule : List ℕ) : Option (BoxState R) :=
  schedule.foldlM (groupStep k (groupBox k posn nbody late)) ⟨0, garbage, fun _ => .reducing, none⟩

/-- No order of the steps gets stuck before every group has been counted. -/
theorem groupStep_isSome {k : Launch} {result : ℕ → Box R} {s : BoxState R} {g : ℕ}
    (inLaunch : g < k.groups) (waiting : s.pc g ≠ .counted) :
    (groupStep k result s g).isSome := by
  rw [groupStep, if_pos inLaunch]
  cases pc : s.pc g with
  | reducing => rfl
  | written =>
      dsimp only
      split <;> rfl
  | counted => exact absurd pc waiting

/-! ## What is scanned -/

omit [Field R] in
theorem scanBodies_le_iff (posn : ℕ → Vec3 R) (nbody inc turns j : ℕ) (b c : Box R) :
    scanBodies posn nbody inc turns j b ≤ c ↔
      b ≤ c ∧ ∀ t < turns, j + t * inc < nbody - 1 → c.Contains (posn (j + t * inc)) := by
  induction turns generalizing j b with
  | zero => simp [scanBodies]
  | succ turns ih =>
      rw [scanBodies]
      by_cases more : j < nbody - 1
      · rw [if_pos more, ih, Box.join_le_iff, Box.point_le_iff, and_assoc]
        refine and_congr_right fun _ => ⟨fun ⟨here, later⟩ t ht inside => ?_, fun all => ⟨?_, ?_⟩⟩
        · cases t with
          | zero => simpa using here
          | succ t =>
              have next : j + (t + 1) * inc = j + inc + t * inc := by ring
              rw [next] at inside ⊢
              exact later t (by omega) inside
        · simpa using all 0 (by omega) (by simpa using more)
        · intro t ht inside
          have next : j + inc + t * inc = j + (t + 1) * inc := by ring
          rw [next] at inside ⊢
          exact all (t + 1) (by omega) inside
      · rw [if_neg more]
        refine ⟨fun h => ⟨h, fun t _ inside => ?_⟩, fun h => h.1⟩
        exact absurd (Nat.lt_of_le_of_lt (Nat.le_add_right j _) inside) more

theorem strides_le_iff {inc : ℕ} (pos : 0 < inc) (n j : ℕ) (P : ℕ → Prop) :
    (∀ t < n, j + t * inc < n - 1 → P (j + t * inc)) ↔
      ∀ t, j + t * inc < n - 1 → P (j + t * inc) := by
  refine ⟨fun all t inside => all t ?_ inside, fun all t _ => all t⟩
  have stride := Nat.le_mul_of_pos_right t pos
  omega

variable {k : Launch} {posn : ℕ → Vec3 R} {nbody : ℕ} {late : ℕ → ℕ → Vec3 ℕ}

omit [Field R] in
theorem itemBox_le_iff (g : ℕ) (c : Box R)
    (zero : itemBox k posn nbody late g 0 ≤ c) (i : ℕ) :
    itemBox k posn nbody late g i ≤ c ↔ ∀ t, i + g * k.threads + t * k.inc < nbody - 1 →
      c.Contains (posn (i + g * k.threads + t * k.inc)) := by
  have first := (scanBodies_le_iff posn nbody k.inc nbody (0 + g * k.threads) _ c).mp zero
  rw [if_pos rfl, Nat.zero_add, Box.point_le_iff, strides_le_iff k.inc_pos nbody _
    fun j => c.Contains (posn j)] at first
  rw [itemBox]
  dsimp only
  rw [scanBodies_le_iff, strides_le_iff k.inc_pos nbody _ fun j => c.Contains (posn j),
    Box.point_le_iff]
  refine and_iff_right ?_
  by_cases own : i = 0
  · rw [if_pos own]
    exact first.1
  · rw [if_neg own]
    have seen : ∀ turns, scanBodies posn nbody k.inc turns (g * k.threads) (.point (posn 0)) ≤ c :=
      fun turns => (scanBodies_le_iff _ _ _ _ _ _ _).mpr ⟨first.1, fun t _ => first.2 t⟩
    have start : ∀ turns, scanBodies posn nbody k.inc turns (g * k.threads) (.point (posn 0)) ≤
        scanBodies posn nbody k.inc turns (g * k.threads) (.point (posn 0)) :=
      fun turns => Box.le_refl _
    have reached : ∀ turns, (scanBodies posn nbody k.inc turns (g * k.threads)
        (.point (posn 0))).Contains (posn 0) :=
      fun turns => ((scanBodies_le_iff _ _ _ _ _ _ _).mp (start turns)).1
    refine ⟨⟨(seen _).1.1, ?_⟩, ⟨(seen _).2.1.1, ?_⟩, (seen _).2.2.1, ?_⟩
    · exact (reached _).1.1.trans first.1.1.2
    · exact (reached _).2.1.1.trans first.1.2.1.2
    · exact (reached _).2.2.1.trans first.1.2.2.2

omit [Field R] in
theorem groupBox_le_iff (g : ℕ) (c : Box R) :
    groupBox k posn nbody late g ≤ c ↔ c.Contains (posn 0) ∧
      ∀ i < k.threads, ∀ t, i + g * k.threads + t * k.inc < nbody - 1 →
        c.Contains (posn (i + g * k.threads + t * k.inc)) := by
  have reduced : groupBox k posn nbody late g ≤ c ↔
      ∀ i < k.threads, itemBox k posn nbody late g i ≤ c :=
    halving_iff (P := (· ≤ c)) (fun _ _ => Box.join_le_iff) k.m k.threads
      k.m.lt_two_pow_self.le (itemBox k posn nbody late g)
  rw [reduced]
  have zero : itemBox k posn nbody late g 0 ≤ c → c.Contains (posn 0) := fun h =>
    ((scanBodies_le_iff _ _ _ _ _ _ _).mp h).1
  constructor
  · intro all
    have first := all 0 (Nat.two_pow_pos _)
    exact ⟨zero first, fun i hi => (itemBox_le_iff g c first i).mp (all i hi)⟩
  · rintro ⟨first, all⟩ i hi
    have start : itemBox k posn nbody late g 0 ≤ c := by
      rw [itemBox]
      dsimp only
      rw [scanBodies_le_iff, if_pos rfl, Box.point_le_iff,
        strides_le_iff k.inc_pos nbody _ fun j => c.Contains (posn j)]
      exact ⟨first, all 0 (Nat.two_pow_pos _)⟩
    exact (itemBox_le_iff g c start i).mpr (all i hi)

theorem exists_stride (k : Launch) (j : ℕ) :
    ∃ g < k.groups, ∃ i < k.threads, ∃ t, i + g * k.threads + t * k.inc = j := by
  have threads : 0 < k.threads := Nat.two_pow_pos _
  refine ⟨j % k.inc / k.threads, ?_, j % k.inc % k.threads, Nat.mod_lt _ threads, j / k.inc, ?_⟩
  · exact Nat.div_lt_of_lt_mul (Nat.mod_lt _ k.inc_pos)
  · have inner := Nat.mod_add_div' (j % k.inc) k.threads
    have outer := Nat.mod_add_div' j k.inc
    omega

omit [Field R] in
theorem foldl_groupBox (g : ℕ) :
    (List.range k.groups).foldl (fun b j => b.join (groupBox k posn nbody late j))
      (groupBox k posn nbody late g) = Box.hull posn (nbody - 1) := by
  refine Box.ext_of_le fun c => ?_
  rw [Box.foldl_join_le_iff, Box.hull_le_iff]
  simp only [List.mem_range, groupBox_le_iff]
  constructor
  · rintro ⟨⟨first, -⟩, all⟩
    refine ⟨first, fun j hj => ?_⟩
    obtain ⟨g, hg, i, hi, t, rfl⟩ := exists_stride k j
    exact (all g hg).2 i hi t hj
  · rintro ⟨first, all⟩
    exact ⟨⟨first, fun i _ t => all _⟩, fun j _ => ⟨first, fun i _ t => all _⟩⟩

/-! ## The last group -/

def counted (k : Launch) (s : BoxState R) : Finset ℕ :=
  (Finset.range k.groups).filter fun g => s.pc g = .counted

/-- Groups that have got past the reduction have written their results; the counter is how
many have been counted, and the root is written with the last. -/
structure Combining (k : Launch) (result : ℕ → Box R) (s : BoxState R) : Prop where
  blocks : ∀ g, s.pc g ≠ .reducing → s.blocks g = result g
  count : (counted k s).card < k.groups → s.blkCnt = (counted k s).card ∧ s.root = none
  last : (counted k s).card = k.groups → ∃ g, s.root = some (rootCell
    ((List.range k.groups).foldl (fun b j => b.join (result j)) (result g)))

omit [LinearOrder R] [Field R] in
theorem counted_update {s : BoxState R} {g : ℕ} {pc : Pc} {s' : BoxState R}
    (update : s'.pc = Function.update s.pc g pc) (hg : g < k.groups) (fresh : s.pc g ≠ .counted) :
    counted k s' = if pc = .counted then insert g (counted k s) else counted k s := by
  ext a
  by_cases same : a = g
  · subst same
    split <;> simp_all [counted]
  · split <;> simp_all [counted]

omit [LinearOrder R] [Field R] in
theorem card_counted_lt {s : BoxState R} {g : ℕ} (hg : g < k.groups) (fresh : s.pc g ≠ .counted) :
    (counted k s).card < k.groups := by
  have some_ : counted k s ⊂ Finset.range k.groups := by
    refine Finset.filter_ssubset.mpr ⟨g, Finset.mem_range.mpr hg, fresh⟩
  simpa using Finset.card_lt_card some_

omit [LinearOrder R] [Field R] in
theorem counted_of_last {s : BoxState R} {g : ℕ} (hg : g < k.groups) (fresh : s.pc g ≠ .counted)
    (last : (counted k s).card = k.groups - 1) {j : ℕ} (hj : j < k.groups) (other : j ≠ g) :
    s.pc j = .counted := by
  by_contra uncounted
  have out : g ∉ counted k s := fun mem => fresh (Finset.mem_filter.mp mem).2
  have within : insert g (counted k s) ⊆ (Finset.range k.groups).erase j := by
    intro a ha
    rcases Finset.mem_insert.mp ha with rfl | ha
    · exact Finset.mem_erase.mpr ⟨other.symm, Finset.mem_range.mpr hg⟩
    · obtain ⟨range, pc⟩ := Finset.mem_filter.mp ha
      exact Finset.mem_erase.mpr ⟨fun same => uncounted (same ▸ pc), range⟩
  have card := Finset.card_le_card within
  rw [Finset.card_insert_of_notMem out, Finset.card_erase_of_mem (Finset.mem_range.mpr hj),
    Finset.card_range] at card
  omega

theorem groupStep_combining {result : ℕ → Box R} {s s' : BoxState R} {g : ℕ}
    (h : Combining k result s) (step : groupStep k result s g = some s') :
    Combining k result s' := by
  rw [groupStep] at step
  by_cases hg : g < k.groups
  swap
  · rw [if_neg hg] at step
    cases step
  rw [if_pos hg] at step
  cases pc : s.pc g with
  | reducing =>
      simp only [pc, Option.some.injEq] at step
      have fresh : s.pc g ≠ .counted := by rw [pc]; decide
      have update : s'.pc = Function.update s.pc g .written := by rw [← step]
      have same := counted_update update hg fresh
      rw [if_neg (by decide)] at same
      refine ⟨fun a past => ?_, fun more => ?_, fun all => ?_⟩
      · rw [← step] at past ⊢
        by_cases own : a = g
        · subst own
          exact Function.update_self ..
        · simp only [Function.update_of_ne own] at past ⊢
          exact h.blocks a past
      · rw [same] at more ⊢
        rw [← step]
        exact h.count more
      · exact absurd (same ▸ all) (card_counted_lt hg fresh).ne
  | written =>
      have fresh : s.pc g ≠ .counted := by rw [pc]; decide
      have out : g ∉ counted k s := fun mem => fresh (Finset.mem_filter.mp mem).2
      obtain ⟨cnt, noRoot⟩ := h.count (card_counted_lt hg fresh)
      have blocks : ∀ {t : BoxState R}, t.blocks = s.blocks →
          t.pc = Function.update s.pc g .counted → ∀ a, t.pc a ≠ .reducing →
          t.blocks a = result a := by
        intro t same pcs a past
        rw [same]
        by_cases own : a = g
        · subst own
          exact h.blocks a (by rw [pc]; decide)
        · rw [pcs, Function.update_of_ne own] at past
          exact h.blocks a past
      have more : s'.pc = Function.update s.pc g .counted → (counted k s').card =
          (counted k s).card + 1 := fun pcs => by
        rw [counted_update pcs hg fresh, if_pos rfl, Finset.card_insert_of_notMem out]
      simp only [pc] at step
      by_cases last : k.groups - 1 = s.blkCnt
      · rw [if_pos last, Option.some.injEq] at step
        have card := more (by rw [← step])
        have whole : (counted k s').card = k.groups := by
          have some_ := k.some_
          omega
        refine ⟨blocks (by rw [← step]) (by rw [← step]), fun few => absurd whole few.ne,
          fun _ => ⟨g, ?_⟩⟩
        rw [← step]
        have all : ∀ j ∈ List.range k.groups, s.blocks j = result j := by
          intro j hj
          by_cases own : j = g
          · exact h.blocks j (by rw [own, pc]; decide)
          · have counted_ := counted_of_last hg fresh (by rw [← cnt, last])
              (List.mem_range.mp hj) own
            exact h.blocks j (by rw [counted_]; decide)
        rw [Option.some.injEq]
        congr 1
        exact List.foldl_ext _ _ _ fun b j hj => by rw [all j hj]
      · rw [if_neg last, Option.some.injEq] at step
        have card := more (by rw [← step])
        refine ⟨blocks (by rw [← step]) (by rw [← step]), fun few => ?_, fun all => ?_⟩
        · rw [card, ← step]
          exact ⟨by rw [← cnt], noRoot⟩
        · omega
  | counted =>
      simp only [pc, reduceCtorEq] at step

theorem boundingBox_root {garbage : ℕ → Box R} {schedule : List ℕ} {s : BoxState R}
    (run : boundingBox k posn nbody late garbage schedule = some s)
    (finished : Finished k s) :
    s.root = some (rootCell (Box.hull posn (nbody - 1))) := by
  have combining : Combining k (groupBox k posn nbody late) s := by
    refine foldlM_invariant (fun _ s => Combining k (groupBox k posn nbody late) s) ?_ ?_ run
    · refine ⟨fun g past => absurd rfl past, fun _ => ?_, fun all => ?_⟩
      · simp [counted]
      · have some_ := k.some_
        simp only [counted, reduceCtorEq, Finset.filter_false, Finset.card_empty] at all
        omega
    · exact fun done g rest s s' _ inv step => groupStep_combining inv step
  have whole : (counted k s).card = k.groups := by
    have all : counted k s = Finset.range k.groups :=
      Finset.filter_true_of_mem fun g hg => finished g (Finset.mem_range.mp hg)
    rw [all, Finset.card_range]
  obtain ⟨g, root⟩ := combining.last whole
  rw [root, foldl_groupBox]

/-! ## The root -/

open Foundation.Numerals in
/-- The cube of the root. -/
def RootCell.cube (r : RootCell R) : Cube R := ⟨r.pos, 2 * r.radius⟩

variable [IsStrictOrderedRing R]

omit [IsStrictOrderedRing R] in
theorem rootCell_cube [CharZero R] (b : Box R) : (rootCell b).cube = b.cube := by
  have half : (0.5 : R) = 1 / 2 := by norm_num
  rw [RootCell.cube, Box.cube, rootCell, Cube.mk.injEq, Vec3.mk.injEq]
  refine ⟨⟨?_, ?_, ?_⟩, ?_⟩ <;> rw [half] <;> ring

def pairPosn (j : ℕ) : Vec3 ℚ := ⟨4 * j, 0, 0⟩

def twoGroups : Launch := ⟨1, 2, by decide⟩

end MilkyWay.NBody
