import Mathlib.Data.List.FinRange
import Mathlib.Data.List.Pairwise
import Mathlib.Data.List.Perm.Basic
import Mathlib.Algebra.BigOperators.Group.List.Basic

/-! Octrees and their threading. A cell has eight slots; an empty slot, a leaf or
a cell stands in each. `Links` is a memory of next and more references over the
nodes; `Threaded` says that the links of a tree are the threading with a given
successor, and `walk_threaded` that a scan of the links is the depth-first walk. -/

namespace MilkyWay.Foundation

inductive Octree (κ β : Type*) where
  | empty
  | leaf (b : β)
  | cell (c : κ) (sub : Fin 8 → Octree κ β)

inductive Ref (κ β : Type*) where
  | null
  | wild
  | leaf (b : β)
  | cell (c : κ)
deriving DecidableEq

def Ref.cell? {κ β : Type*} : Ref κ β → Option κ
  | .cell c => some c
  | _ => none

def Ref.leaf? {κ β : Type*} : Ref κ β → Option β
  | .leaf b => some b
  | _ => none

namespace Octree

variable {κ β : Type*}

def isCell : Octree κ β → Bool
  | cell _ _ => true
  | _ => false

def leaves : Octree κ β → List β
  | empty => []
  | leaf b => [b]
  | cell _ sub => (List.finRange 8).flatMap fun i => (sub i).leaves

def cells : Octree κ β → List κ
  | empty => []
  | leaf _ => []
  | cell c sub => c :: (List.finRange 8).flatMap fun i => (sub i).cells

/-- The level of the deepest cell below a cell that is itself at level 0. -/
def deepest : Octree κ β → ℕ
  | empty => 0
  | leaf _ => 0
  | cell _ sub => (List.finRange 8).foldr
      (fun i n => max (if (sub i).isCell then (sub i).deepest + 1 else 0) n) 0

def Grounded : Octree κ β → Prop
  | empty => True
  | leaf _ => True
  | cell _ sub => ∀ i, ((sub i).isCell → (sub i).leaves ≠ []) ∧ (sub i).Grounded

theorem Grounded.bare {c : κ} {sub : Fin 8 → Octree κ β} (h : (cell c sub).Grounded)
    (none : (cell c sub).leaves = []) : sub = fun _ => empty := by
  funext i
  have hi : (sub i).leaves = [] := List.flatMap_eq_nil_iff.mp none i (List.mem_finRange i)
  cases hT : sub i with
  | empty => rfl
  | leaf b => simp [hT, leaves] at hi
  | cell d inner => exact absurd hi ((h i).1 (by rw [hT]; rfl))

def entry : Octree κ β → Ref κ β → Ref κ β
  | empty, n => n
  | leaf b, _ => .leaf b
  | cell c _, _ => .cell c

def entries : List (Octree κ β) → Ref κ β → Ref κ β
  | [], n => n
  | T :: Ts, n => T.entry (entries Ts n)

/-- Depth-first walk that descends into the opened cells. -/
def visits (opens : κ → Bool) : Octree κ β → List (Ref κ β)
  | empty => []
  | leaf b => [.leaf b]
  | cell c sub => .cell c ::
      if opens c then (List.finRange 8).flatMap fun i => (sub i).visits opens else []

theorem mem_leaves_cell (c : κ) (sub : Fin 8 → Octree κ β) (b : β) :
    b ∈ (cell c sub).leaves ↔ ∃ i, b ∈ (sub i).leaves := by
  simp [leaves]

theorem mem_cells_cell (c : κ) (sub : Fin 8 → Octree κ β) (x : κ) :
    x ∈ (cell c sub).cells ↔ x = c ∨ ∃ i, x ∈ (sub i).cells := by
  simp [cells]

/-- A property of every cell and the slots below it. -/
def Everywhere (φ : κ → (Fin 8 → Octree κ β) → Prop) : Octree κ β → Prop
  | empty => True
  | leaf _ => True
  | cell c sub => φ c sub ∧ ∀ i, Everywhere φ (sub i)

theorem Everywhere.imp {φ ψ : κ → (Fin 8 → Octree κ β) → Prop} {T : Octree κ β}
    (h : T.Everywhere φ) (himp : ∀ c sub, (∀ a ∈ (cell c sub).cells, a ∈ T.cells) →
      φ c sub → ψ c sub) : T.Everywhere ψ := by
  induction T with
  | empty => trivial
  | leaf b => trivial
  | cell c sub ih =>
      refine ⟨himp c sub (fun _ ha => ha) h.1, fun i => ih i (h.2 i) fun d inner hd => ?_⟩
      exact himp d inner fun a ha => (mem_cells_cell c sub a).mpr (.inr ⟨i, hd a ha⟩)

theorem everywhere_forall {α : Type*} {φ : α → κ → (Fin 8 → Octree κ β) → Prop}
    {T : Octree κ β} :
    (T.Everywhere fun c sub => ∀ a, φ a c sub) ↔ ∀ a, T.Everywhere (φ a) := by
  induction T with
  | empty => simp [Everywhere]
  | leaf b => simp [Everywhere]
  | cell c sub ih =>
      simp only [Everywhere, ih]
      exact ⟨fun h a => ⟨h.1 a, fun i => h.2 i a⟩,
        fun h => ⟨fun a => (h a).1, fun i a => (h a).2 i⟩⟩

theorem visits_all_cells (T : Octree κ β) :
    (T.visits fun _ => true).filterMap Ref.cell? = T.cells := by
  induction T with
  | empty => rfl
  | leaf b => rfl
  | cell c sub ih =>
      rw [visits, if_pos rfl, cells]
      simp only [List.filterMap_cons, Ref.cell?, List.filterMap_flatMap, ih]

theorem visits_all_leaves (T : Octree κ β) :
    (T.visits fun _ => true).filterMap Ref.leaf? = T.leaves := by
  induction T with
  | empty => rfl
  | leaf b => rfl
  | cell c sub ih =>
      rw [visits, if_pos rfl, leaves]
      simp only [List.filterMap_cons, Ref.leaf?, List.filterMap_flatMap, ih]

theorem visits_sublist (opens : κ → Bool) (T : Octree κ β) :
    (T.visits opens).Sublist (T.visits fun _ => true) := by
  induction T with
  | empty => exact .refl _
  | leaf b => exact .refl _
  | cell c sub ih =>
      rw [visits, visits, if_pos rfl]
      refine List.Sublist.cons_cons _ ?_
      by_cases ho : opens c
      · rw [if_pos ho]
        generalize List.finRange 8 = l
        induction l with
        | nil => exact .refl _
        | cons i l ih' => exact (ih i).append ih'
      · rw [if_neg ho]
        exact List.nil_sublist _

private theorem nodup_of_kinds (l : List (Ref κ β)) (hc : (l.filterMap Ref.cell?).Nodup)
    (hl : (l.filterMap Ref.leaf?).Nodup) (kinds : ∀ q ∈ l, q ≠ .null ∧ q ≠ .wild) : l.Nodup := by
  induction l with
  | nil => exact List.nodup_nil
  | cons q l ih =>
      have rest := fun r hr => kinds r (List.mem_cons_of_mem q hr)
      cases q with
      | null => exact absurd rfl (kinds .null (by simp)).1
      | wild => exact absurd rfl (kinds .wild (by simp)).2
      | leaf b =>
          simp only [List.filterMap_cons, Ref.cell?, Ref.leaf?, List.nodup_cons] at hc hl
          refine List.nodup_cons.mpr ⟨fun m => hl.1 ?_, ih hc hl.2 rest⟩
          exact List.mem_filterMap.mpr ⟨_, m, rfl⟩
      | cell c =>
          simp only [List.filterMap_cons, Ref.cell?, Ref.leaf?, List.nodup_cons] at hc hl
          refine List.nodup_cons.mpr ⟨fun m => hc.1 ?_, ih hc.2 hl rest⟩
          exact List.mem_filterMap.mpr ⟨_, m, rfl⟩

theorem visits_kinds (opens : κ → Bool) (T : Octree κ β) :
    ∀ q ∈ T.visits opens, q ≠ .null ∧ q ≠ .wild := by
  induction T with
  | empty => simp [visits]
  | leaf b => simp [visits]
  | cell c sub ih =>
      intro q hq
      rw [visits] at hq
      rcases List.mem_cons.mp hq with rfl | hq
      · simp
      · by_cases ho : opens c
        · rw [if_pos ho] at hq
          obtain ⟨i, -, hi⟩ := List.mem_flatMap.mp hq
          exact ih i q hi
        · simp [if_neg ho] at hq

theorem visits_nodup (opens : κ → Bool) (T : Octree κ β) (cells : T.cells.Nodup)
    (leaves : T.leaves.Nodup) : (T.visits opens).Nodup := by
  refine (visits_sublist opens T).nodup (nodup_of_kinds _ ?_ ?_ (visits_kinds _ T))
  · rw [visits_all_cells]
    exact cells
  · rw [visits_all_leaves]
    exact leaves

theorem visits_congr {opens opens' : κ → Bool} {T : Octree κ β}
    (h : ∀ c ∈ T.cells, opens c = opens' c) : T.visits opens = T.visits opens' := by
  induction T with
  | empty => rfl
  | leaf b => rfl
  | cell c sub ih =>
      have below : ∀ i, (sub i).visits opens = (sub i).visits opens' := fun i =>
        ih i fun d hd => h d ((mem_cells_cell c sub d).mpr (.inr ⟨i, hd⟩))
      simp only [visits, below, h c (by simp [cells])]

theorem foldl_visits_all {σ : Type*} (T : Octree κ β) (visit : σ → Ref κ β → σ) (s : σ)
    (cell : ∀ c ∈ T.cells, ∀ s, visit s (.cell c) = s) :
    (T.visits fun _ => true).foldl visit s = T.leaves.foldl (fun s b => visit s (.leaf b)) s := by
  induction T generalizing s with
  | empty => rfl
  | leaf b => rfl
  | cell c sub ih =>
      rw [visits, if_pos rfl, List.foldl_cons, cell c (by simp [cells]), leaves]
      have below : ∀ i, ∀ d ∈ (sub i).cells, d ∈ (Octree.cell c sub).cells := fun i d hd =>
        (mem_cells_cell c sub d).mpr (.inr ⟨i, hd⟩)
      generalize List.finRange 8 = l
      induction l generalizing s with
      | nil => rfl
      | cons i l ih' =>
          rw [List.flatMap_cons, List.flatMap_cons, List.foldl_append, List.foldl_append,
            ih i s fun d hd => cell d (below i d hd), ih']

theorem flatMap_update_perm {ι α γ : Type*} [DecidableEq ι] (l : List ι) (i : ι)
    (sub : ι → α) (f : α → List γ) (v : α) (xs : List γ) (nodup : l.Nodup) (hi : i ∈ l)
    (hv : (f v).Perm (xs ++ f (sub i))) :
    (l.flatMap fun j => f (Function.update sub i v j)).Perm
      (xs ++ l.flatMap fun j => f (sub j)) := by
  induction l with
  | nil => simp at hi
  | cons j l ih =>
      obtain ⟨hj, hl⟩ := List.nodup_cons.mp nodup
      simp only [List.flatMap_cons]
      by_cases hij : i = j
      · subst hij
        have rest : (l.flatMap fun k => f (Function.update sub i v k)) =
            l.flatMap fun k => f (sub k) := by
          apply List.flatMap_congr
          intro k hk
          have hki : k ≠ i := fun e => hj (by rwa [e] at hk)
          rw [Function.update_of_ne hki]
        rw [rest, Function.update_self, ← List.append_assoc]
        exact hv.append_right _
      · have tail := ih hl ((List.mem_cons.mp hi).resolve_left hij)
        rw [Function.update_of_ne (Ne.symm hij)]
        refine (tail.append_left _).trans ?_
        rw [← List.append_assoc, ← List.append_assoc]
        exact List.perm_append_comm.append_right _

theorem leaves_update (c : κ) (sub : Fin 8 → Octree κ β) (i : Fin 8) (T : Octree κ β)
    (xs : List β) (h : T.leaves.Perm (xs ++ (sub i).leaves)) :
    (cell c (Function.update sub i T)).leaves.Perm (xs ++ (cell c sub).leaves) :=
  flatMap_update_perm _ i sub leaves T xs (List.nodup_finRange 8) (List.mem_finRange i) h

theorem cells_update (c : κ) (sub : Fin 8 → Octree κ β) (i : Fin 8) (T : Octree κ β)
    (xs : List κ) (h : T.cells.Perm (xs ++ (sub i).cells)) :
    (cell c (Function.update sub i T)).cells.Perm (xs ++ (cell c sub).cells) := by
  have below := flatMap_update_perm _ i sub cells T xs (List.nodup_finRange 8)
    (List.mem_finRange i) h
  exact (below.cons c).trans List.perm_middle.symm

@[simp] theorem leaves_bare (c : κ) : (cell c fun _ => (empty : Octree κ β)).leaves = [] := by
  simp [leaves]

@[simp] theorem cells_bare (c : κ) : (cell c fun _ => (empty : Octree κ β)).cells = [c] := by
  simp [cells]

private theorem nodup_flatMap_slots {γ : Type*} (f : Fin 8 → List γ) :
    ((List.finRange 8).flatMap f).Nodup ↔ (∀ i, (f i).Nodup) ∧
      ∀ i j, i ≠ j → List.Disjoint (f i) (f j) := by
  rw [List.nodup_flatMap]
  simp only [List.mem_finRange, true_implies]
  refine and_congr_right fun _ => ⟨fun h i j hij => ?_, fun h => ?_⟩
  · have : Std.Symm fun i j => List.Disjoint (f i) (f j) := ⟨fun _ _ d _ hj hi => d hi hj⟩
    exact h.forall (List.mem_finRange i) (List.mem_finRange j) hij
  · exact (List.nodup_finRange 8).imp fun hij => h _ _ hij

theorem nodup_cells_cell (c : κ) (sub : Fin 8 → Octree κ β) :
    (cell c sub).cells.Nodup ↔ (∀ i, c ∉ (sub i).cells) ∧ (∀ i, (sub i).cells.Nodup) ∧
      ∀ i j, i ≠ j → List.Disjoint (sub i).cells (sub j).cells := by
  rw [cells, List.nodup_cons, nodup_flatMap_slots]
  simp

theorem nodup_leaves_cell (c : κ) (sub : Fin 8 → Octree κ β) :
    (cell c sub).leaves.Nodup ↔ (∀ i, (sub i).leaves.Nodup) ∧
      ∀ i j, i ≠ j → List.Disjoint (sub i).leaves (sub j).leaves := by
  rw [leaves, nodup_flatMap_slots]

theorem everywhere_of_notMem {opens : κ → Bool} {b : β} {T : Octree κ β} (out : b ∉ T.leaves) :
    T.Everywhere fun c sub => b ∈ (cell c sub).leaves → opens c = true := by
  induction T with
  | empty => trivial
  | leaf a => trivial
  | cell c sub ih =>
      refine ⟨fun mem => absurd mem out, fun i => ih i fun mem => out ?_⟩
      exact (mem_leaves_cell c sub b).mpr ⟨i, mem⟩

theorem leaf_mem_visits_iff (opens : κ → Bool) (T : Octree κ β) (b : β) (nodup : T.leaves.Nodup) :
    .leaf b ∈ T.visits opens ↔
      b ∈ T.leaves ∧ T.Everywhere fun c sub => b ∈ (cell c sub).leaves → opens c = true := by
  induction T with
  | empty => simp [visits, leaves]
  | leaf a => simp [visits, leaves, Everywhere]
  | cell c sub ih =>
      obtain ⟨each, apart⟩ := (nodup_leaves_cell c sub).mp nodup
      rw [visits, List.mem_cons, or_iff_right (by simp), mem_leaves_cell]
      constructor
      · intro mem
        have opened : opens c = true := by
          by_contra closed
          rw [if_neg closed] at mem
          cases mem
        rw [if_pos opened] at mem
        obtain ⟨i, -, mem⟩ := List.mem_flatMap.mp mem
        obtain ⟨here, below⟩ := (ih i (each i)).mp mem
        refine ⟨⟨i, here⟩, fun _ => opened, fun j => ?_⟩
        by_cases same : j = i
        · rw [same]
          exact below
        · exact everywhere_of_notMem fun there => apart j i same there here
      · rintro ⟨⟨i, here⟩, opened, below⟩
        rw [if_pos (opened ((mem_leaves_cell c sub b).mpr ⟨i, here⟩))]
        exact List.mem_flatMap.mpr ⟨i, List.mem_finRange i, (ih i (each i)).mpr ⟨here, below i⟩⟩

end Octree

structure Links (κ β : Type*) where
  nextLeaf : β → Ref κ β
  nextCell : κ → Ref κ β
  more : κ → Ref κ β

namespace Links
open Octree

variable {κ β σ : Type*} (L L' : Links κ β)

/-- The links of `T` are its threading with successor `n`: a node's next is the
node after its subtree, a cell's more is its first child. -/
def Threaded : Octree κ β → Ref κ β → Prop
  | .empty, _ => True
  | .leaf b, n => L.nextLeaf b = n
  | .cell c sub, n => L.nextCell c = n ∧ L.more c = entries ((List.finRange 8).map sub) n ∧
      ∀ i : Fin 8, Threaded (sub i) (entries (((List.finRange 8).map sub).drop (i + 1)) n)

def ThreadedForest : List (Octree κ β) → Ref κ β → Prop
  | [], _ => True
  | T :: Ts, n => L.Threaded T (entries Ts n) ∧ ThreadedForest Ts n

theorem threadedForest_iff (Ts : List (Octree κ β)) (n : Ref κ β) :
    L.ThreadedForest Ts n ↔
      ∀ j (h : j < Ts.length), L.Threaded Ts[j] (entries (Ts.drop (j + 1)) n) := by
  induction Ts with
  | nil => simp [ThreadedForest]
  | cons T Ts ih =>
      rw [ThreadedForest, ih]
      constructor
      · rintro ⟨hT, hTs⟩ j hj
        cases j with
        | zero => simpa using hT
        | succ j => simpa using hTs j (by simpa using hj)
      · intro h
        exact ⟨h 0 (by simp), fun j hj => h (j + 1) (by simpa using hj)⟩

theorem threaded_cell (c : κ) (sub : Fin 8 → Octree κ β) (n : Ref κ β) :
    L.Threaded (.cell c sub) n ↔ L.nextCell c = n ∧
      L.more c = entries ((List.finRange 8).map sub) n ∧
      L.ThreadedForest ((List.finRange 8).map sub) n := by
  rw [Threaded, threadedForest_iff]
  refine and_congr_right fun _ => and_congr_right fun _ => ⟨fun h j hj => ?_, fun h i => ?_⟩
  · have hj' : j < 8 := by simpa using hj
    simpa using h ⟨j, hj'⟩
  · simpa using h i (by simp)

variable {L L'} in
theorem Threaded.congr {T : Octree κ β} {n : Ref κ β}
    (hleaf : ∀ b ∈ T.leaves, L'.nextLeaf b = L.nextLeaf b)
    (hcell : ∀ c ∈ T.cells, L'.nextCell c = L.nextCell c ∧ L'.more c = L.more c)
    (h : L.Threaded T n) : L'.Threaded T n := by
  induction T generalizing n with
  | empty => trivial
  | leaf b => rw [Threaded, hleaf b (by simp [leaves])]; exact h
  | cell c sub ih =>
      obtain ⟨hn, hm, hs⟩ := h
      have hc := hcell c (by simp [cells])
      refine ⟨hc.1.trans hn, hc.2.trans hm, fun i => ih i ?_ ?_ (hs i)⟩
      · exact fun b hb => hleaf b ((mem_leaves_cell c sub b).mpr ⟨i, hb⟩)
      · exact fun x hx => hcell x ((mem_cells_cell c sub x).mpr (.inr ⟨i, hx⟩))

/-- Scan from a reference: more of an opened cell, next of any other node, with
`none` for a scan that follows a reference never set or runs out of fuel. -/
def walk (opens : κ → Bool) (visit : σ → Ref κ β → σ) : ℕ → Ref κ β → σ → Option σ
  | 0, _, _ => none
  | _ + 1, .null, s => some s
  | _ + 1, .wild, _ => none
  | fuel + 1, .leaf b, s => walk opens visit fuel (L.nextLeaf b) (visit s (.leaf b))
  | fuel + 1, .cell c, s =>
      walk opens visit fuel (if opens c then L.more c else L.nextCell c) (visit s (.cell c))

variable (opens : κ → Bool) (visit : σ → Ref κ β → σ)

theorem walk_add {fuel : ℕ} {p : Ref κ β} {s r : σ} (k : ℕ)
    (h : L.walk opens visit fuel p s = some r) : L.walk opens visit (fuel + k) p s = some r := by
  induction fuel generalizing p s with
  | zero => simp [walk] at h
  | succ fuel ih =>
      rw [Nat.add_right_comm]
      cases p with
      | null => exact h
      | wild => simp [walk] at h
      | leaf b => exact ih h
      | cell c => exact ih h

private theorem walk_forest (Ts : List (Octree κ β)) (n : Ref κ β) (fuel : ℕ) (s : σ)
    (each : ∀ T ∈ Ts, ∀ (m : Ref κ β) (k : ℕ) (r : σ), L.Threaded T m →
      L.walk opens visit ((T.visits opens).length + k) (T.entry m) r =
        L.walk opens visit k m ((T.visits opens).foldl visit r))
    (h : L.ThreadedForest Ts n) :
    L.walk opens visit ((Ts.flatMap fun T => T.visits opens).length + fuel) (entries Ts n) s =
      L.walk opens visit fuel n ((Ts.flatMap fun T => T.visits opens).foldl visit s) := by
  induction Ts generalizing s with
  | nil => simp [entries]
  | cons T Ts ih =>
      obtain ⟨hT, hTs⟩ := h
      rw [List.flatMap_cons, List.length_append, Nat.add_assoc, entries,
        each T (by simp) _ _ _ hT, List.foldl_append]
      exact ih _ (fun U hU => each U (by simp [hU])) hTs

theorem walk_threaded (T : Octree κ β) (n : Ref κ β) (fuel : ℕ) (s : σ) (h : L.Threaded T n) :
    L.walk opens visit ((T.visits opens).length + fuel) (T.entry n) s =
      L.walk opens visit fuel n ((T.visits opens).foldl visit s) := by
  induction T generalizing n fuel s with
  | empty => simp [visits, entry]
  | leaf b =>
      rw [visits, entry, List.length_singleton, Nat.add_comm, walk, h]
      rfl
  | cell c sub ih =>
      obtain ⟨hn, hm, hs⟩ := (L.threaded_cell c sub n).mp h
      rw [visits, entry, List.length_cons, Nat.add_right_comm, walk, List.foldl_cons]
      by_cases ho : opens c
      · have forest := walk_forest L opens visit ((List.finRange 8).map sub) n fuel
          (visit s (.cell c)) (by
            intro U hU
            obtain ⟨i, -, rfl⟩ := List.mem_map.mp hU
            exact fun m k r => ih i m k r) hs
        rw [List.flatMap_map] at forest
        rw [if_pos ho, if_pos ho, hm]
        exact forest
      · rw [if_neg ho, if_neg ho, hn, List.length_nil, Nat.zero_add]
        rfl

theorem walk_threaded_null (T : Octree κ β) (fuel : ℕ) (s r : σ) (h : L.Threaded T .null)
    (run : L.walk opens visit fuel (T.entry .null) s = some r) :
    r = (T.visits opens).foldl visit s := by
  have more := L.walk_add opens visit ((T.visits opens).length + 1) run
  have all := L.walk_threaded opens visit T .null (fuel + 1) s h
  rw [show fuel + ((T.visits opens).length + 1) = (T.visits opens).length + (fuel + 1) by omega,
    all, walk, Option.some.injEq] at more
  exact more.symm

end Links

end MilkyWay.Foundation
