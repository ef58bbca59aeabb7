import MilkyWay.Foundation.Insertion

/-! The cells within an octree, each with its slots, the leaves below one of them, and what holds of
the cells level by level from the deepest ones up. -/

namespace MilkyWay.Foundation.Octree

variable {κ β : Type*}

/-- The cell `c` with the slots `sub` is one of the tree. -/
inductive Within : κ → (Fin 8 → Octree κ β) → Octree κ β → Prop
  | here (c : κ) (sub : Fin 8 → Octree κ β) : Within c sub (.cell c sub)
  | inner (d c : κ) (above sub : Fin 8 → Octree κ β) (i : Fin 8) (h : Within c sub (above i)) :
      Within c sub (.cell d above)

theorem exists_within {T : Octree κ β} {c : κ} (mem : c ∈ T.cells) : ∃ sub, Within c sub T := by
  induction T with
  | empty => cases mem
  | leaf b => cases mem
  | cell d sub ih =>
      rcases (mem_cells_cell d sub c).mp mem with rfl | ⟨i, below⟩
      · exact ⟨sub, .here c sub⟩
      · obtain ⟨inner, within⟩ := ih i below
        exact ⟨inner, .inner d c sub inner i within⟩

namespace Within

variable {T : Octree κ β} {c d : κ} {sub inner : Fin 8 → Octree κ β}
  {φ : κ → (Fin 8 → Octree κ β) → Prop}

theorem holds (h : Within c sub T) (all : T.Everywhere φ) : φ c sub := by
  induction h with
  | here c sub => exact all.1
  | inner d c above sub i h ih => exact ih (all.2 i)

theorem down (h : Within c sub T) {i : Fin 8} (cell : sub i = .cell d inner) :
    Within d inner T := by
  induction h with
  | here c sub => exact .inner c d sub inner i (by rw [cell]; exact .here d inner)
  | inner a c above sub l h ih => exact .inner a d above inner l (ih cell)

theorem cells_sub (h : Within c sub T) {a : κ} (ha : a ∈ (Octree.cell c sub).cells) :
    a ∈ T.cells := by
  induction h with
  | here c sub => exact ha
  | inner d c above sub i h ih => exact (mem_cells_cell d above a).mpr (.inr ⟨i, ih ha⟩)

theorem leaves_sub (h : Within c sub T) {b : β} (hb : b ∈ (Octree.cell c sub).leaves) :
    b ∈ T.leaves := by
  induction h with
  | here c sub => exact hb
  | inner d c above sub i h ih => exact (mem_leaves_cell d above b).mpr ⟨i, ih hb⟩

theorem mem (h : Within c sub T) : c ∈ T.cells := h.cells_sub (by simp [cells])

end Within

/-! ## Levels -/

theorem Within.deepest_le {T : Octree κ β} {c : κ} {sub : Fin 8 → Octree κ β}
    (h : Within c sub T) : (Octree.cell c sub).deepest ≤ T.deepest := by
  induction h with
  | here c sub => exact le_rfl
  | inner d c above sub i h ih =>
      have cell : (above i).isCell := by
        cases slot : above i with
        | empty =>
            rw [slot] at h
            cases h
        | leaf b =>
            rw [slot] at h
            cases h
        | cell a below => rfl
      have below := (Octree.deepest_le d above _).mp le_rfl i cell
      omega

def Levels (T : Octree κ β) (φ : κ → Prop) (n : ℕ) : Prop :=
  ∀ c sub, Within c sub T → (cell c sub).deepest < n → φ c

theorem Levels.zero (T : Octree κ β) (φ : κ → Prop) : Levels T φ 0 :=
  fun _ _ _ less => absurd less (Nat.not_lt_zero _)

theorem Levels.succ {T : Octree κ β} {φ ψ : κ → Prop} {n : ℕ} (h : Levels T φ n)
    (next : ∀ c sub, Within c sub T → (∀ i d inner, sub i = cell d inner → φ d) → ψ c) :
    Levels T ψ (n + 1) := by
  refine fun c sub within less => next c sub within fun i d inner slot => ?_
  have below := (Octree.deepest_le c sub _).mp le_rfl i (by rw [slot]; rfl)
  rw [slot] at below
  exact h d inner (within.down slot) (by omega)

theorem Levels.all {T : Octree κ β} {φ : κ → Prop} {n : ℕ} (h : Levels T φ n)
    (deep : T.deepest < n) {c : κ} (mem : c ∈ T.cells) : φ c := by
  obtain ⟨sub, within⟩ := exists_within mem
  exact h c sub within (within.deepest_le.trans_lt deep)

/-! ## Leaves -/

variable [DecidableEq κ]

/-- The leaves below the cell `c`. -/
def under (c : κ) : Octree κ β → List β
  | empty => []
  | leaf _ => []
  | cell d sub =>
      if d = c then (cell d sub).leaves else (List.finRange 8).flatMap fun i => (sub i).under c

theorem under_of_notMem {c : κ} {T : Octree κ β} (h : c ∉ T.cells) : T.under c = [] := by
  induction T with
  | empty => rfl
  | leaf b => rfl
  | cell d sub ih =>
      rw [under, if_neg fun same => h (by simp [cells, same]), List.flatMap_eq_nil_iff]
      exact fun i _ => ih i fun mem => h ((mem_cells_cell d sub c).mpr (.inr ⟨i, mem⟩))

theorem flatMap_eq_of_others {ι α : Type*} {l : List ι} (f : ι → List α) {i : ι} (nodup : l.Nodup)
    (mem : i ∈ l) (others : ∀ j ∈ l, j ≠ i → f j = []) : l.flatMap f = f i := by
  obtain ⟨s, t, rfl⟩ := List.append_of_mem mem
  obtain ⟨-, right, apart⟩ := List.nodup_append.mp nodup
  have before : s.flatMap f = [] := List.flatMap_eq_nil_iff.mpr fun j hj =>
    others j (List.mem_append_left _ hj) (apart j hj i List.mem_cons_self)
  have after : t.flatMap f = [] := List.flatMap_eq_nil_iff.mpr fun j hj =>
    others j (List.mem_append_right _ (List.mem_cons_of_mem _ hj)) fun same =>
      (List.nodup_cons.mp right).1 (by rwa [← same])
  rw [List.flatMap_append, List.flatMap_cons, before, after, List.nil_append, List.append_nil]

theorem under_everywhere {T : Octree κ β} (nodup : T.cells.Nodup) :
    T.Everywhere fun c sub => T.under c = (cell c sub).leaves := by
  induction T with
  | empty => trivial
  | leaf b => trivial
  | cell d sub ih =>
      obtain ⟨apart, each, disjoint⟩ := (nodup_cells_cell d sub).mp nodup
      refine ⟨if_pos rfl, fun i => (ih i (each i)).imp fun c inner inside same => ?_⟩
      have mem : c ∈ (sub i).cells := inside c (by simp [cells])
      rw [under, if_neg fun here => apart i (by rw [here]; exact mem), ← same]
      refine flatMap_eq_of_others (fun j => (sub j).under c) (List.nodup_finRange 8)
        (List.mem_finRange i) fun j _ other => under_of_notMem fun there => ?_
      exact disjoint j i other there mem

end MilkyWay.Foundation.Octree
