import MilkyWay.Foundation.Octree

/-! Insertion of a leaf into an octree. `Insertion` relates a tree to what a descent
for a leaf can leave of it: the leaf in the first empty slot on its way, with an
occupied slot split by a new cell, or a descent that gave up. What a descent keeps
is proved by induction on this relation. -/

namespace MilkyWay.Foundation

open Octree

variable {κ β σ : Type*}

/-- `Insertion slot half Split Full b size T U new lev stored`: the descent for `b` from
the root of `T`, a cell of the given size, makes the cells `new`, goes `lev` levels
down and leaves `U`; `Split c b size n` holds of a cell `n` made below `c`, and a descent
gives up at an occupied slot of a cell whose size is `Full`. -/
inductive Insertion (slot : κ → β → Fin 8) (half : σ → σ) (Split : κ → β → σ → κ → Prop)
    (Full : σ → Prop) (b : β) : σ → Octree κ β → Octree κ β → List κ → ℕ → Bool → Prop
  | stop (size : σ) (c : κ) (sub : Fin 8 → Octree κ β) (full : Full size)
      (taken : sub (slot c b) ≠ .empty) :
      Insertion slot half Split Full b size (.cell c sub) (.cell c sub) [] 0 false
  | store (size : σ) (c : κ) (sub : Fin 8 → Octree κ β) (h : sub (slot c b) = .empty) :
      Insertion slot half Split Full b size (.cell c sub)
        (.cell c (Function.update sub (slot c b) (.leaf b))) [] 0 true
  | descend (size : σ) (c d : κ) (sub below : Fin 8 → Octree κ β) (U : Octree κ β)
      (new : List κ) (lev : ℕ) (stored : Bool) (h : sub (slot c b) = .cell d below)
      (room : ¬Full size) (deeper : Insertion slot half Split Full b (half size) (.cell d below) U new lev stored) :
      Insertion slot half Split Full b size (.cell c sub)
        (.cell c (Function.update sub (slot c b) U)) new (lev + 1) stored
  | split (size : σ) (c n : κ) (o : β) (sub : Fin 8 → Octree κ β) (U : Octree κ β)
      (new : List κ) (lev : ℕ) (stored : Bool) (h : sub (slot c b) = .leaf o)
      (room : ¬Full size) (made : Split c b size n)
      (deeper : Insertion slot half Split Full b (half size)
        (.cell n (Function.update (fun _ => .empty) (slot n o) (.leaf o))) U new lev stored) :
      Insertion slot half Split Full b size (.cell c sub)
        (.cell c (Function.update sub (slot c b) U)) (n :: new) (lev + 1) stored

namespace Octree

theorem leaves_single (c : κ) (i : Fin 8) (o : β) :
    (cell c (Function.update (fun _ => empty) i (leaf o)) : Octree κ β).leaves = [o] := by
  have h := leaves_update c (fun _ => (empty : Octree κ β)) i (leaf o) [o] (by simp [leaves])
  rw [leaves_bare, List.append_nil] at h
  exact List.perm_singleton.mp h

theorem cells_single (c : κ) (i : Fin 8) (o : β) :
    (cell c (Function.update (fun _ => empty) i (leaf o)) : Octree κ β).cells = [c] := by
  have h := cells_update c (fun _ => (empty : Octree κ β)) i (leaf o) [] (by simp [cells])
  rw [cells_bare, List.nil_append] at h
  exact List.perm_singleton.mp h

theorem deepest_le (c : κ) (sub : Fin 8 → Octree κ β) (m : ℕ) :
    (cell c sub).deepest ≤ m ↔ ∀ i, (sub i).isCell → (sub i).deepest + 1 ≤ m := by
  have fold : ∀ l : List (Fin 8), l.foldr
      (fun i n => max (if (sub i).isCell then (sub i).deepest + 1 else 0) n) 0 ≤ m ↔
        ∀ i ∈ l, (sub i).isCell → (sub i).deepest + 1 ≤ m := by
    intro l
    induction l with
    | nil => simp
    | cons i l ih =>
        rw [List.foldr_cons, Nat.max_le, ih, List.forall_mem_cons]
        refine and_congr_left fun _ => ?_
        split <;> simp_all
  rw [deepest, fold]
  simp

theorem deepest_single (c : κ) (i : Fin 8) (o : β) :
    (cell c (Function.update (fun _ => empty) i (leaf o)) : Octree κ β).deepest = 0 := by
  refine Nat.le_zero.mp ((deepest_le c _ 0).mpr fun j hj => ?_)
  by_cases h : j = i
  · subst h
    simp [isCell] at hj
  · simp [Function.update_of_ne h, isCell] at hj

theorem deepest_update (c : κ) (sub : Fin 8 → Octree κ β) (i : Fin 8) (U : Octree κ β) (k : ℕ)
    (hU : U.isCell) (hk : U.deepest = max (if (sub i).isCell then (sub i).deepest else 0) k) :
    (cell c (Function.update sub i U)).deepest = max (cell c sub).deepest (k + 1) := by
  refine eq_of_forall_ge_iff fun m => ?_
  rw [Nat.max_le, deepest_le, deepest_le]
  constructor
  · intro h
    have hi := h i
    rw [Function.update_self] at hi
    have bound := hi hU
    refine ⟨fun j hj => ?_, by omega⟩
    by_cases hji : j = i
    · subst hji
      simp only [hj, if_true] at hk
      omega
    · simpa [Function.update_of_ne hji, hj] using h j
  · rintro ⟨h, bound⟩ j
    by_cases hji : j = i
    · subst hji
      rw [Function.update_self, hk]
      intro _
      by_cases hj : (sub j).isCell
      · have := h j hj
        simp only [hj, if_true]
        omega
      · simp only [hj, Bool.false_eq_true, if_false]
        omega
    · rw [Function.update_of_ne hji]
      exact h j

def Sorts (slot : κ → β → Fin 8) (c : κ) (sub : Fin 8 → Octree κ β) : Prop :=
  ∀ i, ∀ b ∈ (sub i).leaves, slot c b = i

theorem everywhere_sorts_congr {slot slot' : κ → β → Fin 8} {T : Octree κ β}
    (h : T.Everywhere (Sorts slot)) (same : ∀ c ∈ T.cells, ∀ b, slot' c b = slot c b) :
    T.Everywhere (Sorts slot') := by
  refine h.imp fun c sub inside sorts i b hb => ?_
  rw [same c (inside c (by simp [cells])) b]
  exact sorts i b hb

theorem everywhere_sorts_update {slot : κ → β → Fin 8} {c : κ} {sub : Fin 8 → Octree κ β}
    {i : Fin 8} {U : Octree κ β} (h : (cell c sub).Everywhere (Sorts slot))
    (belong : ∀ a ∈ U.leaves, slot c a = i) (hU : U.Everywhere (Sorts slot)) :
    (cell c (Function.update sub i U)).Everywhere (Sorts slot) := by
  refine ⟨fun j a ha => ?_, fun j => ?_⟩
  · by_cases hj : j = i
    · subst hj
      rw [Function.update_self] at ha
      exact belong a ha
    · rw [Function.update_of_ne hj] at ha
      exact h.1 j a ha
  · by_cases hj : j = i
    · subst hj
      rw [Function.update_self]
      exact hU
    · rw [Function.update_of_ne hj]
      exact h.2 j

theorem flatMap_single {ι γ : Type*} [DecidableEq ι] {l : List ι} {i : ι} (f : ι → List γ)
    (nodup : l.Nodup) (hi : i ∈ l) : (l.flatMap fun j => if j = i then f j else []) = f i := by
  induction l with
  | nil => cases hi
  | cons j l ih =>
      obtain ⟨hj, hl⟩ := List.nodup_cons.mp nodup
      rw [List.flatMap_cons]
      rcases List.mem_cons.mp hi with rfl | hi
      · have rest : (l.flatMap fun j => if j = i then f j else []) = [] := by
          rw [List.flatMap_eq_nil_iff]
          intro k hk
          have apart : k ≠ i := fun same => hj (by rwa [same] at hk)
          rw [if_neg apart]
        rw [if_pos rfl, rest, List.append_nil]
      · have apart : j ≠ i := fun same => hj (by rwa [← same] at hi)
        rw [if_neg apart, List.nil_append, ih hl hi]

theorem leaves_filter {slot : κ → β → Fin 8} {c : κ} {sub : Fin 8 → Octree κ β}
    (h : Sorts slot c sub) (i : Fin 8) :
    (cell c sub).leaves.filter (fun b => slot c b = i) = (sub i).leaves := by
  have each : ∀ j, (sub j).leaves.filter (fun b => slot c b = i) =
      if j = i then (sub j).leaves else [] := by
    intro j
    by_cases hj : j = i
    · subst hj
      rw [if_pos rfl, List.filter_eq_self]
      exact fun b hb => decide_eq_true (h j b hb)
    · rw [if_neg hj, List.filter_eq_nil_iff]
      intro b hb same
      exact hj ((h j b hb).symm.trans (of_decide_eq_true same))
  rw [leaves, List.filter_flatMap]
  simp only [each]
  exact flatMap_single _ (List.nodup_finRange 8) (List.mem_finRange i)

end Octree

namespace Insertion

variable {slot : κ → β → Fin 8} {half : σ → σ} {Split : κ → β → σ → κ → Prop} {Full : σ → Prop} {b : β}
  {size : σ} {T U : Octree κ β} {new : List κ} {lev : ℕ} {stored : Bool}

theorem isCell (h : Insertion slot half Split Full b size T U new lev stored) : U.isCell := by
  cases h <;> rfl

theorem leaves (h : Insertion slot half Split Full b size T U new lev stored) :
    U.leaves.Perm ((if stored then [b] else []) ++ T.leaves) := by
  induction h with
  | stop size c sub full taken => simp
  | store size c sub empty =>
      exact leaves_update c sub _ _ [b] (by simp [empty, Octree.leaves])
  | descend size c d sub below U new lev stored cell room deeper ih =>
      exact leaves_update c sub _ _ _ (by rw [cell]; exact ih)
  | split size c n o sub U new lev stored leaf room made deeper ih =>
      rw [leaves_single] at ih
      exact leaves_update c sub _ _ _ (by rw [leaf]; exact ih)

theorem cells (h : Insertion slot half Split Full b size T U new lev stored) :
    U.cells.Perm (new ++ T.cells) := by
  induction h with
  | stop size c sub full taken => simp
  | store size c sub empty =>
      exact cells_update c sub _ _ [] (by simp [empty, Octree.cells])
  | descend size c d sub below U new lev stored cell room deeper ih =>
      exact cells_update c sub _ _ _ (by rw [cell]; exact ih)
  | split size c n o sub U new lev stored leaf room made deeper ih =>
      rw [cells_single] at ih
      refine cells_update c sub _ _ _ ?_
      rw [leaf, Octree.cells, List.append_nil]
      exact ih.trans (List.perm_append_singleton n new)

theorem deepest (h : Insertion slot half Split Full b size T U new lev stored) (hs : stored = true) :
    U.deepest = max T.deepest lev := by
  induction h with
  | stop size c sub full taken => simp at hs
  | store size c sub empty =>
      rw [Nat.max_zero]
      refine eq_of_forall_ge_iff fun m => ?_
      rw [deepest_le, deepest_le]
      refine forall_congr' fun j => ?_
      by_cases hj : j = slot c b
      · subst hj
        simp [empty, Octree.isCell]
      · rw [Function.update_of_ne hj]
  | descend size c d sub below U new lev stored cell room deeper ih =>
      refine deepest_update c sub _ U lev deeper.isCell ?_
      rw [cell, ih hs]
      simp [Octree.isCell]
  | split size c n o sub U new lev stored leaf room made deeper ih =>
      refine deepest_update c sub _ U lev deeper.isCell ?_
      rw [leaf, ih hs, deepest_single]
      simp [Octree.isCell]

theorem leaves_ne_nil (h : Insertion slot half Split Full b size T U new lev stored)
    (hT : T.leaves ≠ []) : U.leaves ≠ [] := by
  intro none
  have perm := h.leaves
  rw [none] at perm
  exact hT (List.append_eq_nil_iff.mp (List.nil_perm.mp perm)).2

theorem grounded (h : Insertion slot half Split Full b size T U new lev stored) (hT : T.Grounded) :
    U.Grounded := by
  induction h with
  | stop size c sub full taken => exact hT
  | store size c sub empty =>
      intro j
      by_cases hj : j = slot c b
      · subst hj
        simp [Octree.isCell, Grounded]
      · rw [Function.update_of_ne hj]
        exact hT j
  | descend size c d sub below U new lev stored cell room deeper ih =>
      intro j
      by_cases hj : j = slot c b
      · subst hj
        have old := hT (slot c b)
        rw [cell] at old
        rw [Function.update_self]
        exact ⟨fun _ => deeper.leaves_ne_nil (old.1 rfl), ih old.2⟩
      · rw [Function.update_of_ne hj]
        exact hT j
  | split size c n o sub U new lev stored leaf room made deeper ih =>
      intro j
      by_cases hj : j = slot c b
      · subst hj
        rw [Function.update_self]
        refine ⟨fun _ => deeper.leaves_ne_nil (by simp [leaves_single]), ih fun k => ?_⟩
        by_cases hk : k = slot n o
        · subst hk
          simp [Octree.isCell, Grounded]
        · simp [Function.update_of_ne hk, Octree.isCell, Grounded]
      · rw [Function.update_of_ne hj]
        exact hT j

theorem mem_leaves (h : Insertion slot half Split Full b size T U new lev stored) {a : β}
    (ha : a ∈ U.leaves) : a = b ∨ a ∈ T.leaves := by
  rcases List.mem_append.mp (h.leaves.mem_iff.mp ha) with ha | ha
  · cases stored with
    | true => exact .inl (List.mem_singleton.mp ha)
    | false => cases ha
  · exact .inr ha

theorem sorted (h : Insertion slot half Split Full b size T U new lev stored)
    (hT : T.Everywhere (Sorts slot)) : U.Everywhere (Sorts slot) := by
  induction h with
  | stop size c sub full taken => exact hT
  | store size c sub empty =>
      refine everywhere_sorts_update hT (fun a ha => ?_) trivial
      rw [List.mem_singleton.mp ha]
  | descend size c d sub below U new lev stored cell room deeper ih =>
      have old := hT.2 (slot c b)
      rw [cell] at old
      refine everywhere_sorts_update hT (fun a ha => ?_) (ih old)
      rcases deeper.mem_leaves ha with rfl | ha
      · rfl
      · exact hT.1 _ a (by rw [cell]; exact ha)
  | split size c n o sub U new lev stored leaf room made deeper ih =>
      have bare : (Octree.cell n fun _ => (.empty : Octree κ β)).Everywhere (Sorts slot) :=
        ⟨fun _ _ none => absurd none List.not_mem_nil, fun _ => trivial⟩
      have alone : (Octree.cell n (Function.update (fun _ => .empty) (slot n o)
          (.leaf o))).Everywhere (Sorts slot) :=
        everywhere_sorts_update bare (fun a ha => by rw [List.mem_singleton.mp ha]) trivial
      refine everywhere_sorts_update hT (fun a ha => ?_) (ih alone)
      rcases deeper.mem_leaves ha with rfl | ha
      · rfl
      · rw [leaves_single] at ha
        exact hT.1 _ a (by rw [leaf]; exact ha)

end Insertion

end MilkyWay.Foundation
