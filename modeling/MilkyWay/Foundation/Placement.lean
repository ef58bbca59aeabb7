import MilkyWay.Foundation.Cube
import MilkyWay.Foundation.Insertion

/-! Octrees placed in space: each cell stands at the centre of a cube, its slots are
the octants of the cube, and each leaf lies in the octant of its slot. -/

namespace MilkyWay.Foundation

namespace Octree

/-- The sum of a quantity over the leaves of a tree. -/
def total {κ β A : Type*} [AddCommMonoid A] (f : β → A) (T : Octree κ β) : A :=
  (T.leaves.map f).sum

theorem total_cell {κ β A : Type*} [AddCommMonoid A] (f : β → A) (c : κ)
    (sub : Fin 8 → Octree κ β) :
    (cell c sub).total f = ((List.finRange 8).map fun i => (sub i).total f).sum := by
  rw [total, leaves, List.map_flatMap, List.flatMap_def, List.sum_flatten, List.map_map]
  rfl

variable {κ β R : Type*} [Field R]

def EachCell (φ : Cube R → κ → Octree κ β → Prop) : Cube R → Octree κ β → Prop
  | _, .empty => True
  | _, .leaf _ => True
  | Q, .cell c sub => φ Q c (.cell c sub) ∧ ∀ i, EachCell φ (Q.octant i) (sub i)

variable {P P' : κ → Vec3 R} {x : β → Vec3 R} {φ ψ : Cube R → κ → Octree κ β → Prop}
  {Q : Cube R} {T : Octree κ β}

theorem EachCell.and (h : EachCell φ Q T) (h' : EachCell ψ Q T) :
    EachCell (fun Q c T => φ Q c T ∧ ψ Q c T) Q T := by
  induction T generalizing Q with
  | empty => trivial
  | leaf b => trivial
  | cell c sub ih => exact ⟨⟨h.1, h'.1⟩, fun i => ih i (h.2 i) (h'.2 i)⟩

theorem EachCell.imp (h : EachCell φ Q T)
    (himp : ∀ Q c T', c ∈ T.cells → φ Q c T' → ψ Q c T') : EachCell ψ Q T := by
  induction T generalizing Q with
  | empty => trivial
  | leaf b => trivial
  | cell c sub ih =>
      refine ⟨himp _ _ _ (by simp [cells]) h.1, fun i => ih i (h.2 i) ?_⟩
      exact fun Q d T' hd => himp Q d T' ((mem_cells_cell c sub d).mpr (.inr ⟨i, hd⟩))

theorem EachCell.everywhere {ψ : κ → (Fin 8 → Octree κ β) → Prop} (h : EachCell φ Q T)
    (himp : ∀ Q c sub, φ Q c (.cell c sub) → ψ c sub) : T.Everywhere ψ := by
  induction T generalizing Q with
  | empty => trivial
  | leaf b => trivial
  | cell c sub ih => exact ⟨himp Q c sub h.1, fun i => ih i (h.2 i)⟩

theorem eachCell_iff_everywhere {ψ : κ → Octree κ β → Prop} :
    T.EachCell (fun _ c U => ψ c U) Q ↔ T.Everywhere fun c sub => ψ c (.cell c sub) := by
  induction T generalizing Q with
  | empty => rfl
  | leaf b => rfl
  | cell c sub ih => exact and_congr_right fun _ => forall_congr' fun i => ih i

theorem EachCell.congr (h : EachCell (fun Q c T => φ Q c T ↔ ψ Q c T) Q T) :
    EachCell φ Q T ↔ EachCell ψ Q T :=
  ⟨fun each => (h.and each).imp fun _ _ _ _ here => here.1.mp here.2,
    fun each => (h.and each).imp fun _ _ _ _ here => here.1.mpr here.2⟩

theorem eachCell_leaves {φ : β → Prop} (h : ∀ b ∈ T.leaves, φ b) :
    T.EachCell (fun _ _ U => ∀ b ∈ U.leaves, φ b) Q := by
  induction T generalizing Q with
  | empty => trivial
  | leaf b => trivial
  | cell c sub ih =>
      exact ⟨h, fun i => ih i fun b hb => h b ((mem_leaves_cell c sub b).mpr ⟨i, hb⟩)⟩

theorem EachCell.forall {ψ : κ → Prop} {T : Octree κ β} {Q : Cube R}
    (h : EachCell (fun _ c _ => ψ c) Q T) : ∀ c ∈ T.cells, ψ c := by
  induction T generalizing Q with
  | empty => simp [cells]
  | leaf b => simp [cells]
  | cell d sub ih =>
      intro c hc
      rcases (mem_cells_cell d sub c).mp hc with rfl | ⟨i, hi⟩
      · exact h.1
      · exact ih i (h.2 i) c hi

variable [LinearOrder R]

/-- Cells at the centres of their cubes and leaves within the cubes of their slots. -/
def Placed (P : κ → Vec3 R) (x : β → Vec3 R) : Cube R → Octree κ β → Prop
  | _, .empty => True
  | Q, .leaf b => Q.Contains (x b)
  | Q, .cell c sub => P c = Q.center ∧ ∀ i, Placed P x (Q.octant i) (sub i)

theorem Placed.congr (h : Placed P x Q T) (hP : ∀ c ∈ T.cells, P' c = P c) :
    Placed P' x Q T := by
  induction T generalizing Q with
  | empty => trivial
  | leaf b => exact h
  | cell c sub ih =>
      refine ⟨(hP c (by simp [cells])).trans h.1, fun i => ih i (h.2 i) ?_⟩
      exact fun d hd => hP d ((mem_cells_cell c sub d).mpr (.inr ⟨i, hd⟩))

variable [IsStrictOrderedRing R]

theorem Placed.contains (h : Placed P x Q T) (b : β) (hb : b ∈ T.leaves) : Q.Contains (x b) := by
  induction T generalizing Q with
  | empty => simp [leaves] at hb
  | leaf a =>
      rw [leaves, List.mem_singleton] at hb
      rw [hb]
      exact h
  | cell c sub ih =>
      obtain ⟨i, hi⟩ := (mem_leaves_cell c sub b).mp hb
      exact Q.contains_of_octant i _ (ih i (h.2 i) hi)

theorem EachCell.contained {T : Octree κ β} {Q : Cube R}
    (h : EachCell (fun Q c _ => Q.Contains (P c)) Q T) (c : κ) (hc : c ∈ T.cells) :
    Q.Contains (P c) := by
  induction T generalizing Q with
  | empty => simp [cells] at hc
  | leaf b => simp [cells] at hc
  | cell d sub ih =>
      rcases (mem_cells_cell d sub c).mp hc with rfl | ⟨i, hi⟩
      · exact h.1
      · exact Q.contains_of_octant i _ (ih i (h.2 i) hi)

theorem total_nonneg {m : β → R} (h : ∀ b ∈ T.leaves, 0 ≤ m b) : 0 ≤ T.total m :=
  List.sum_nonneg fun a ha => by
    obtain ⟨b, hb, rfl⟩ := List.mem_map.mp ha
    exact h b hb

theorem total_pos {m : β → R} (h : ∀ b ∈ T.leaves, 0 < m b) (some_ : T.leaves ≠ []) :
    0 < T.total m := by
  refine List.sum_pos _ (fun a ha => ?_) (by simpa using some_)
  obtain ⟨b, hb, rfl⟩ := List.mem_map.mp ha
  exact h b hb

theorem moment_eq_zero {m : β → R} (h : ∀ b ∈ T.leaves, 0 ≤ m b) (hm : T.total m = 0) :
    (T.total fun b => m b • x b) = 0 := by
  rw [total] at hm ⊢
  generalize T.leaves = l at h hm
  induction l with
  | nil => rfl
  | cons b l ih =>
      rw [List.map_cons, List.sum_cons] at hm ⊢
      obtain ⟨hb, hl⟩ := List.forall_mem_cons.mp h
      have rest : 0 ≤ (l.map m).sum := List.sum_nonneg fun a ha => by
        obtain ⟨c, hc, rfl⟩ := List.mem_map.mp ha
        exact hl c hc
      have zero : m b = 0 ∧ (l.map m).sum = 0 := by
        constructor <;> linarith
      rw [zero.1, zero_smul, zero_add]
      exact ih hl zero.2

theorem Placed.eachCell (h : Placed P x Q T) :
    EachCell (fun Q _ T => ∀ b ∈ T.leaves, Q.Contains (x b)) Q T := by
  induction T generalizing Q with
  | empty => trivial
  | leaf b => trivial
  | cell c sub ih => exact ⟨h.contains, fun i => ih i (h.2 i)⟩

end Octree

/-! ## Parts of a cube -/

section
variable {κ β R : Type*} [Field R] [LinearOrder R]

inductive Cube.Part (x : β → Vec3 R) : Cube R → List β → Cube R → List β → Prop
  | whole (Q : Cube R) (l : List β) : Part x Q l Q l
  | octant (Q : Cube R) (l : List β) (i : Fin 8) (Q' : Cube R) (l' : List β)
      (deeper : Part x (Q.octant i) (l.filter fun b => Cube.octantOf Q.center (x b) = i) Q' l') :
      Part x Q l Q' l'

theorem Cube.Part.sublist {x : β → Vec3 R} {Q Q' : Cube R} {l l' : List β}
    (h : Cube.Part x Q l Q' l') : l'.Sublist l := by
  induction h with
  | whole Q l => exact List.Sublist.refl l
  | octant Q l i Q' l' deeper ih => exact ih.trans List.filter_sublist

theorem Cube.Part.size_pos [IsStrictOrderedRing R] {x : β → Vec3 R} {Q Q' : Cube R} {l l' : List β}
    (h : Cube.Part x Q l Q' l') (pos : 0 < Q.size) : 0 < Q'.size := by
  induction h with
  | whole Q l => exact pos
  | octant Q l i Q' l' deeper ih => exact ih (half_pos pos)

namespace Octree

theorem Placed.eachCell_iff_part [IsStrictOrderedRing R] {P : κ → Vec3 R} {x : β → Vec3 R}
    {Q : Cube R} {T : Octree κ β} {φ : Cube R → List β → Prop} (hT : Placed P x Q T)
    (sorts : T.Everywhere (Sorts fun c b => Cube.octantOf (P c) (x b))) (isCell : T.isCell)
    (perm : ∀ Q l l', l.Perm l' → φ Q l → φ Q l')
    (small : ∀ Q l, 0 < Q.size → l.length ≤ 1 → φ Q l) (pos : 0 < Q.size) {l : List β}
    (leaves : l.Perm T.leaves) :
    T.EachCell (fun Q _ U => φ Q U.leaves) Q ↔ ∀ Q' l', Cube.Part x Q l Q' l' → φ Q' l' := by
  induction T generalizing Q l with
  | empty => cases isCell
  | leaf b => cases isCell
  | cell c sub ih =>
      have parts : ∀ i, (l.filter fun b => Cube.octantOf Q.center (x b) = i).Perm
          (sub i).leaves := fun i => by
        rw [← leaves_filter sorts.1 i, ← hT.1]
        exact leaves.filter _
      have below : ∀ i, (sub i).EachCell (fun Q _ U => φ Q U.leaves) (Q.octant i) ↔
          ∀ Q' l', Cube.Part x (Q.octant i)
            (l.filter fun b => Cube.octantOf Q.center (x b) = i) Q' l' → φ Q' l' := by
        intro i
        by_cases cellBelow : (sub i).isCell
        · exact ih i (hT.2 i) (sorts.2 i) cellBelow (half_pos pos) (parts i)
        · have few : (sub i).leaves.length ≤ 1 := by
            cases hi : sub i with
            | empty => simp [Octree.leaves]
            | leaf b => simp [Octree.leaves]
            | cell d inner => simp [hi, Octree.isCell] at cellBelow
          refine iff_of_true ?_ fun Q' l' part => small Q' l' (part.size_pos (half_pos pos)) ?_
          · cases hi : sub i with
            | empty => trivial
            | leaf b => trivial
            | cell d inner => simp [hi, Octree.isCell] at cellBelow
          · exact part.sublist.length_le.trans ((parts i).length_eq.trans_le few)
      constructor
      · intro each Q' l' part
        cases part with
        | whole => exact perm _ _ _ leaves.symm each.1
        | octant _ _ i _ _ deeper => exact (below i).mp (each.2 i) Q' l' deeper
      · intro each
        refine ⟨perm _ _ _ leaves (each _ _ (.whole Q l)), fun i => (below i).mpr ?_⟩
        exact fun Q' l' part => each Q' l' (.octant Q l i Q' l' part)

end Octree

end

/-! ## Insertion -/

open Octree

variable {κ β R : Type*} [Field R] [LinearOrder R] [IsStrictOrderedRing R]

theorem Insertion.placed {P : κ → Vec3 R} {x : β → Vec3 R} {half : R → R}
    {Split : κ → β → R → κ → Prop} {Full : R → Prop} {b : β} {size : R} {T U : Octree κ β} {new : List κ}
    {lev : ℕ} {stored : Bool}
    (h : Insertion (fun c b => Cube.octantOf (P c) (x b)) half Split Full b size T U new lev
      stored)
    (hhalf : ∀ s, half s = s / 2)
    (hSplit : ∀ c s n, Split c b s n →
      P n = ((Cube.mk (P c) s).octant (Cube.octantOf (P c) (x b))).center)
    (Q : Cube R) (hQ : Q.size = size) (hT : Placed P x Q T) (hb : Q.Contains (x b)) :
    Placed P x Q U := by
  induction h generalizing Q with
  | stop size c sub full taken => exact hT
  | store size c sub empty =>
      refine ⟨hT.1, fun j => ?_⟩
      by_cases hj : j = Cube.octantOf (P c) (x b)
      · subst hj
        rw [Function.update_self, hT.1]
        exact Q.octantOf_contains _ hb
      · rw [Function.update_of_ne hj]
        exact hT.2 j
  | descend size c d sub below U new lev stored cell room deeper ih =>
      refine ⟨hT.1, fun j => ?_⟩
      by_cases hj : j = Cube.octantOf (P c) (x b)
      · subst hj
        rw [Function.update_self]
        refine ih _ (by rw [hhalf, ← hQ]; rfl) ?_ (by rw [hT.1]; exact Q.octantOf_contains _ hb)
        rw [← cell]
        exact hT.2 _
      · rw [Function.update_of_ne hj]
        exact hT.2 j
  | split size c n o sub U new lev stored leaf room made deeper ih =>
      refine ⟨hT.1, fun j => ?_⟩
      by_cases hj : j = Cube.octantOf (P c) (x b)
      · subst hj
        rw [Function.update_self]
        refine ih _ (by rw [hhalf, ← hQ]; rfl) ?_ (by rw [hT.1]; exact Q.octantOf_contains _ hb)
        have center : P n = (Q.octant (Cube.octantOf (P c) (x b))).center := by
          rw [hSplit c size n made, hT.1, ← hQ]
        have here : Placed P x (Q.octant (Cube.octantOf (P c) (x b))) (.leaf o) := by
          rw [← leaf]
          exact hT.2 _
        refine ⟨center, fun k => ?_⟩
        by_cases hk : k = Cube.octantOf (P n) (x o)
        · subst hk
          rw [Function.update_self, center]
          exact (Q.octant _).octantOf_contains _ here
        · rw [Function.update_of_ne hk]
          trivial
      · rw [Function.update_of_ne hj]
        exact hT.2 j

end MilkyWay.Foundation
