import MilkyWay.Foundation.Subtree

/-! What is passed on from the root of an octree down, level by level. -/

namespace MilkyWay.Foundation

namespace Octree

variable {κ β : Type*}

/-- The cells on the first `n` levels. -/
def upper : ℕ → Octree κ β → List κ
  | 0, _ => []
  | _ + 1, empty => []
  | _ + 1, leaf _ => []
  | n + 1, cell c sub => c :: (List.finRange 8).flatMap fun i => (sub i).upper n

theorem mem_upper_cell {n : ℕ} {a c : κ} {sub : Fin 8 → Octree κ β} :
    c ∈ (cell a sub).upper (n + 1) ↔ c = a ∨ ∃ i, c ∈ (sub i).upper n := by
  simp [upper]

theorem mem_upper_of_deepest {n : ℕ} {T : Octree κ β} {c : κ} (deep : T.deepest < n)
    (mem : c ∈ T.cells) : c ∈ T.upper n := by
  induction n generalizing T with
  | zero => omega
  | succ n ih =>
      cases T with
      | empty => cases mem
      | leaf b => cases mem
      | cell a sub =>
          rw [mem_upper_cell]
          refine ((mem_cells_cell a sub c).mp mem).imp_right ?_
          rintro ⟨i, below⟩
          have inner : (sub i).isCell := by
            cases slot : sub i with
            | empty =>
                rw [slot] at below
                cases below
            | leaf b =>
                rw [slot] at below
                cases below
            | cell d next => rfl
          have less := (Octree.deepest_le a sub _).mp le_rfl i inner
          exact ⟨i, ih (by omega) below⟩

theorem upper_succ {n : ℕ} {T : Octree κ β} {d : κ} (mem : d ∈ T.upper (n + 1)) :
    (∃ sub, T = cell d sub) ∨ ∃ c sub i inner, Within c sub T ∧ c ∈ T.upper n ∧
      sub i = cell d inner := by
  induction n generalizing T with
  | zero =>
      cases T with
      | empty => cases mem
      | leaf b => cases mem
      | cell a sub =>
          rcases mem_upper_cell.mp mem with rfl | ⟨i, none⟩
          · exact .inl ⟨sub, rfl⟩
          · cases none
  | succ n ih =>
      cases T with
      | empty => cases mem
      | leaf b => cases mem
      | cell a sub =>
          rcases mem_upper_cell.mp mem with rfl | ⟨i, below⟩
          · exact .inl ⟨sub, rfl⟩
          · refine .inr ?_
            rcases ih below with ⟨inner, here⟩ | ⟨c, inner, j, next, within, above, slot⟩
            · exact ⟨a, sub, i, inner, .here a sub, mem_upper_cell.mpr (.inl rfl), here⟩
            · exact ⟨c, inner, j, next, .inner a c sub inner i within,
                mem_upper_cell.mpr (.inr ⟨i, above⟩), slot⟩

theorem exists_within_leaf {T : Octree κ β} {b : β} (mem : b ∈ T.leaves)
    (cell : T.isCell = true) : ∃ c sub i, Within c sub T ∧ sub i = leaf b := by
  induction T with
  | empty => cases mem
  | leaf a => cases cell
  | cell d sub ih =>
      obtain ⟨i, below⟩ := (mem_leaves_cell d sub b).mp mem
      cases slot : sub i with
      | empty =>
          rw [slot] at below
          cases below
      | leaf a =>
          rw [slot, leaves, List.mem_singleton] at below
          subst below
          exact ⟨d, sub, i, .here d sub, slot⟩
      | cell a inner =>
          obtain ⟨c, next, j, within, leaf⟩ := ih i below (by rw [slot]; rfl)
          exact ⟨c, next, j, .inner d c sub next i within, leaf⟩

end Octree

end MilkyWay.Foundation
