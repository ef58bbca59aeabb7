import Mathlib.Combinatorics.SimpleGraph.Acyclic
import Mathlib.Data.Fintype.Sum

/-! The graph of the marked cells of a matrix: its vertices are the rows and columns, and
a marked cell joins its row to its column. A spanning tree has one cell less than there
are rows and columns. -/

namespace MilkyWay.Foundation

open SimpleGraph

def cellGraph (m n : ℕ) (cell : ℕ → ℕ → Bool) : SimpleGraph (Fin m ⊕ Fin n) where
  Adj
    | .inl i, .inr j => cell i j = true
    | .inr j, .inl i => cell i j = true
    | _, _ => False
  symm := ⟨fun x y h => by
    cases x <;> cases y <;> exact h⟩
  loopless := ⟨fun x => by
    cases x <;> exact id⟩

def markedCells (m n : ℕ) (cell : ℕ → ℕ → Bool) : Finset (ℕ × ℕ) :=
  (Finset.range m ×ˢ Finset.range n).filter fun c => cell c.1 c.2

variable {m n : ℕ} {cell cell' : ℕ → ℕ → Bool} {i j : ℕ}

theorem mem_markedCells {c : ℕ × ℕ} :
    c ∈ markedCells m n cell ↔ c.1 < m ∧ c.2 < n ∧ cell c.1 c.2 = true := by
  simp [markedCells, and_assoc]

theorem card_edgeSet_cellGraph :
    Nat.card (cellGraph m n cell).edgeSet = (markedCells m n cell).card := by
  let edge : markedCells m n cell → (cellGraph m n cell).edgeSet := fun c =>
    ⟨s(.inl ⟨c.1.1, (mem_markedCells.mp c.2).1⟩, .inr ⟨c.1.2, (mem_markedCells.mp c.2).2.1⟩),
      (mem_markedCells.mp c.2).2.2⟩
  have bijective : Function.Bijective edge := by
    constructor
    · intro c c' same
      have ends := Subtype.ext_iff.mp same
      simp only [edge, Sym2.eq_iff, Sum.inl.injEq, Sum.inr.injEq, Fin.mk.injEq, reduceCtorEq,
        and_false, or_false] at ends
      exact Subtype.ext (Prod.ext ends.1 ends.2)
    · rintro ⟨e, adjacent⟩
      induction e with
      | h x y =>
          rw [mem_edgeSet] at adjacent
          rcases x with x | x <;> rcases y with y | y
          · exact adjacent.elim
          · exact ⟨⟨(x, y), mem_markedCells.mpr ⟨x.2, y.2, adjacent⟩⟩, rfl⟩
          · exact ⟨⟨(y, x), mem_markedCells.mpr ⟨y.2, x.2, adjacent⟩⟩, Subtype.ext Sym2.eq_swap⟩
          · exact adjacent.elim
  rw [← Nat.card_eq_of_bijective edge bijective, Nat.card_eq_fintype_card, Fintype.card_coe]

theorem cellGraph_isTree_iff :
    (cellGraph m n cell).IsTree ↔
      (cellGraph m n cell).Connected ∧ (markedCells m n cell).card + 1 = m + n := by
  rw [isTree_iff_connected_and_card, card_edgeSet_cellGraph, Nat.card_eq_fintype_card,
    Fintype.card_sum, Fintype.card_fin, Fintype.card_fin]

theorem cellGraph_adj (hi : i < m) (hj : j < n) (marked : cell i j = true) :
    (cellGraph m n cell).Adj (.inl ⟨i, hi⟩) (.inr ⟨j, hj⟩) := marked

theorem cellGraph_mono (more : ∀ i j, cell i j = true → cell' i j = true) :
    cellGraph m n cell ≤ cellGraph m n cell' := by
  intro x y adjacent
  rcases x with x | x <;> rcases y with y | y
  · exact adjacent.elim
  · exact more _ _ adjacent
  · exact more _ _ adjacent
  · exact adjacent.elim

theorem forall_of_closed (connected : (cellGraph m n cell).Connected) {P : Fin m ⊕ Fin n → Prop}
    {root : Fin m ⊕ Fin n} (start : P root)
    (row : ∀ (i : Fin m) (j : Fin n), cell i j = true → P (.inl i) → P (.inr j))
    (col : ∀ (i : Fin m) (j : Fin n), cell i j = true → P (.inr j) → P (.inl i))
    (x : Fin m ⊕ Fin n) : P x := by
  obtain ⟨walk⟩ := connected.preconnected root x
  induction walk with
  | nil => exact start
  | @cons x y z adjacent _ ih =>
      apply ih
      rcases x with x | x <;> rcases y with y | y
      · exact adjacent.elim
      · exact row x y adjacent start
      · exact col y x adjacent start
      · exact adjacent.elim

theorem connected_of_root (root : Fin m ⊕ Fin n)
    (reach : ∀ x, (cellGraph m n cell).Reachable root x) : (cellGraph m n cell).Connected :=
  (connected_iff_exists_forall_reachable _).mpr ⟨root, reach⟩

theorem connected_of_joined (connected : (cellGraph m n cell).Connected)
    (joined : ∀ (i : Fin m) (j : Fin n), cell i j = true →
      (cellGraph m n cell').Reachable (.inl i) (.inr j)) : (cellGraph m n cell').Connected := by
  obtain ⟨root⟩ := connected.nonempty
  refine connected_of_root root (forall_of_closed connected (.refl root) ?_ ?_)
  · exact fun i j marked reached => reached.trans (joined i j marked)
  · exact fun i j marked reached => reached.trans (joined i j marked).symm

end MilkyWay.Foundation
