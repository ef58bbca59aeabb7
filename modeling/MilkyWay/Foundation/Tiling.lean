import Mathlib

/-! Intervals that follow each other without a gap and without an overlap, and a walk along
points that ends at the first one past a bound. -/

namespace MilkyWay.Foundation

variable {α : Type*} [LinearOrder α] {a b c : α} {point : ℕ → α}

def Tiles (a : α) : List (α × α) → α → Prop
  | [], b => a = b
  | p :: l, b => p.1 = a ∧ p.1 < p.2 ∧ Tiles p.2 l b

theorem Tiles.end_unique {l : List (α × α)} (tiles : Tiles a l b) (tiles' : Tiles a l c) :
    b = c := by
  induction l generalizing a with
  | nil => exact tiles.symm.trans tiles'
  | cons p l ih => exact ih tiles.2.2 tiles'.2.2

def panelsFrom (point : ℕ → α) (k : ℕ) : ℕ → List (α × α)
  | 0 => []
  | n + 1 => (point k, point (k + 1)) :: panelsFrom point (k + 1) n

theorem tiles_panelsFrom (k n : ℕ)
    (rises : ∀ i, k ≤ i → i < k + n → point i < point (i + 1)) :
    Tiles (point k) (panelsFrom point k n) (point (k + n)) := by
  induction n generalizing k with
  | zero => simp [panelsFrom, Tiles]
  | succ n ih =>
      have rest := ih (k + 1) fun i first last => rises i (by omega) (by omega)
      rw [Nat.add_right_comm, Nat.add_assoc] at rest
      exact ⟨rfl, rises k (Nat.le_refl k) (by omega), rest⟩

omit [LinearOrder α] in
theorem length_panelsFrom (k n : ℕ) : (panelsFrom point k n).length = n := by
  induction n generalizing k with
  | zero => rfl
  | succ n ih => simp [panelsFrom, ih]

theorem point_lt {i k : ℕ} (rises : ∀ j < k, point j < point (j + 1)) (before : i < k) :
    point i < point k := by
  induction k with
  | zero => omega
  | succ k ih =>
      have step := rises k (by omega)
      by_cases last : i = k
      · rwa [last]
      · exact (ih (fun j lt => rises j (by omega)) (by omega)).trans step

theorem exists_first {k : ℕ} (positive : 0 < k) (past : b ≤ point k) :
    ∃ n < k, (∀ i, 0 < i → i < n + 1 → point i < b) ∧ b ≤ point (n + 1) := by
  induction k using Nat.strongRecOn with
  | _ k ih =>
      by_cases earlier : ∃ i, 0 < i ∧ i < k ∧ b ≤ point i
      · obtain ⟨i, after, before, reached⟩ := earlier
        obtain ⟨n, lt, first⟩ := ih i before after reached
        exact ⟨n, by omega, first⟩
      · obtain ⟨n, rfl⟩ := Nat.exists_eq_add_of_le' positive
        refine ⟨n, by omega, fun i after before => ?_, past⟩
        by_contra reached
        exact earlier ⟨i, after, before, not_lt.mp reached⟩

theorem first_eq {k : ℕ} (below : ∀ i, 0 < i → i < k → point i < b) (past : b ≤ point k) {i : ℕ}
    (positive : 0 < i) (rises : ∀ j < i, point j < point (j + 1)) (same : point i = b) :
    point k = b := by
  have late : k ≤ i := by
    by_contra early
    exact (below i positive (by omega)).ne same
  obtain last | before := Nat.eq_or_lt_of_le late
  · rwa [last]
  · exact absurd (point_lt rises before) (not_lt.mpr (same ▸ past))

end MilkyWay.Foundation
