import Mathlib.Algebra.BigOperators.Intervals
import Mathlib.Algebra.Group.Prod

/-! Arrays whose elements may not be set, read and written two numbers at a time. -/

namespace MilkyWay.Foundation

variable {α : Type*}

abbrev Cells (α : Type*) := ℕ → Option α

namespace Cells

def unset : Cells α := fun _ => none

/-- The elements of an array of a length. -/
def ofLength (n : ℕ) (f : ℕ → α) : Cells α := fun i => if i < n then some (f i) else none

def loadTwo (a : Cells α) (i : ℕ) : Option (α × α) := do
  return (← a i, ← a (i + 1))

def storeTwo (size : ℕ) (a : Cells α) (i : ℕ) (v : α × α) : Option (Cells α) :=
  if i + 1 < size then
    some (Function.update (Function.update a i (some v.1)) (i + 1) (some v.2))
  else none

def Holds (f : ℕ → α) (n : ℕ) (a : Cells α) : Prop := ∀ i < n, a i = some (f i)

variable {f : ℕ → α} {a : Cells α} {n : ℕ}

theorem holds_zero : Holds f 0 a := fun _ lt => absurd lt (Nat.not_lt_zero _)

theorem holds_ofLength (n : ℕ) (f : ℕ → α) : Holds f n (ofLength n f) := fun _ lt => if_pos lt

theorem loadTwo_of_holds (holds : Holds f n a) {i : ℕ} (lt : i + 1 < n) :
    a.loadTwo i = some (f i, f (i + 1)) := by
  rw [loadTwo, holds i (Nat.lt_of_succ_lt lt), holds (i + 1) lt]
  rfl

theorem loadTwo_none {i : ℕ} (absent : a i = none) : a.loadTwo i = none := by
  rw [loadTwo, absent]
  rfl

theorem storeTwo_holds {size i : ℕ} (lt : i + 1 < size) (holds : Holds f i a) :
    ∃ a', storeTwo size a i (f i, f (i + 1)) = some a' ∧ Holds f (i + 2) a' := by
  refine ⟨_, if_pos lt, fun j before => ?_⟩
  rcases Nat.lt_succ_iff_lt_or_eq.mp before with before' | rfl
  · rw [Function.update_of_ne (by omega)]
    rcases Nat.lt_succ_iff_lt_or_eq.mp before' with before'' | rfl
    · rw [Function.update_of_ne (by omega), holds j before'']
    · rw [Function.update_self]
  · rw [Function.update_self]

end Cells

theorem sum_two_lanes [AddCommMonoid α] (f : ℕ → α) (m : ℕ) :
    ∑ i ∈ Finset.range m, f (2 * i) + ∑ i ∈ Finset.range m, f (2 * i + 1) =
      ∑ i ∈ Finset.range (2 * m), f i := by
  induction m with
  | zero => simp
  | succ m ih =>
      rw [Finset.sum_range_succ, Finset.sum_range_succ, Nat.mul_succ, Finset.sum_range_succ,
        Finset.sum_range_succ, ← ih, add_add_add_comm, ← add_assoc]

end MilkyWay.Foundation
