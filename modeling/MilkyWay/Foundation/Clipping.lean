import Mathlib.Algebra.BigOperators.Group.List.Basic
import Mathlib.Algebra.Order.BigOperators.Group.List
import Mathlib.Algebra.Order.Field.Basic
import Mathlib.Tactic.FieldSimp
import Mathlib.Tactic.Ring

/-! Clipping: the values that are near the mean of those kept last are kept, and the
dispersion of those kept tells what is near, as long as they are enough. -/

namespace MilkyWay.Foundation

variable {F : Type*} [Field F]

def mean (l : List F) : F := l.sum / (l.length : F)

def sampleVariance (l : List F) : F :=
  (l.map fun x => (x - mean l) * (x - mean l)).sum / ((l.length : F) - 1)

theorem sum_sq_sub_mean (l : List F) (some_ : (l.length : F) ≠ 0) :
    (l.map fun x => (x - mean l) * (x - mean l)).sum =
      (l.map fun x => x * x).sum - l.length * (mean l * mean l) := by
  have expand : ∀ (c : F) (l : List F), (l.map fun x => (x - c) * (x - c)).sum =
      (l.map fun x => x * x).sum - 2 * c * l.sum + l.length * (c * c) := by
    intro c l
    induction l with
    | nil => simp
    | cons x l ih =>
        simp only [List.map_cons, List.sum_cons, List.length_cons, Nat.cast_succ, ih]
        ring
  have total : l.sum = l.length * mean l := (mul_div_cancel₀ _ some_).symm
  rw [expand, total]
  ring

theorem sampleVariance_eq (l : List F) (some_ : (l.length : F) ≠ 0) :
    sampleVariance l = (l.map fun x => x * x).sum / ((l.length : F) - 1) -
      (l.length : F) / ((l.length : F) - 1) * (mean l * mean l) := by
  rw [sampleVariance, sum_sq_sub_mean l some_]
  ring

variable [LinearOrder F]

theorem sampleVariance_nonneg [IsStrictOrderedRing F] (l : List F) (some_ : 1 ≤ l.length) :
    0 ≤ sampleVariance l := by
  refine div_nonneg (List.sum_nonneg fun y mem => ?_) ?_
  · obtain ⟨x, -, rfl⟩ := List.mem_map.mp mem
    exact mul_self_nonneg _
  · rw [sub_nonneg]
    exact_mod_cast some_

/-- The values that are kept, how many are not, and the dispersion of those that were kept
when there were last enough of them, with its error. -/
structure Clipped (F : Type*) where
  kept : List F
  removed : ℕ
  disp : F
  err : F

namespace Clipped

def near (sigma : F) (c : Clipped F) (x : F) : Bool :=
  decide (c.kept ≠ [] ∧ |mean c.kept - x| < sigma * c.disp)

def cut (values : List F) (sigma : F) (c : Clipped F) : Clipped F :=
  { c with kept := values.filter (c.near sigma), removed := values.countP (!c.near sigma ·) }

def measure (sqrt : F → F) (enough : ℕ) (factor : F) (c : Clipped F) : Clipped F :=
  if enough < c.kept.length then
    let n : F := c.kept.length
    let disp := sqrt (sampleVariance c.kept * factor)
    { c with disp, err := sqrt ((n + 1) / (n * (n - 1))) * disp }
  else c

theorem cut_length (values : List F) (sigma : F) (c : Clipped F) :
    (c.cut values sigma).kept.length + (c.cut values sigma).removed = values.length := by
  rw [cut, ← List.countP_eq_length_filter, List.length_eq_countP_add_countP (c.near sigma)]
  congr 1
  refine List.countP_congr fun x _ => ?_
  cases c.near sigma x <;> simp

omit [LinearOrder F] in
@[simp] theorem measure_kept (sqrt : F → F) (enough : ℕ) (factor : F) (c : Clipped F) :
    (c.measure sqrt enough factor).kept = c.kept := by
  rw [measure]
  split <;> rfl

omit [LinearOrder F] in
@[simp] theorem measure_removed (sqrt : F → F) (enough : ℕ) (factor : F) (c : Clipped F) :
    (c.measure sqrt enough factor).removed = c.removed := by
  rw [measure]
  split <;> rfl

end Clipped

end MilkyWay.Foundation
