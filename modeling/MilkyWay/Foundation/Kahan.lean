import Mathlib.Algebra.BigOperators.Group.List.Basic
import Mathlib.Algebra.Group.Basic
import Mathlib.Data.Rat.Floor
import Mathlib.Data.Int.Log
import Mathlib.Tactic.Abel

/-! Compensated sums: a sum with a correction. The two ways to add to one are stated for
any subtraction and addition, so that each of them may round. Where they are exact the
correction stays zero and the sum is the sum. -/

namespace MilkyWay.Foundation

structure Kahan (R : Type*) where
  sum : R
  correction : R
deriving DecidableEq

namespace Kahan

variable {R : Type*}

instance [Zero R] : Zero (Kahan R) := ⟨⟨0, 0⟩⟩

section
variable [Add R] [Sub R]

def add (k : Kahan R) (item : R) : Kahan R :=
  let y := item - k.correction
  let t := k.sum + y
  ⟨t, t - k.sum - y⟩

def reduction (inOut input : Kahan R) : Kahan R :=
  let correctedNextTerm := input.sum + (input.correction + inOut.correction)
  let newSum := inOut.sum + correctedNextTerm
  ⟨newSum, correctedNextTerm - (newSum - inOut.sum)⟩

/-- The sum stays what it is when the correction is added to it, and the correction is
found again. -/
def Absorbs [Zero R] (k : Kahan R) : Prop :=
  k.sum + (0 + (0 + k.correction)) = k.sum ∧
    0 + (0 + k.correction) - (k.sum - k.sum) = k.correction

instance [Zero R] [DecidableEq R] (k : Kahan R) : Decidable k.Absorbs :=
  inferInstanceAs (Decidable (_ ∧ _))

theorem reduction_zero [Zero R] {k : Kahan R} (absorbs : k.Absorbs) : k.reduction 0 = k := by
  obtain ⟨sum, correction⟩ := absorbs
  change Kahan.mk (k.sum + (0 + (0 + k.correction)))
    (0 + (0 + k.correction) - (k.sum + (0 + (0 + k.correction)) - k.sum)) = k
  rw [sum, correction]

end

/-! ## Exact arithmetic -/

section
variable [AddCommGroup R]

def Exact (k : Kahan R) : Prop := k.correction = 0

theorem exact_zero : (0 : Kahan R).Exact := rfl

@[simp] theorem zero_sum : (0 : Kahan R).sum = 0 := rfl

theorem Exact.add {k : Kahan R} (exact : k.Exact) (item : R) :
    (k.add item).Exact ∧ (k.add item).sum = k.sum + item := by
  have y : item - k.correction = item := by rw [exact, sub_zero]
  constructor
  · change k.sum + (item - k.correction) - k.sum - (item - k.correction) = 0
    abel
  · change k.sum + (item - k.correction) = k.sum + item
    rw [y]

theorem Exact.reduction {k input : Kahan R} (exact : k.Exact) (exact' : input.Exact) :
    (k.reduction input).Exact ∧ (k.reduction input).sum = k.sum + input.sum := by
  have term : input.sum + (input.correction + k.correction) = input.sum := by
    rw [exact, exact', add_zero, add_zero]
  constructor
  · change input.sum + (input.correction + k.correction) -
      (k.sum + (input.sum + (input.correction + k.correction)) - k.sum) = 0
    abel
  · change k.sum + (input.sum + (input.correction + k.correction)) = k.sum + input.sum
    rw [term]

end

end Kahan

/-! ## Numbers of a fixed precision -/

def nearestEven (x : ℚ) : ℤ :=
  let low := ⌊x⌋
  let rest := x - low
  if rest < 1 / 2 then low
  else if 1 / 2 < rest then low + 1
  else if low % 2 = 0 then low else low + 1

def roundDouble (x : ℚ) : ℚ :=
  if x = 0 then 0
  else
    let unit : ℚ := 2 ^ (Int.log 2 |x| - 52)
    nearestEven (x / unit) * unit

/-- Numbers whose operations are rounded to 53 binary digits. -/
structure Double where
  value : ℚ
deriving DecidableEq

namespace Double

instance : Zero Double := ⟨⟨0⟩⟩
instance : Add Double := ⟨fun x y => ⟨roundDouble (x.value + y.value)⟩⟩
instance : Neg Double := ⟨fun x => ⟨-x.value⟩⟩
instance : Sub Double := ⟨fun x y => ⟨roundDouble (x.value - y.value)⟩⟩
instance : Mul Double := ⟨fun x y => ⟨roundDouble (x.value * y.value)⟩⟩
instance : Div Double := ⟨fun x y => ⟨roundDouble (x.value / y.value)⟩⟩
instance : OfScientific Double := ⟨fun m s e => ⟨roundDouble (OfScientific.ofScientific m s e)⟩⟩
instance : NatCast Double := ⟨fun n => ⟨roundDouble n⟩⟩
instance : IntCast Double := ⟨fun n => ⟨roundDouble n⟩⟩
instance : LT Double := ⟨fun x y => x.value < y.value⟩
instance : LE Double := ⟨fun x y => x.value ≤ y.value⟩
instance : DecidableLT Double := fun x y => inferInstanceAs (Decidable (x.value < y.value))
instance : DecidableLE Double := fun x y => inferInstanceAs (Decidable (x.value ≤ y.value))

end Double

end MilkyWay.Foundation
