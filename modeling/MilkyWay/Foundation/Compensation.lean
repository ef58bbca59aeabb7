import MilkyWay.Foundation.Kahan

/-! Compensated sums in rounded arithmetic. Each addition and each subtraction gives the
exact result and an error. A sum that is made by additions of items and by merges has a
pair, and the pair is compared with the exact sum of the items: an addition leaves a
correction that is to be subtracted, a merge takes and leaves one that is to be added. -/

namespace MilkyWay.Foundation

structure Rounding (R : Type*) where
  addError : R → R → R
  subError : R → R → R

/-- Numbers whose operations make the errors of a rounding. -/
structure Rounded {R : Type*} (rounding : Rounding R) where
  value : R
deriving DecidableEq

/-- A sum with what has been put into it: items one after another, and other sums. -/
inductive Summation (N : Type*)
  | zero
  | add (s : Summation N) (item : N)
  | merge (s other : Summation N)

namespace Summation

section
variable {N : Type*} [Zero N] [Add N] [Sub N]

def kahan : Summation N → Kahan N
  | zero => 0
  | add s item => s.kahan.add item
  | merge s other => s.kahan.reduction other.kahan

def Makes (k : Kahan N) : Prop := ∃ s : Summation N, s.kahan = k

theorem makes_zero : Makes (0 : Kahan N) := ⟨zero, rfl⟩

theorem Makes.add {k : Kahan N} (made : Makes k) (item : N) : Makes (k.add item) := by
  obtain ⟨s, rfl⟩ := made
  exact ⟨s.add item, rfl⟩

theorem Makes.reduction {k other : Kahan N} (made : Makes k) (made' : Makes other) :
    Makes (k.reduction other) := by
  obtain ⟨s, rfl⟩ := made
  obtain ⟨s', rfl⟩ := made'
  exact ⟨s.merge s', rfl⟩

def ofItems (items : List N) : Summation N := items.foldl add zero

def Adds (n : ℕ) (k : Kahan N) : Prop :=
  ∃ items : List N, items.length = n ∧ (ofItems items).kahan = k

theorem adds_zero : Adds 0 (0 : Kahan N) := ⟨[], rfl, rfl⟩

theorem Adds.add {n : ℕ} {k : Kahan N} (adds : Adds n k) (item : N) :
    Adds (n + 1) (k.add item) := by
  obtain ⟨items, rfl, rfl⟩ := adds
  refine ⟨items ++ [item], List.length_append, ?_⟩
  rw [ofItems, List.foldl_append]
  rfl

end

section
variable {R : Type*} [AddCommGroup R] {rounding : Rounding R}

instance : Zero (Rounded rounding) := ⟨⟨0⟩⟩
instance : Add (Rounded rounding) :=
  ⟨fun x y => ⟨x.value + y.value + rounding.addError x.value y.value⟩⟩
instance : Sub (Rounded rounding) :=
  ⟨fun x y => ⟨x.value - y.value + rounding.subError x.value y.value⟩⟩

/-- The exact sum of the items. -/
def exact : Summation (Rounded rounding) → R
  | zero => 0
  | add s item => s.exact + item.value
  | merge s other => s.exact + other.exact

def sumError (k : Kahan (Rounded rounding)) (item : Rounded rounding) : R :=
  rounding.addError k.sum.value (item - k.correction).value

/-- The correction that an added item leaves is the error of its addition. -/
def Recovers : Summation (Rounded rounding) → Prop
  | zero => True
  | add s item => s.Recovers ∧ (s.kahan.add item).correction.value = sumError s.kahan item
  | merge s other => s.Recovers ∧ other.Recovers

instance decidableRecovers [DecidableEq R] :
    (s : Summation (Rounded rounding)) → Decidable s.Recovers
  | zero => inferInstanceAs (Decidable True)
  | add s _ =>
      have := decidableRecovers s
      inferInstanceAs (Decidable (_ ∧ _))
  | merge s other =>
      have := decidableRecovers s
      have := decidableRecovers other
      inferInstanceAs (Decidable (_ ∧ _))

structure MergeErrors (R : Type*) where
  corrections : R
  term : R
  sum : R
  difference : R
  left : R

def mergeErrors (inOut input : Kahan (Rounded rounding)) : MergeErrors R :=
  let corrections := input.correction + inOut.correction
  let correctedNextTerm := input.sum + corrections
  let newSum := inOut.sum + correctedNextTerm
  { corrections := rounding.addError input.correction.value inOut.correction.value
    term := rounding.addError input.sum.value corrections.value
    sum := rounding.addError inOut.sum.value correctedNextTerm.value
    difference := rounding.subError newSum.value inOut.sum.value
    left := rounding.subError correctedNextTerm.value (newSum - inOut.sum).value }

/-- What the corrections' own operations make of the sum: with an item the correction is
taken from it, with a merge the corrections are added and a new one is made. -/
def own : Summation (Rounded rounding) → R
  | zero => 0
  | add s item => s.own + rounding.subError item.value s.kahan.correction.value
  | merge s other =>
      let e := mergeErrors s.kahan other.kahan
      s.own + other.own + (e.corrections + e.term - e.difference + e.left)

/-- The correction in terms of the errors of the last operation. -/
def left : Summation (Rounded rounding) → R
  | zero => 0
  | add s item => sumError s.kahan item
  | merge s other =>
      let e := mergeErrors s.kahan other.kahan
      e.left - e.difference - e.sum

/-- What remains of errors when corrections are added: an item turns the sign of the
correction that was there and leaves one of the wrong sign. -/
def misread : Summation (Rounded rounding) → R
  | zero => 0
  | add s item => s.misread + 2 • (sumError s.kahan item - s.left)
  | merge s other => s.misread + other.misread

theorem value_reduction_sum (k other : Kahan (Rounded rounding)) :
    (k.reduction other).sum.value = k.sum.value + (other.sum.value + (other.correction.value +
      k.correction.value + (mergeErrors k other).corrections) + (mergeErrors k other).term) +
      (mergeErrors k other).sum := rfl

theorem value_reduction_correction (k other : Kahan (Rounded rounding)) :
    (k.reduction other).correction.value =
      (mergeErrors k other).left - (mergeErrors k other).difference -
        (mergeErrors k other).sum := by
  let term := other.sum + (other.correction + k.correction)
  have sum : (k.reduction other).sum.value =
    k.sum.value + term.value + (mergeErrors k other).sum := rfl
  have correction : (k.reduction other).correction.value = term.value -
    ((k.reduction other).sum.value - k.sum.value + (mergeErrors k other).difference) +
    (mergeErrors k other).left := rfl
  rw [correction, sum]
  abel

theorem correction_eq_left {s : Summation (Rounded rounding)} (recovers : s.Recovers) :
    s.kahan.correction.value = s.left := by
  cases s with
  | zero => rfl
  | add s item => exact recovers.2
  | merge s other => exact value_reduction_correction s.kahan other.kahan

theorem sum_add_correction {s : Summation (Rounded rounding)} (recovers : s.Recovers) :
    s.kahan.sum.value + s.kahan.correction.value = s.exact + s.own + s.misread := by
  induction s with
  | zero =>
      change (0 : R) + 0 = 0 + 0 + 0
      abel
  | add s item ih =>
      have before := ih recovers.1
      have correction := correction_eq_left recovers.1
      have sum : (s.add item).kahan.sum.value = s.kahan.sum.value + (item.value -
          s.kahan.correction.value + rounding.subError item.value s.kahan.correction.value) +
          sumError s.kahan item := rfl
      rw [show (s.add item).kahan.correction.value = _ from recovers.2, sum, exact, own, misread,
        ← correction]
      calc s.kahan.sum.value + (item.value - s.kahan.correction.value +
            rounding.subError item.value s.kahan.correction.value) + sumError s.kahan item +
            sumError s.kahan item
          = s.kahan.sum.value + s.kahan.correction.value + item.value +
            rounding.subError item.value s.kahan.correction.value +
            2 • (sumError s.kahan item - s.kahan.correction.value) := by abel
        _ = _ := by
          rw [before]
          abel
  | merge s other ih ih' =>
      have first := ih recovers.1
      have second := ih' recovers.2
      have both : (s.merge other).kahan.sum.value + (s.merge other).kahan.correction.value =
          s.kahan.sum.value + s.kahan.correction.value +
            (other.kahan.sum.value + other.kahan.correction.value) +
            ((mergeErrors s.kahan other.kahan).corrections +
              (mergeErrors s.kahan other.kahan).term -
              (mergeErrors s.kahan other.kahan).difference +
              (mergeErrors s.kahan other.kahan).left) := by
        rw [kahan, value_reduction_sum, value_reduction_correction]
        abel
      rw [both, first, second, exact, own, misread]
      abel

theorem sum_eq {s : Summation (Rounded rounding)} (recovers : s.Recovers) :
    s.kahan.sum.value = s.exact + s.own + (s.misread - s.left) := by
  rw [← add_sub_assoc, ← sum_add_correction recovers, correction_eq_left recovers,
    add_sub_cancel_right]

theorem misread_ofItems (items : List (Rounded rounding)) :
    (ofItems items).misread = 2 • (ofItems items).left := by
  have run : ∀ s : Summation (Rounded rounding), s.misread = 2 • s.left →
      (items.foldl add s).misread = 2 • (items.foldl add s).left := by
    induction items with
    | nil => exact fun s even => even
    | cons item items ih =>
        intro s even
        refine ih (s.add item) ?_
        rw [misread, even, left]
        abel
  exact run zero (nsmul_zero 2).symm

end

end Summation

end MilkyWay.Foundation
