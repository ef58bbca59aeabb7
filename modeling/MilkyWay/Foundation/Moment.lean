import MilkyWay.Foundation.Cube

/-! Second moments of weighted points: the moment about one point from the moment about
the centre of mass. -/

namespace MilkyWay.Foundation

variable {R V W β : Type*} [CommRing R] [AddCommGroup V] [Module R V] [AddCommGroup W] [Module R W]

/-- The sum of `m • Q (x - c)` over the points. -/
def secondMoment (Q : QuadraticMap R V W) (m : β → R) (x : β → V) (c : V) (l : List β) : W :=
  (l.map fun b => m b • Q (x b - c)).sum

@[simp] theorem secondMoment_nil (Q : QuadraticMap R V W) (m : β → R) (x : β → V) (c : V) :
    secondMoment Q m x c [] = 0 := rfl

@[simp] theorem secondMoment_cons (Q : QuadraticMap R V W) (m : β → R) (x : β → V) (c : V) (b : β)
    (l : List β) : secondMoment Q m x c (b :: l) = m b • Q (x b - c) + secondMoment Q m x c l := by
  simp [secondMoment]

theorem sum_smul_sub (m : β → R) (x : β → V) (c : V) (l : List β) :
    (l.map fun b => m b • (x b - c)).sum = (l.map fun b => m b • x b).sum - (l.map m).sum • c := by
  induction l with
  | nil => simp
  | cons b l ih =>
      rw [List.map_cons, List.sum_cons, ih]
      simp only [List.map_cons, List.sum_cons, smul_sub, add_smul]
      abel

theorem secondMoment_shift (Q : QuadraticMap R V W) (m : β → R) (x : β → V) (c a : V)
    (l : List β) : secondMoment Q m x a l = secondMoment Q m x c l + (l.map m).sum • Q (c - a) +
      QuadraticMap.polar Q (l.map fun b => m b • (x b - c)).sum (c - a) := by
  induction l with
  | nil => simp
  | cons b l ih =>
      have split : x b - a = x b - c + (c - a) := by abel
      simp only [secondMoment_cons, List.map_cons, List.sum_cons, ih, split,
        QuadraticMap.map_add Q, smul_add, add_smul, QuadraticMap.polar_add_left,
        QuadraticMap.polar_smul_left]
      abel

theorem secondMoment_steiner (Q : QuadraticMap R V W) (m : β → R) (x : β → V) (c a : V)
    (l : List β) (centre : (l.map m).sum • c = (l.map fun b => m b • x b).sum) :
    secondMoment Q m x a l = (l.map m).sum • Q (c - a) + secondMoment Q m x c l := by
  rw [secondMoment_shift Q m x c a l, sum_smul_sub, centre, sub_self, QuadraticMap.polar_zero_left,
    add_zero, add_comm]

end MilkyWay.Foundation
