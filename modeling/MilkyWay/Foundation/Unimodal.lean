import Mathlib

/-! Functions with one peak. The values at two points tell on which side of one of them the
peak lies; four points around it, with the greater value at an inner one, give four closer
ones. -/

namespace MilkyWay.Foundation

variable {α β : Type*} [LinearOrder α]

/-- A function that rises strictly up to a point of an interval and falls strictly after it. -/
structure StrictlyUnimodal [Preorder β] (f : α → β) (l u peak : α) : Prop where
  inside : peak ∈ Set.Icc l u
  rising : StrictMonoOn f (Set.Icc l peak)
  falling : StrictAntiOn f (Set.Icc peak u)

structure Bracketed (l u peak x0 x1 x2 x3 : α) : Prop where
  first : l ≤ x0
  x0_lt_x1 : x0 < x1
  x1_lt_x2 : x1 < x2
  x2_lt_x3 : x2 < x3
  last : x3 ≤ u
  peak_mem : peak ∈ Set.Icc x0 x3

namespace StrictlyUnimodal

variable [Preorder β] {f : α → β} {l u peak x y : α}

theorem le_peak (unimodal : StrictlyUnimodal f l u peak) (inside : x ∈ Set.Icc l u) :
    f x ≤ f peak := by
  obtain ⟨first, last⟩ := unimodal.inside
  rcases le_total x peak with before | after
  · exact unimodal.rising.monotoneOn ⟨inside.1, before⟩ ⟨first, le_rfl⟩ before
  · exact unimodal.falling.antitoneOn ⟨le_rfl, last⟩ ⟨after, inside.2⟩ after

theorem lt_peak (unimodal : StrictlyUnimodal f l u peak) (last : y ≤ u) (less : x < y)
    (rises : f x < f y) : x < peak := by
  by_contra before
  have after := not_lt.mp before
  have falls := unimodal.falling ⟨after, less.le.trans last⟩ ⟨after.trans less.le, last⟩ less
  exact falls.not_gt rises

theorem peak_lt (unimodal : StrictlyUnimodal f l u peak) (first : l ≤ x) (less : x < y)
    (falls : ¬f x < f y) : peak < y := by
  by_contra after
  have before := not_lt.mp after
  exact falls (unimodal.rising ⟨first, less.le.trans before⟩ ⟨first.trans less.le, before⟩ less)

end StrictlyUnimodal

namespace Bracketed

variable [Preorder β] {f : α → β} {l u peak x0 x1 x2 x3 y : α}

theorem right (points : Bracketed l u peak x0 x1 x2 x3)
    (unimodal : StrictlyUnimodal f l u peak) (rises : f x1 < f x2) (above : x2 < y)
    (below : y < x3) : Bracketed l u peak x1 x2 y x3 where
  first := points.first.trans points.x0_lt_x1.le
  x0_lt_x1 := points.x1_lt_x2
  x1_lt_x2 := above
  x2_lt_x3 := below
  last := points.last
  peak_mem := by
    have inside := points.x2_lt_x3.le.trans points.last
    exact ⟨(unimodal.lt_peak inside points.x1_lt_x2 rises).le, points.peak_mem.2⟩

theorem left (points : Bracketed l u peak x0 x1 x2 x3)
    (unimodal : StrictlyUnimodal f l u peak) (falls : ¬f x1 < f x2) (above : x0 < y)
    (below : y < x1) : Bracketed l u peak x0 y x1 x2 where
  first := points.first
  x0_lt_x1 := above
  x1_lt_x2 := below
  x2_lt_x3 := points.x1_lt_x2
  last := points.x2_lt_x3.le.trans points.last
  peak_mem := by
    have inside := points.first.trans points.x0_lt_x1.le
    exact ⟨points.peak_mem.1, (unimodal.peak_lt inside points.x1_lt_x2 falls).le⟩

end Bracketed

end MilkyWay.Foundation
