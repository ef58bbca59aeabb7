import Mathlib.Tactic.Linarith
import Mathlib.Tactic.NormNum
import Mathlib.Tactic.Ring
import MilkyWay.Foundation.Run
import MilkyWay.Foundation.Unimodal
import MilkyWay.NBody.DwarfVelocity
import MilkyWay.NBody.TreeInvariant

/-! The search for a maximum by four points, with the counter of its loop. The values are
negated, so that the smaller of the two inner ones belongs to the greater value of the
profile, and the bracket is narrowed to the side of it. -/

namespace MilkyWay.NBody

open Foundation

section
variable {R : Type} [Add R] [Sub R] [Mul R] [OfScientific R] [Zero R] [Neg R] [LT R] [DecidableLT R]

/-- The points before the loop: the middle one is an inner point, the other inner point is
put into the wider side. -/
def maxStart (profile : R → R) (a b c : R) : MaxState R :=
  let RATIO := 0.61803399
  let RATIO_COMPLEMENT := 1.0 - RATIO
  let wide := mw_abs (b - a) < mw_abs (b - c)
  let x1 := if wide then b else b - RATIO_COMPLEMENT * (b - a)
  let x2 := if wide then b + RATIO_COMPLEMENT * (c - b) else b
  ⟨a, x1, x2, c, -profile x1, -profile x2⟩

def maxResult (s : MaxState R) : R :=
  if s.profile_x1 < s.profile_x2 then -s.profile_x1 else -s.profile_x2

/-- A turn of the loop, which ends by the width of the bracket or by the counter. -/
def maxTurn (profile : R → R) (tolerance : R) (limit : ℤ) :
    Turn (ℤ × MaxState R) (MaxState R) := fun (counter, s) =>
  some <|
    if tolerance * (mw_abs s.x1 + mw_abs s.x2) < mw_abs (s.x3 - s.x0) then
      if limit < counter + 1 then .inr (maxStep profile s)
      else .inl (counter + 1, maxStep profile s)
    else .inr s

theorem maxTurn_cases {profile : R → R} {tolerance : R} {limit counter : ℤ} {s : MaxState R}
    {x : (ℤ × MaxState R) ⊕ MaxState R}
    (turned : maxTurn profile tolerance limit (counter, s) = some x) :
    counter < limit ∧ x = .inl (counter + 1, maxStep profile s) ∨
      x = .inr (maxStep profile s) ∨ x = .inr s := by
  rw [maxTurn, Option.some.injEq] at turned
  split at turned
  · split at turned
    next last => exact .inr (.inl turned.symm)
    next more => exact .inl ⟨by omega, turned.symm⟩
  · exact .inr (.inr turned.symm)

theorem max_finder_eq (profile : R → R) (a b c : R) (limit : ℕ) (tolerance : R) :
    max_finder profile a b c limit tolerance =
      maxResult (maxLoop profile tolerance (limit + 1) (maxStart profile a b c)) := rfl

theorem maxTurn_run (profile : R → R) (tolerance : R) (limit : ℤ) (n : ℕ) (counter : ℤ)
    (s : MaxState R) (left : n = (limit - counter).toNat) :
    (maxTurn profile tolerance limit).run (n + 1) (counter, s) =
      some (maxLoop profile tolerance (n + 1) s) := by
  induction n generalizing counter s with
  | zero =>
      have last : limit < counter + 1 := by omega
      by_cases wide : tolerance * (mw_abs s.x1 + mw_abs s.x2) < mw_abs (s.x3 - s.x0)
      · have turned : maxTurn profile tolerance limit (counter, s) =
            some (.inr (maxStep profile s)) := by
          rw [maxTurn, if_pos wide, if_pos last]
        rw [Turn.run_ends turned, maxLoop, if_pos wide, maxLoop]
      · have turned : maxTurn profile tolerance limit (counter, s) = some (.inr s) := by
          rw [maxTurn, if_neg wide]
        rw [Turn.run_ends turned, maxLoop, if_neg wide]
  | succ n ih =>
      have more : ¬limit < counter + 1 := by omega
      by_cases wide : tolerance * (mw_abs s.x1 + mw_abs s.x2) < mw_abs (s.x3 - s.x0)
      · have turned : (maxTurn profile tolerance limit).GoesOn (counter, s)
            (counter + 1, maxStep profile s) := by
          rw [Turn.GoesOn, maxTurn, if_pos wide, if_neg more]
        rw [Turn.run_goesOn turned, maxLoop, if_pos wide]
        exact ih (counter + 1) (maxStep profile s) (by omega)
      · have turned : maxTurn profile tolerance limit (counter, s) = some (.inr s) := by
          rw [maxTurn, if_neg wide]
        rw [Turn.run_ends turned, maxLoop, if_neg wide]

theorem maxTurn_counter {profile : R → R} {tolerance : R} {limit counter : ℤ}
    {start s : MaxState R}
    (reaches : (maxTurn profile tolerance limit).Reaches (0, start) (counter, s)) :
    counter ≤ limit.toNat := by
  refine reaches.invariant (fun p => p.1 ≤ (limit.toNat : ℤ)) ?_ (Int.natCast_nonneg _)
  rintro ⟨counter, s⟩ ⟨next, t⟩ - goesOn
  obtain ⟨less, same⟩ | same | same := maxTurn_cases goesOn
  · cases same
    change counter + 1 ≤ (limit.toNat : ℤ)
    omega
  · cases same
  · cases same

end

section
variable {F : Type} [Field F] [LinearOrder F] [IsStrictOrderedRing F]
variable {profile : F → F} {a b c peak tolerance : F} {limit : ℤ} {s : MaxState F}

/-- The points of the search stand in order around the peak, and the values kept with the
inner ones are theirs. -/
structure MaxState.Brackets (profile : F → F) (a c peak : F) (s : MaxState F) : Prop where
  points : Bracketed a c peak s.x0 s.x1 s.x2 s.x3
  profile_x1 : s.profile_x1 = -profile s.x1
  profile_x2 : s.profile_x2 = -profile s.x2

theorem maxStart_brackets (unimodal : StrictlyUnimodal profile a c peak) (first : a < b)
    (last : b < c) : (maxStart profile a b c).Brackets profile a c peak := by
  refine ⟨?_, rfl, rfl⟩
  simp only [maxStart]
  split
  · refine ⟨le_rfl, first, ?_, ?_, le_rfl, unimodal.inside⟩
    · norm_num
      linarith
    · norm_num
      linarith
  · refine ⟨le_rfl, ?_, ?_, last, le_rfl, unimodal.inside⟩
    · norm_num
      linarith
    · norm_num
      linarith

theorem maxStep_brackets (unimodal : StrictlyUnimodal profile a c peak)
    (brackets : s.Brackets profile a c peak) :
    (maxStep profile s).Brackets profile a c peak := by
  obtain ⟨points, value1, value2⟩ := brackets
  have low := points.x0_lt_x1
  have high := points.x2_lt_x3
  simp only [maxStep, value1, value2, neg_lt_neg_iff]
  split
  next rises =>
    refine ⟨points.right unimodal rises ?_ ?_, rfl, rfl⟩
    · norm_num
      linarith
    · norm_num
      linarith
  next falls =>
    refine ⟨points.left unimodal falls ?_ ?_, rfl, rfl⟩
    · norm_num
      linarith
    · norm_num
      linarith

theorem maxTurn_brackets (unimodal : StrictlyUnimodal profile a c peak)
    (p : ℤ × MaxState F) (x : (ℤ × MaxState F) ⊕ MaxState F)
    (brackets : p.2.Brackets profile a c peak)
    (turned : maxTurn profile tolerance limit p = some x) :
    x.elim (fun q => q.2.Brackets profile a c peak) (MaxState.Brackets profile a c peak) := by
  have next := maxStep_brackets unimodal brackets
  obtain ⟨-, rfl⟩ | rfl | rfl := maxTurn_cases turned
  · exact next
  · exact next
  · exact brackets

omit [IsStrictOrderedRing F] in
theorem maxResult_mem (brackets : s.Brackets profile a c peak) :
    ∃ x ∈ Set.Icc s.x0 s.x3, maxResult s = profile x := by
  obtain ⟨points, value1, value2⟩ := brackets
  have first := points.x0_lt_x1.le
  have middle := points.x1_lt_x2.le
  have last := points.x2_lt_x3.le
  rw [maxResult, value1, value2, neg_neg, neg_neg]
  split
  · exact ⟨s.x1, ⟨first, middle.trans last⟩, rfl⟩
  · exact ⟨s.x2, ⟨first.trans middle, last⟩, rfl⟩

/-- The search for the maximum of a function with one peak keeps its points in order around
the peak at every turn, ends, and returns a value of the function in the last bracket. -/
theorem max_finder_brackets (unimodal : StrictlyUnimodal profile a c peak) (first : a < b)
    (last : b < c) (limit : ℤ) (tolerance : F) :
    (∀ counter s,
        (maxTurn profile tolerance limit).Reaches (0, maxStart profile a b c) (counter, s) →
          counter ≤ limit.toNat ∧ s.Brackets profile a c peak) ∧
      ∃ s, (maxTurn profile tolerance limit).run (limit.toNat + 1) (0, maxStart profile a b c) =
          some s ∧
        s.Brackets profile a c peak ∧
        ∃ x ∈ Set.Icc s.x0 s.x3,
          max_finder profile a b c limit.toNat tolerance = profile x ∧ profile x ≤ profile peak := by
  have start := maxStart_brackets unimodal first last
  have turns := maxTurn_run profile tolerance limit limit.toNat 0 (maxStart profile a b c) (by simp)
  refine ⟨fun counter s reaches => ⟨maxTurn_counter reaches, ?_⟩, _, turns, ?_⟩
  · refine reaches.invariant (fun p => p.2.Brackets profile a c peak) ?_ start
    exact fun p q brackets goesOn => maxTurn_brackets unimodal p (.inl q) brackets goesOn
  · have brackets := Turn.run_invariant (fun p => p.2.Brackets profile a c peak)
      (MaxState.Brackets profile a c peak) (maxTurn_brackets unimodal) start turns
    obtain ⟨x, inside, result⟩ := maxResult_mem brackets
    refine ⟨brackets, x, inside, ?_, unimodal.le_peak ?_⟩
    · rw [max_finder_eq, result]
    · exact ⟨brackets.points.first.trans inside.1, inside.2.trans brackets.points.last⟩

end

def hill (x : ℚ) : ℚ := x * (3 - x)

theorem hill_unimodal : StrictlyUnimodal hill 0 4 (3 / 2) where
  inside := by norm_num
  rising := by
    intro x inside y inside' less
    simp only [hill]
    nlinarith [inside.2, inside'.2]
  falling := by
    intro x inside y inside' less
    simp only [hill]
    nlinarith [inside.1, inside'.1]

/-- A hill whose top is not the middle point of the search. -/
theorem max_finder_brackets_hill :
    (∀ counter s,
        (maxTurn hill 1.0e-2 10).Reaches (0, maxStart hill 0 2 4) (counter, s) →
          counter ≤ (10 : ℤ).toNat ∧ s.Brackets hill 0 4 (3 / 2)) ∧
      ∃ s, (maxTurn hill 1.0e-2 10).run ((10 : ℤ).toNat + 1) (0, maxStart hill 0 2 4) = some s ∧
        s.Brackets hill 0 4 (3 / 2) ∧
        ∃ x ∈ Set.Icc s.x0 s.x3,
          max_finder hill 0 2 4 (10 : ℤ).toNat 1.0e-2 = hill x ∧ hill x ≤ hill (3 / 2) :=
  max_finder_brackets hill_unimodal (by norm_num) (by norm_num) 10 1.0e-2

end MilkyWay.NBody
