import Mathlib.Order.Interval.Set.Defs
import Mathlib.Tactic.FieldSimp
import Mathlib.Tactic.IntervalCases
import Mathlib.Tactic.Linarith
import Mathlib.Tactic.NormNum
import Mathlib.Tactic.Ring
import MilkyWay.NBody.DwarfVelocity
import MilkyWay.NBody.TreeInvariant

/-! The search for a root by bisection, on a grid of five points. An interval of the grid is
searched where the function has strictly opposite signs at its ends; where every change of
sign has a zero of the grid in between, none is, and zero is returned. -/

namespace MilkyWay.NBody

section
variable {F : Type} [Field F] [LinearOrder F]

/-- The function is below the value at one end and above it at the other one. -/
def Brackets (func : F → F) (value l u : F) : Prop := func l < value ∧ value < func u

/-- A point of the interval at which the function is close to the value, or the middle of a
bracket that is left of a quarter of the interval after `n` bisections. -/
structure IsRoot (func : F → F) (value lower upper : F) (n : ℕ) (x : F) : Prop where
  inside : x ∈ Set.Icc lower upper
  root : |func x - value| ≤ 0.0001 ∨ ∃ l u, Brackets func value l u ∧
    |u - l| = (upper - lower) / 4 / 2 ^ n ∧ x = (l + u) / 2

open Foundation.Numerals in
def gridPoint (lower upper : F) (i : ℕ) : F := (upper - lower) * i / 4 + lower

variable [IsStrictOrderedRing F] {func : F → F} {value lower upper : F}

theorem gridPoint_mem (less : lower < upper) {i : ℕ} (inside : i ≤ 4) :
    gridPoint lower upper i ∈ Set.Icc lower upper := by
  have last : (i : F) ≤ 4 := by exact_mod_cast inside
  have first : (0 : F) ≤ i := by positivity
  have width : 0 < upper - lower := sub_pos.mpr less
  have above : (0 : F) ≤ (upper - lower) * i / 4 := by positivity
  have below : (upper - lower) * i / 4 ≤ upper - lower := by
    rw [div_le_iff₀ (by norm_num)]
    nlinarith
  rw [gridPoint]
  constructor
  · linarith
  · linarith

theorem gridPoint_width (less : lower < upper) (i : ℕ) :
    |gridPoint lower upper (i + 1) - gridPoint lower upper i| = (upper - lower) / 4 := by
  have step : gridPoint lower upper (i + 1) - gridPoint lower upper i = (upper - lower) / 4 := by
    simp only [gridPoint]
    push_cast
    ring
  rw [step, abs_of_pos]
  linarith

theorem bisect_isRoot (n : ℕ) {l u : F} (start : Brackets func value l u)
    (first : l ∈ Set.Icc lower upper) (last : u ∈ Set.Icc lower upper) :
    bisect func value n l u ∈ Set.Icc lower upper ∧
      (|func (bisect func value n l u) - value| ≤ 0.0001 ∨
        ∃ l' u', Brackets func value l' u' ∧ |u' - l'| = |u - l| / 2 ^ n ∧
          bisect func value n l u = (l' + u') / 2) := by
  have two : (2.0 : F) = 2 := by norm_num
  induction n generalizing l u with
  | zero =>
      rw [bisect, two]
      refine ⟨⟨?_, ?_⟩, .inr ⟨l, u, start, by simp, rfl⟩⟩
      · linarith [first.1, last.1]
      · linarith [first.2, last.2]
  | succ n ih =>
      obtain ⟨middle, half⟩ : ∃ middle, middle = (l + u) / 2 := ⟨_, rfl⟩
      have inside : middle ∈ Set.Icc lower upper := by
        rw [half]
        constructor
        · linarith [first.1, last.1]
        · linarith [first.2, last.2]
      have halved : |u - l| / 2 / 2 ^ n = |u - l| / 2 ^ (n + 1) := by
        rw [div_div, pow_succ']
      simp only [bisect, two, ← half, mw_abs_eq]
      have upperHalf : |u - middle| = |u - l| / 2 := by
        rw [← abs_of_pos (zero_lt_two (α := F)), ← abs_div, half]
        ring_nf
      have lowerHalf : |middle - l| = |u - l| / 2 := by
        rw [← abs_of_pos (zero_lt_two (α := F)), ← abs_div, half]
        ring_nf
      split
      next far =>
        split
        next below =>
          have rest := ih (l := middle) (u := u) ⟨by linarith, start.2⟩ inside last
          rwa [upperHalf, halved] at rest
        next above =>
          have higher : value < func middle := by
            have least : value ≤ func middle := by
              norm_num at above
              exact above
            refine least.lt_of_ne fun same => ?_
            rw [← same, sub_self, abs_zero] at far
            norm_num at far
          have bracket : Brackets func value l middle := ⟨start.1, higher⟩
          have rest := ih bracket first inside
          rw [lowerHalf, halved] at rest
          exact rest
      next close => exact ⟨inside, .inl (not_lt.mp close)⟩

/-- The function has strictly opposite signs at neighbouring points of the grid. -/
def ChangesSign (func : F → F) (value lower upper : F) (q : ℕ) : Prop :=
  Brackets func value (gridPoint lower upper q) (gridPoint lower upper (q + 1)) ∨
    Brackets func value (gridPoint lower upper (q + 1)) (gridPoint lower upper q)

theorem root_finder_cases (func : F → F) (value lower upper : F) :
    (∃ q < 4, ∃ l u, Brackets func value l u ∧
        (l = gridPoint lower upper q ∧ u = gridPoint lower upper (q + 1) ∨
          l = gridPoint lower upper (q + 1) ∧ u = gridPoint lower upper q) ∧
        root_finder func (fun _ => false) value lower upper = bisect func value 10000 l u) ∨
      (∀ q < 4, ¬ChangesSign func value lower upper q) ∧
        root_finder func (fun _ => false) value lower upper = 0 := by
  have bound : ∀ i : ℕ, (upper - lower) * i / (4 : ℕ) + lower = gridPoint lower upper i := by
    simp [gridPoint]
  simp only [root_finder, Bool.false_eq_true, if_false, bound, sub_neg, sub_pos]
  split
  next none =>
    refine .inr ⟨fun q inside change => ?_, by norm_num⟩
    have still := List.find?_eq_none.mp none q (List.mem_range.mpr inside)
    simp only [Bool.or_eq_true, decide_eq_true_eq] at still
    exact still (change.imp id And.symm)
  next q found =>
    have inside : q < 4 := List.mem_range.mp (List.mem_of_find?_eq_some found)
    have change := List.find?_some found
    simp only [Bool.or_eq_true, decide_eq_true_eq] at change
    refine .inl ⟨q, inside, ?_⟩
    split
    next rising => exact ⟨_, _, rising, .inl ⟨rfl, rfl⟩, rfl⟩
    next still =>
      have falling := change.resolve_left still
      exact ⟨_, _, falling.symm, .inr ⟨rfl, rfl⟩, rfl⟩

theorem isRoot_of_changesSign (less : lower < upper)
    (changes : ∃ q < 4, ChangesSign func value lower upper q) :
    IsRoot func value lower upper 10000 (root_finder func (fun _ => false) value lower upper) := by
  obtain ⟨q, inside, l, u, bracket, ends, found⟩ | ⟨none, -⟩ :=
    root_finder_cases func value lower upper
  · have first := gridPoint_mem less (i := q) (by omega)
    have last := gridPoint_mem less (i := q + 1) (by omega)
    have width := gridPoint_width less q
    rw [found]
    obtain ⟨rfl, rfl⟩ | ⟨rfl, rfl⟩ := ends
    · obtain ⟨within, close⟩ := bisect_isRoot 10000 bracket first last
      rw [width] at close
      exact ⟨within, close⟩
    · obtain ⟨within, close⟩ := bisect_isRoot 10000 bracket last first
      rw [abs_sub_comm (gridPoint lower upper q), width] at close
      exact ⟨within, close⟩
  · obtain ⟨q, inside, change⟩ := changes
    exact absurd change (none q inside)

/-- The search finds a root just where neighbouring points of the grid have strictly opposite
signs, or where zero, which is returned otherwise, is one. -/
theorem root_finder_iff (less : lower < upper) :
    IsRoot func value lower upper 10000 (root_finder func (fun _ => false) value lower upper) ↔
      (∃ q < 4, ChangesSign func value lower upper q) ∨
        IsRoot func value lower upper 10000 0 := by
  by_cases changes : ∃ q < 4, ChangesSign func value lower upper q
  · exact ⟨fun _ => .inl changes, fun _ => isRoot_of_changesSign less changes⟩
  · obtain ⟨q, inside, l, u, bracket, ends, -⟩ | ⟨-, zero⟩ :=
      root_finder_cases func value lower upper
    · refine absurd ⟨q, inside, ?_⟩ changes
      obtain ⟨rfl, rfl⟩ | ⟨rfl, rfl⟩ := ends
      · exact .inl bracket
      · exact .inr bracket
    · rw [zero]
      exact ⟨.inr, fun either => either.resolve_left changes⟩

theorem root_finder_nonzero (less : lower < upper)
    (opposite : Brackets func value lower upper ∨ Brackets func value upper lower)
    (nonzero : ∀ i, 0 < i → i < 4 → func (gridPoint lower upper i) ≠ value) :
    IsRoot func value lower upper 10000
      (root_finder func (fun _ => false) value lower upper) := by
  have first : gridPoint lower upper 0 = lower := by simp [gridPoint]
  have last : gridPoint lower upper 4 = upper := by
    simp only [gridPoint]
    push_cast
    ring
  refine isRoot_of_changesSign less ?_
  by_contra none
  have still : ∀ q < 4, ¬ChangesSign func value lower upper q := fun q inside change =>
    none ⟨q, inside, change⟩
  rcases opposite with ⟨below, above⟩ | ⟨below, above⟩
  · have kept : ∀ i ≤ 4, func (gridPoint lower upper i) < value := by
      intro i inside
      induction i with
      | zero => rwa [first]
      | succ i ih =>
          have here := ih (by omega)
          by_contra high
          refine still i (by omega) (.inl ⟨here, (not_lt.mp high).lt_of_ne fun same => ?_⟩)
          by_cases final : i + 1 = 4
          · rw [final, last] at same
            exact above.ne same
          · exact nonzero (i + 1) (by omega) (by omega) same.symm
    have end_below := kept 4 le_rfl
    rw [last] at end_below
    exact end_below.not_gt above
  · have kept : ∀ i ≤ 4, value < func (gridPoint lower upper i) := by
      intro i inside
      induction i with
      | zero => rwa [first]
      | succ i ih =>
          have here := ih (by omega)
          by_contra low
          refine still i (by omega) (.inr ⟨(not_lt.mp low).lt_of_ne fun same => ?_, here⟩)
          by_cases final : i + 1 = 4
          · rw [final, last] at same
            exact below.ne same
          · exact nonzero (i + 1) (by omega) (by omega) same
    have end_above := kept 4 le_rfl
    rw [last] at end_above
    exact end_above.not_gt below

end

/-- A line that rises through the value in the first quarter. -/
theorem root_finder_iff_line :
    IsRoot (fun x : ℚ => x) 1 0 8 10000 (root_finder (fun x : ℚ => x) (fun _ => false) 1 0 8) ↔
      (∃ q < 4, ChangesSign (fun x : ℚ => x) 1 0 8 q) ∨ IsRoot (fun x : ℚ => x) 1 0 8 10000 0 :=
  root_finder_iff (by norm_num)

/-- A line that rises through the value in the middle: zero is returned, which is not between
the bounds. -/
theorem root_finder_middle :
    Continuous (fun x : ℝ => x) ∧ Brackets (fun x : ℝ => x) 2 1 3 ∧
      root_finder (fun x : ℝ => x) (fun _ => false) 2 1 3 = 0 ∧
      ¬IsRoot (fun x : ℝ => x) 2 1 3 10000
        (root_finder (fun x : ℝ => x) (fun _ => false) 2 1 3) := by
  have zero : root_finder (fun x : ℝ => x) (fun _ => false) 2 1 3 = 0 := by
    obtain ⟨q, inside, l, u, bracket, ends, -⟩ | ⟨-, zero⟩ :=
      root_finder_cases (fun x : ℝ => x) 2 1 3
    · interval_cases q
      all_goals norm_num [Brackets, gridPoint] at bracket ends
      all_goals
        obtain ⟨rfl, rfl⟩ | ⟨rfl, rfl⟩ := ends
        · linarith [bracket.1, bracket.2]
        · linarith [bracket.1, bracket.2]
    · exact zero
  refine ⟨continuous_id, by norm_num [Brackets], zero, fun root => ?_⟩
  rw [zero] at root
  have inside := root.inside.1
  norm_num at inside

end MilkyWay.NBody
