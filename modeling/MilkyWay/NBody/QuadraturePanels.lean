import Mathlib.Tactic.FieldSimp
import Mathlib.Tactic.Linarith
import Mathlib.Tactic.NormNum
import Mathlib.Tactic.Ring
import MilkyWay.Foundation.Tiling
import MilkyWay.NBody.DwarfVelocity

/-! The panels of the quadrature. Up to the benchmark their width is a hundredth of the
distance to it; the width is only changed after the next panel is set up, so that two more
panels of that width follow, and those after them are shifted by as much. -/

namespace MilkyWay.NBody

open Foundation

section
variable {R : Type} [Add R] [Sub R] [Mul R] [Div R] [OfScientific R] [Neg R] [LT R] [DecidableLT R]

def addPanel (func : R → R) (intv : R) (p : R × R) : R :=
  let coef2 := (p.1 + p.2) / 2.0
  let coef1 := (p.2 - p.1) / 2.0
  intv + 0.55555555555 * func (coef1 * -0.77459666924 + coef2) * coef1 +
    0.88888888888 * func coef2 * coef1 +
    0.55555555555 * func (coef1 * 0.77459666924 + coef2) * coef1

theorem quadStep_intv (func : R → R) (benchmark b resolution : R) (s : QuadState R) :
    (quadStep func benchmark b resolution s).intv = addPanel func s.intv (s.lowerg, s.upperg) :=
  rfl

variable [LE R] [DecidableLE R]

def quadPanels (func : R → R) (benchmark b resolution lower upper : R) :
    ℕ → QuadState R → List (R × R)
  | 0, s => [(s.lowerg, s.upperg)]
  | n + 1, s =>
    let next := quadStep func benchmark b resolution s
    (s.lowerg, s.upperg) ::
      if lower < upper ∧ upper ≤ next.lowerg ∨ upper < lower ∧ lower ≤ next.lowerg then []
      else quadPanels func benchmark b resolution lower upper n next

theorem quadLoop_intv (func : R → R) (benchmark b resolution lower upper : R) (n : ℕ)
    (s : QuadState R) :
    (quadLoop func benchmark b resolution lower upper n s).intv =
      (quadPanels func benchmark b resolution lower upper n s).foldl (addPanel func) s.intv := by
  induction n generalizing s with
  | zero => simp [quadLoop, quadPanels, quadStep_intv]
  | succ n ih =>
      simp only [quadLoop, quadPanels, List.foldl_cons, ← quadStep_intv func benchmark b resolution]
      split
      · rfl
      · exact ih _

def gaussPanels (benchmarkFactor resolution : R) (func : R → R) (lower upper : R) :
    List (R × R) :=
  let a := if upper < lower then upper else lower
  let b := if upper < lower then lower else upper
  let benchmark := benchmarkFactor * a
  let hg := (benchmark - a) / 100.0
  quadPanels func benchmark b resolution lower upper 100001 ⟨0.0, a, a + hg, hg⟩

theorem gauss_quad_eq (benchmarkFactor resolution : R) (func : R → R) (lower upper : R) :
    gauss_quad benchmarkFactor resolution func lower upper =
      let sum := (gaussPanels benchmarkFactor resolution func lower upper).foldl (addPanel func) 0.0
      if upper < lower then sum * -1.0 else sum := by
  simp only [gauss_quad, gaussPanels, quadLoop_intv]

end

section
variable {F : Type} [Field F] [LinearOrder F] [IsStrictOrderedRing F]

def quadPoint (a h H : F) (k : ℕ) : F := a + (min k 102 : ℕ) * h + (k - 102 : ℕ) * H

def quadAt (a h H intv : F) (k : ℕ) : QuadState F :=
  ⟨intv, quadPoint a h H k, quadPoint a h H (k + 1), if k ≤ 100 then h else H⟩

variable {a b h H benchmark resolution : F}

omit [LinearOrder F] [IsStrictOrderedRing F] in
theorem quadPoint_first {k : ℕ} (first : k ≤ 102) : quadPoint a h H k = a + k * h := by
  simp [quadPoint, min_eq_left first, Nat.sub_eq_zero_of_le first]

omit [LinearOrder F] [IsStrictOrderedRing F] in
theorem quadPoint_later (k : ℕ) : quadPoint a h H (102 + k) = a + 102 * h + k * H := by
  simp [quadPoint]

omit [LinearOrder F] [IsStrictOrderedRing F] in
theorem quadPoint_succ (k : ℕ) :
    quadPoint a h H (k + 1) = quadPoint a h H k + if k ≤ 101 then h else H := by
  by_cases first : k ≤ 101
  · rw [quadPoint_first (show k + 1 ≤ 102 by omega), quadPoint_first (show k ≤ 102 by omega),
      if_pos first]
    push_cast
    ring
  · obtain ⟨i, rfl⟩ := Nat.exists_eq_add_of_le (show 102 ≤ k by omega)
    rw [Nat.add_assoc, quadPoint_later, quadPoint_later, if_neg first]
    push_cast
    ring

theorem quadStep_quadAt (func : F → F) (positive : 0 < h) (bench : benchmark = a + 100 * h)
    (rest : H = (b - benchmark) / resolution) (intv : F) (k : ℕ) :
    quadStep func benchmark b resolution (quadAt a h H intv k) =
      quadAt a h H (addPanel func intv (quadPoint a h H k, quadPoint a h H (k + 1))) (k + 1) := by
  have next : quadPoint a h H (k + 1 + 1) =
      quadPoint a h H (k + 1) + if k ≤ 100 then h else H := by
    rw [quadPoint_succ (k + 1)]
    simp [Nat.lt_succ_iff]
  have width : (if benchmark < quadPoint a h H (k + 1) then (b - benchmark) / resolution
      else if k ≤ 100 then h else H) = if k + 1 ≤ 100 then h else H := by
    rw [← rest]
    by_cases before : k + 1 ≤ 100
    · have inside : quadPoint a h H (k + 1) ≤ benchmark := by
        have places : ((k + 1 : ℕ) : F) ≤ 100 := by exact_mod_cast before
        rw [quadPoint_first (by omega), bench]
        nlinarith
      rw [if_neg (not_lt.mpr inside), if_pos before, if_pos (by omega)]
    · rw [if_neg before]
      by_cases switch : k = 100
      · have outside : benchmark < quadPoint a h H (k + 1) := by
          rw [quadPoint_first (by omega), bench, switch]
          push_cast
          linarith
        rw [if_pos outside]
      · simp [show ¬k ≤ 100 by omega]
  simp only [quadStep, quadAt, QuadState.mk.injEq]
  exact ⟨rfl, trivial, next.symm, width⟩

theorem quadPanels_quadAt (func : F → F) (positive : 0 < h) (bench : benchmark = a + 100 * h)
    (rest : H = (b - benchmark) / resolution) {lower upper : F}
    (ends : ∀ x, lower < upper ∧ upper ≤ x ∨ upper < lower ∧ lower ≤ x ↔ b ≤ x) (n k m : ℕ)
    (intv : F) (enough : m ≤ n)
    (below : ∀ i, k < i → i < k + m + 1 → quadPoint a h H i < b)
    (past : b ≤ quadPoint a h H (k + m + 1)) :
    quadPanels func benchmark b resolution lower upper n (quadAt a h H intv k) =
      panelsFrom (quadPoint a h H) k (m + 1) := by
  induction n generalizing k m intv with
  | zero =>
      obtain rfl : m = 0 := by omega
      rfl
  | succ n ih =>
      rw [quadPanels, quadStep_quadAt func positive bench rest, panelsFrom]
      have next : (quadAt a h H (addPanel func intv (quadPoint a h H k, quadPoint a h H (k + 1)))
          (k + 1)).lowerg = quadPoint a h H (k + 1) := rfl
      simp only [next, ends]
      cases m with
      | zero => simp [quadAt, panelsFrom, past]
      | succ m =>
          have short := below (k + 1) (by omega) (by omega)
          rw [if_neg (not_le.mpr short), ih (k + 1) m _ (by omega)
            (fun i first last => below i (by omega) (by omega))
            (by rwa [show k + 1 + m + 1 = k + (m + 1) + 1 by omega])]
          rfl

theorem gaussPanels_eq {benchmarkFactor : F} {N : ℕ} (positive : 0 < a) (less : a < b)
    (above : 1 < benchmarkFactor) (some : 0 < N) (few : N ≤ 1000) :
    ∃ n < 102 + N,
      (∀ func, gaussPanels benchmarkFactor (N : F) func a b =
          panelsFrom (quadPoint a ((benchmarkFactor * a - a) / 100)
            ((b - benchmarkFactor * a) / N)) 0 (n + 1) ∧
        gaussPanels benchmarkFactor (N : F) func b a =
          gaussPanels benchmarkFactor (N : F) func a b) ∧
      (∀ i, 0 < i → i < n + 1 → quadPoint a ((benchmarkFactor * a - a) / 100)
        ((b - benchmarkFactor * a) / N) i < b) ∧
      b ≤ quadPoint a ((benchmarkFactor * a - a) / 100)
        ((b - benchmarkFactor * a) / N) (n + 1) := by
  have count : (0 : F) < N := by exact_mod_cast some
  obtain ⟨h, width⟩ : ∃ h, h = (benchmarkFactor * a - a) / 100 := ⟨_, rfl⟩
  obtain ⟨H, rest⟩ : ∃ H, H = (b - benchmarkFactor * a) / N := ⟨_, rfl⟩
  rw [← width, ← rest]
  have h_pos : 0 < h := by
    rw [width]
    have bench : a < benchmarkFactor * a := by nlinarith
    linarith
  have bench : benchmarkFactor * a = a + 100 * h := by
    rw [width]
    ring
  have reached : b ≤ quadPoint a h H (102 + N) := by
    have all : (N : F) * H = b - benchmarkFactor * a := by
      rw [rest]
      field_simp
    rw [quadPoint_later, all, bench]
    linarith
  obtain ⟨n, within, below, past⟩ := exists_first (by omega) reached
  have start : (⟨0.0, a, a + h, h⟩ : QuadState F) = quadAt a h H 0.0 0 := by
    simp [quadAt, quadPoint]
  have hundred : (benchmarkFactor * a - a) / 100.0 = h := by
    rw [width]
    norm_num
  refine ⟨n, within, fun func => ?_, below, past⟩
  have panels : ∀ lower upper : F,
      (∀ x, lower < upper ∧ upper ≤ x ∨ upper < lower ∧ lower ≤ x ↔ b ≤ x) →
      quadPanels func (benchmarkFactor * a) b (N : F) lower upper 100001 (quadAt a h H 0.0 0) =
        panelsFrom (quadPoint a h H) 0 (n + 1) := by
    intro lower upper ends
    refine quadPanels_quadAt func h_pos bench rest ends 100001 0 n 0.0 (by omega) ?_ ?_
    · intro i positive early
      exact below i positive (by omega)
    · rwa [Nat.zero_add]
  have forwards := panels a b fun x => by simp [less, less.not_gt]
  have backwards := panels b a fun x => by simp [less, less.not_gt]
  simp only [gaussPanels, less, less.not_gt, if_true, if_false, hundred, start]
  exact ⟨forwards, backwards.trans forwards.symm⟩

/-! ## The limits that the panels meet -/

/-- The quadrature adds up panels that lead from one limit to the other, ends since it has
reached the limit, and has the opposite sign when the limits are exchanged. -/
structure TilesInterval (benchmarkFactor resolution a b : F) : Prop where
  sum : ∀ func, gauss_quad benchmarkFactor resolution func a b =
    (gaussPanels benchmarkFactor resolution func a b).foldl (addPanel func) 0
  tiles : ∀ func, Tiles a (gaussPanels benchmarkFactor resolution func a b) b
  reached : ∀ func, (gaussPanels benchmarkFactor resolution func a b).length ≤ 100001
  exchanged : ∀ func, gauss_quad benchmarkFactor resolution func b a =
    -gauss_quad benchmarkFactor resolution func a b

open Foundation.Numerals in
/-- The limit is the end of one of the first 102 panels, or what is left of the interval is
a whole number of the wider ones. -/
def LimitOnPanels (benchmarkFactor : F) (N : ℕ) (a b : F) : Prop :=
  (∃ j : ℕ, 0 < j ∧ j ≤ 102 ∧ b = a + j * ((benchmarkFactor * a - a) / 100)) ∨
    ∃ m : ℕ, 0 < m ∧ m < N ∧
      m * (b - benchmarkFactor * a) = N * (2 * ((benchmarkFactor * a - a) / 100))

theorem quadPoint_narrow (positive : 0 < h) {k : ℕ} (first : k ≤ 101) :
    quadPoint a h H k < quadPoint a h H (k + 1) := by
  simp [quadPoint_succ, first, positive]

theorem quadPoint_wide (positive : 0 < h) (grows : 0 < H) (k : ℕ) :
    quadPoint a h H k < quadPoint a h H (k + 1) := by
  rw [quadPoint_succ]
  split
  · linarith
  · linarith

theorem second_pos {n N : ℕ} (positive : 0 < h) (bench : benchmark = a + 100 * h)
    (all : (N : F) * H = b - benchmark)
    (below : ∀ i, 0 < i → i < n + 1 → quadPoint a h H i < b) (late : 102 < n + 1) : 0 < H := by
  have short := below 102 (by omega) late
  rw [quadPoint_first (le_refl 102)] at short
  push_cast at short
  have count : (0 : F) ≤ N := by positivity
  by_contra small
  nlinarith

theorem quadPoint_eq_iff {n N : ℕ} (positive : 0 < h) (bench : benchmark = a + 100 * h)
    (some : 0 < N) (all : (N : F) * H = b - benchmark)
    (below : ∀ i, 0 < i → i < n + 1 → quadPoint a h H i < b)
    (past : b ≤ quadPoint a h H (n + 1)) :
    quadPoint a h H (n + 1) = b ↔
      (∃ j : ℕ, 0 < j ∧ j ≤ 102 ∧ b = a + j * h) ∨
        ∃ m : ℕ, 0 < m ∧ m < N ∧ m * (b - benchmark) = N * (2 * h) := by
  have count : (0 : F) < N := by exact_mod_cast some
  constructor
  · intro same
    by_cases first : n + 1 ≤ 102
    · rw [quadPoint_first first] at same
      exact .inl ⟨n + 1, by omega, first, same.symm⟩
    · obtain ⟨k, place⟩ := Nat.exists_eq_add_of_le (show 102 ≤ n + 1 by omega)
      have grows := second_pos positive bench all below (by omega)
      rw [place, quadPoint_later] at same
      have left : (N - k : F) * H = 2 * h := by linarith
      have fewer : k < N := by
        by_contra many
        have more : (N : F) ≤ k := by exact_mod_cast not_lt.mp many
        nlinarith
      refine .inr ⟨N - k, by omega, by omega, ?_⟩
      rw [← all, Nat.cast_sub fewer.le, ← left]
      ring
  · rintro (⟨j, after, first, same⟩ | ⟨m, after, fewer, same⟩)
    · rw [← quadPoint_first (H := H) first] at same
      exact first_eq below past after (fun k _ => quadPoint_narrow positive (by omega)) same.symm
    · have parts : (m : F) * H = 2 * h := by
        rw [← all] at same
        exact mul_left_cancel₀ count.ne' (by linarith)
      have grows : 0 < H := by
        have some : (0 : F) < m := by exact_mod_cast after
        by_contra small
        nlinarith
      refine first_eq (i := 102 + (N - m)) below past (by omega)
        (fun k _ => quadPoint_wide positive grows k) ?_
      rw [quadPoint_later, Nat.cast_sub fewer.le]
      linarith

theorem tilesInterval_iff {benchmarkFactor : F} {N : ℕ} (positive : 0 < a) (less : a < b)
    (above : 1 < benchmarkFactor) (some : 0 < N) (few : N ≤ 1000) :
    TilesInterval benchmarkFactor (N : F) a b ↔ LimitOnPanels benchmarkFactor N a b := by
  obtain ⟨n, within, panels, below, past⟩ := gaussPanels_eq positive less above some few
  obtain ⟨h, width⟩ : ∃ h, h = (benchmarkFactor * a - a) / 100 := ⟨_, rfl⟩
  obtain ⟨H, rest⟩ : ∃ H, H = (b - benchmarkFactor * a) / N := ⟨_, rfl⟩
  rw [← width, ← rest] at panels below past
  have h_pos : 0 < h := by
    rw [width]
    have bench : a < benchmarkFactor * a := by nlinarith
    linarith
  have bench : benchmarkFactor * a = a + 100 * h := by
    rw [width]
    ring
  have all : (N : F) * H = b - benchmarkFactor * a := by
    have count : (0 : F) < N := by exact_mod_cast some
    rw [rest]
    field_simp
  have tiles : ∀ func, Tiles a (gaussPanels benchmarkFactor (N : F) func a b)
      (quadPoint a h H (n + 1)) := by
    intro func
    have walk : Tiles (quadPoint a h H 0) (panelsFrom (quadPoint a h H) 0 (n + 1))
        (quadPoint a h H (0 + (n + 1))) := tiles_panelsFrom 0 (n + 1) fun k _ before => by
      by_cases first : k ≤ 101
      · exact quadPoint_narrow h_pos first
      · exact quadPoint_wide h_pos (second_pos h_pos bench all below (by omega)) k
    rw [Nat.zero_add, quadPoint_first (by omega)] at walk
    rw [(panels func).1]
    simpa using walk
  rw [LimitOnPanels, ← width, ← quadPoint_eq_iff h_pos bench some all below past]
  constructor
  · intro interval
    exact (tiles id).end_unique (interval.tiles id)
  · intro same
    refine ⟨fun func => ?_, fun func => same ▸ tiles func, fun func => ?_, fun func => ?_⟩
    · norm_num [gauss_quad_eq, less.not_gt]
    · rw [(panels func).1, length_panelsFrom]
      omega
    · norm_num [gauss_quad_eq, less, less.not_gt, (panels func).2]

/-- Both copies of the quadrature end beyond the limit unless it is the end of a panel. -/
theorem gauss_quad_tiles_iff (positive : 0 < a) (less : a < b) :
    (TilesInterval 1.5 10.0 a b ↔ LimitOnPanels 1.5 10 a b) ∧
      (TilesInterval 1.2 20.0 a b ↔ LimitOnPanels 1.2 20 a b) := by
  have ten : (10.0 : F) = (10 : ℕ) := by norm_num
  have twenty : (20.0 : F) = (20 : ℕ) := by norm_num
  rw [ten, twenty]
  constructor
  · exact tilesInterval_iff positive less (by norm_num) (by norm_num) (by norm_num)
  · exact tilesInterval_iff positive less (by norm_num) (by norm_num) (by norm_num)

end

/-- A limit at the benchmark of the first copy. -/
theorem gauss_quad_tiles_iff_bench :
    (TilesInterval (1.5 : ℚ) 10.0 1 1.5 ↔ LimitOnPanels (1.5 : ℚ) 10 1 1.5) ∧
      (TilesInterval (1.2 : ℚ) 20.0 1 1.5 ↔ LimitOnPanels (1.2 : ℚ) 20 1 1.5) :=
  gauss_quad_tiles_iff (by norm_num) (by norm_num)

/-- The limits of the distribution of speeds, ten and five times the lower one. -/
theorem not_tilesInterval_dist_fun :
    ¬TilesInterval (1.5 : ℚ) 10.0 1 10 ∧ ¬TilesInterval (1.2 : ℚ) 20.0 1 5 := by
  have far : ∀ j : ℕ, j ≤ 102 → (j : ℚ) ≤ 102 := fun j le => by exact_mod_cast le
  have some : ∀ m : ℕ, 0 < m → (1 : ℚ) ≤ m := fun m pos => by exact_mod_cast pos
  have ten : (10.0 : ℚ) = (10 : ℕ) := by norm_num
  have twenty : (20.0 : ℚ) = (20 : ℕ) := by norm_num
  rw [ten, twenty]
  constructor
  · rw [tilesInterval_iff (by norm_num) (by norm_num) (by norm_num) (by norm_num) (by norm_num)]
    rintro (⟨j, -, first, same⟩ | ⟨m, after, -, same⟩)
    · have := far j first
      linarith
    · have := some m after
      norm_num at same
      linarith
  · rw [tilesInterval_iff (by norm_num) (by norm_num) (by norm_num) (by norm_num) (by norm_num)]
    rintro (⟨j, -, first, same⟩ | ⟨m, after, -, same⟩)
    · have := far j first
      linarith
    · have := some m after
      norm_num at same
      linarith

end MilkyWay.NBody
