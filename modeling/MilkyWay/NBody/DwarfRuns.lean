import MilkyWay.Foundation.Stencil
import MilkyWay.NBody.DwarfConservation
import MilkyWay.NBody.TreeInvariant

/-! Runs of the generator of mixed dwarfs that succeed. Where the potential falls and the
density is convex in it, by the differences that the program takes, the distribution of
speeds is positive, whatever root and maximum are found, and a speed is accepted for a
small enough number. -/

namespace MilkyWay.NBody

open Foundation

/-- From a distance on the differences have the signs of the derivatives; the end of the
quadrature lies above its benchmark. -/
structure Steep (M : SpeedModel ℝ) (start : ℝ) : Prop where
  decreasing : ∀ x y, 0 < x → x < y → M.potential y < M.potential x
  slope : ∀ x, start ≤ x → first_derivative M.potential x < 0
  convex : ∀ x, start ≤ x → second_derivative M.density x * first_derivative M.potential x -
    first_derivative M.density x * second_derivative M.potential x < 0
  centre : M.isnan 0 = true ∨ ∀ y, 0 < y → M.potential y < M.potential 0
  scales : 0 ≤ M.rscale_l + M.rscale_d
  benchmark : 1 < M.benchmark
  lowerlimit : M.benchmark < M.lowerlimit
  resolution : 0 < M.resolution

variable {L : Libm ℝ} {M : SpeedModel ℝ} {start energy r : ℝ}

theorem dist_integrand_neg (sqrt : ∀ x, L.sqrt x = √x) (steep : Steep M start)
    (positive : 0 < start) {x : ℝ} (far : start ≤ x) : dist_integrand L M energy x < 0 := by
  have slope := steep.slope x far
  have numerator : second_derivative M.density x * inv (first_derivative M.potential x) -
      first_derivative M.density x * second_derivative M.potential x *
        inv (sqr (first_derivative M.potential x)) < 0 := by
    have convex := steep.convex x far
    have square : 0 < sqr (first_derivative M.potential x) := mul_pos_of_neg_of_neg slope slope
    have combined : second_derivative M.density x * inv (first_derivative M.potential x) -
        first_derivative M.density x * second_derivative M.potential x *
          inv (sqr (first_derivative M.potential x)) =
        (second_derivative M.density x * first_derivative M.potential x -
          first_derivative M.density x * second_derivative M.potential x) /
            sqr (first_derivative M.potential x) := by
      have nonzero := slope.ne
      simp only [inv, sqr]
      norm_num
      field_simp
    rw [combined]
    exact div_neg_of_neg_of_pos convex square
  have root {y : ℝ} (nonzero : y ≠ 0) : 0 < inv (L.sqrt (mw_abs y)) := by
    have root := Real.sqrt_pos.mpr (abs_pos.mpr nonzero)
    rw [sqrt, mw_abs_eq, inv]
    positivity
  have steeper : (first_derivative M.potential x == 0.0) = false := by
    rw [beq_eq_false_iff_ne]
    norm_num
    exact slope.ne
  simp only [dist_integrand, steeper, Bool.false_eq_true, if_false]
  apply mul_neg_of_neg_of_pos numerator
  by_cases same : energy - M.potential x = 0
  · -- on the singularity the potential is taken a little farther out
    have shifted := steep.decreasing x (x + 0.0001) (by linarith) (by norm_num)
    have flat : (mw_abs (energy - M.potential x) != 0.0) = false := by
      rw [same, mw_abs_eq, abs_zero]
      norm_num
    rw [flat]
    exact root (by linarith)
  · have away : (mw_abs (energy - M.potential x) != 0.0) = true := by
      rw [mw_abs_eq, bne_iff_ne]
      norm_num
      exact same
    rw [away, if_pos rfl]
    exact root same

/-! ## The start of the integral -/

theorem bisect_far {func : ℝ → ℝ} {value : ℝ} (positive : 0 < r)
    (below : ∀ x, 0 < x → func x < value → r < x) (n : ℕ) {lower upper : ℝ} (far : r < lower)
    (nonneg : 0 ≤ upper) : r / 2 < bisect func value n lower upper := by
  have middle (l u : ℝ) : (l + u) / 2.0 = (l + u) / 2 := by norm_num
  induction n generalizing lower upper with
  | zero =>
      rw [bisect, middle]
      linarith
  | succ n ih =>
      simp only [bisect, middle]
      split
      · split
        next _ negative =>
          have under : func ((lower + upper) / 2) < value := by
            norm_num at negative
            linarith
          exact ih (below _ (by linarith) under) nonneg
        next => exact ih far (by linarith)
      · linarith

theorem root_finder_far {func : ℝ → ℝ} {isnan : ℝ → Bool} {value upper : ℝ} (positive : 0 < r)
    (below : ∀ x, 0 < x → func x < value → r < x) (centre : isnan 0 = true ∨ value ≤ func 0)
    (nonneg : 0 ≤ upper) :
    root_finder func isnan value 0.0 upper = 0 ∨
      r / 2 < root_finder func isnan value 0.0 upper := by
  obtain ⟨bound, same⟩ : ∃ bound : ℕ → ℝ, ∀ i : ℕ,
      (if isnan ((upper - 0.0) * (i : ℝ) / (4 : ℕ) + 0.0) then
        (upper - 0.0) * (i : ℝ) / (4 : ℕ) + 0.0 + 0.0001
          else (upper - 0.0) * (i : ℝ) / (4 : ℕ) + 0.0) = bound i := ⟨_, fun _ => rfl⟩
  -- the first point is the centre, unless the values are not numbers there
  have points (i : ℕ) : 0 ≤ bound i ∧ (func (bound i) < value → 0 < bound i) := by
    rw [← same i]
    have part : (0 : ℝ) ≤ (upper - 0.0) * (i : ℝ) / (4 : ℕ) + 0.0 := by
      norm_num
      positivity
    generalize (upper - 0.0) * (i : ℝ) / (4 : ℕ) + 0.0 = point at part
    split
    next =>
      have shifted : 0 < point + 0.0001 := by
        norm_num
        linarith
      exact ⟨shifted.le, fun _ => shifted⟩
    next number =>
      refine ⟨part, fun under => part.lt_of_ne fun zero => ?_⟩
      rw [← zero] at number under
      obtain missing | above := centre
      · exact number missing
      · linarith
  have past {i : ℕ} (under : func (bound i) < value) : r < bound i :=
    below _ ((points i).2 under) under
  simp only [root_finder, same]
  split
  next => exact .inl (by norm_num)
  next q found =>
    have change := List.find?_some found
    simp only [Bool.or_eq_true, decide_eq_true_eq] at change
    right
    split
    next rising =>
      exact bisect_far positive below _ (past (by linarith [rising.1])) (points _).1
    next still =>
      obtain rising | falling := change
      · exact absurd rising still
      · exact bisect_far positive below _ (past (by linarith [falling.2])) (points _).1

theorem searchRange_nonneg (scales : 0 ≤ M.rscale_l + M.rscale_d) (energy : ℝ) (n : ℕ) {range : ℝ}
    (nonneg : 0 ≤ range) : 0 ≤ searchRange M energy n range := by
  induction n generalizing range with
  | zero =>
      rw [searchRange]
      split
      · exact mul_nonneg (by norm_num) scales
      · exact nonneg
  | succ n ih =>
      rw [searchRange]
      split
      · exact ih (mul_nonneg (by norm_num) nonneg)
      · exact nonneg

theorem find_upperlimit_far (steep : Steep M start) (positive : 0 < r)
    (bound : energy ≤ M.potential r) {range : ℝ} (nonneg : 0 ≤ range) :
    r / 2 ≤ find_upperlimit_r M energy range r := by
  have below : ∀ x, 0 < x → M.potential x < energy → r < x := by
    intro x far under
    by_contra near
    obtain same | closer := (not_lt.mp near).eq_or_lt
    · rw [same] at under
      linarith
    · have falls := steep.decreasing x r far closer
      linarith
  have half : (0.0 : ℝ) = 0 := by norm_num
  rw [find_upperlimit_r, mw_abs_eq, half]
  have root := root_finder_far positive below
    (steep.centre.imp_right fun centre => bound.trans (centre r positive).le) nonneg
  rw [half] at root
  obtain missing | found := root
  · rw [missing, bne_self_eq_false, if_neg Bool.false_ne_true, abs_of_pos positive]
    linarith
  · have nonzero : (root_finder M.potential M.isnan energy 0 range != 0) = true := by
      rw [bne_iff_ne]
      linarith
    rw [if_pos nonzero, abs_of_pos (by linarith)]
    exact found.le

/-! ## The quadrature -/

structure Quadrature (low : ℝ) (s : QuadState ℝ) : Prop where
  past : low ≤ s.lowerg
  width : s.lowerg < s.upperg
  step : 0 < s.hg
  sum : s.intv ≤ 0

theorem quadStep_neg {func : ℝ → ℝ} {low benchmark b resolution : ℝ}
    (negative : ∀ x, low ≤ x → func x < 0) (ends : benchmark < b) (positive : 0 < resolution)
    {s : QuadState ℝ} (quadrature : Quadrature low s) :
    (quadStep func benchmark b resolution s).intv < 0 ∧
      Quadrature low (quadStep func benchmark b resolution s) := by
  have half : (s.upperg - s.lowerg) / 2.0 = (s.upperg - s.lowerg) / 2 := by norm_num
  have middle : (s.lowerg + s.upperg) / 2.0 = (s.lowerg + s.upperg) / 2 := by norm_num
  have past := quadrature.past
  have width := quadrature.width
  have sum := quadrature.sum
  have first := negative ((s.upperg - s.lowerg) / 2 * -0.77459666924 +
    (s.lowerg + s.upperg) / 2) (by norm_num; linarith)
  have second := negative ((s.lowerg + s.upperg) / 2) (by linarith)
  have third := negative ((s.upperg - s.lowerg) / 2 * 0.77459666924 +
    (s.lowerg + s.upperg) / 2) (by norm_num; linarith)
  have added : (quadStep func benchmark b resolution s).intv < 0 := by
    have width' : 0 < (s.upperg - s.lowerg) / 2 := by linarith
    have term {c f : ℝ} (weight : 0 < c) (below : f < 0) :
        c * f * ((s.upperg - s.lowerg) / 2) < 0 :=
      mul_neg_of_neg_of_pos (mul_neg_of_pos_of_neg weight below) width'
    have t₁ := term (c := 0.55555555555) (by norm_num) first
    have t₂ := term (c := 0.88888888888) (by norm_num) second
    have t₃ := term (c := 0.55555555555) (by norm_num) third
    simp only [quadStep, half, middle]
    linarith
  refine ⟨added, past.trans width.le, ?_, ?_, added.le⟩
  · exact lt_add_of_pos_right _ quadrature.step
  · simp only [quadStep]
    split
    · exact div_pos (by linarith) positive
    · exact quadrature.step

theorem quadLoop_neg {func : ℝ → ℝ} {low benchmark b resolution : ℝ} (lower upper : ℝ)
    (negative : ∀ x, low ≤ x → func x < 0) (ends : benchmark < b) (positive : 0 < resolution)
    (n : ℕ) {s : QuadState ℝ} (quadrature : Quadrature low s) :
    (quadLoop func benchmark b resolution lower upper n s).intv < 0 := by
  induction n generalizing s with
  | zero => exact (quadStep_neg negative ends positive quadrature).1
  | succ n ih =>
      obtain ⟨added, next⟩ := quadStep_neg negative ends positive quadrature
      simp only [quadLoop]
      split
      · exact added
      · exact ih next

theorem gauss_quad_pos {func : ℝ → ℝ} {benchmark resolution lower upper : ℝ}
    (negative : ∀ x, upper ≤ x → func x < 0) (positive : 0 < upper) (above : 1 < benchmark)
    (ends : benchmark * upper < lower) (fine : 0 < resolution) :
    0 < gauss_quad benchmark resolution func lower upper := by
  have order : upper < lower := by nlinarith
  have step : 0 < (benchmark * upper - upper) / 100.0 := by
    apply div_pos _ (by norm_num)
    nlinarith
  have start : Quadrature upper
      ⟨0.0, upper, upper + (benchmark * upper - upper) / 100.0,
        (benchmark * upper - upper) / 100.0⟩ :=
    ⟨le_rfl, by simpa using step, step, by norm_num⟩
  have total := quadLoop_neg lower upper negative ends fine 100001 start
  simp only [gauss_quad, order, if_true]
  norm_num at total ⊢
  exact total

theorem dist_fun_pos (sqrt : ∀ x, L.sqrt x = √x) (steep : Steep M start) (positive : 0 < start)
    (far : start ≤ r / 2) {v : ℝ} (moving : 0 < v) : 0 < dist_fun L M r v := by
  have bound : M.potential r - 0.5 * v * v ≤ M.potential r := by
    norm_num
    positivity
  have range : (0 : ℝ) ≤ 20.0 * L.sqrt (mw_abs (sqr (M.mass_d / (M.potential r - 0.5 * v * v)) -
      sqr M.rscale_d)) := by
    rw [sqrt]
    norm_num
  have limit := find_upperlimit_far steep (by linarith) bound
    (searchRange_nonneg steep.scales (M.potential r - 0.5 * v * v) 101 range)
  rw [dist_fun]
  generalize find_upperlimit_r M _ _ r = upper at *
  have inside : 0 < upper := by linarith
  refine mul_pos (mul_pos (mul_pos moving moving) (by norm_num)) ?_
  apply gauss_quad_pos
  · intro x past
    exact dist_integrand_neg sqrt steep positive (by linarith)
  · exact inside
  · exact steep.benchmark
  · exact mul_lt_mul_of_pos_right steep.lowerlimit inside
  · exact steep.resolution

/-! ## The search for the maximum -/

/-- The points of the search lie in an interval and the values at the inner ones, counted
negative, are. -/
structure Search (top : ℝ) (s : MaxState ℝ) : Prop where
  x0 : 0 ≤ s.x0
  x1 : 0 < s.x1 ∧ s.x1 ≤ top
  x2 : 0 < s.x2 ∧ s.x2 ≤ top
  x3 : 0 ≤ s.x3 ∧ s.x3 ≤ top
  x0_le : s.x0 ≤ top
  profile_x1 : s.profile_x1 < 0
  profile_x2 : s.profile_x2 < 0

theorem maxStep_search {profile : ℝ → ℝ} {top : ℝ}
    (positive : ∀ x, 0 < x → x ≤ top → 0 < profile x) {s : MaxState ℝ} (search : Search top s) :
    Search top (maxStep profile s) := by
  obtain ⟨x1, x1'⟩ := search.x1
  obtain ⟨x2, x2'⟩ := search.x2
  obtain ⟨x3, x3'⟩ := search.x3
  have x0 := search.x0
  have x0' := search.x0_le
  simp only [maxStep]
  split
  · have inside : 0 < 0.61803399 * s.x2 + (1.0 - 0.61803399) * s.x3 ∧
        0.61803399 * s.x2 + (1.0 - 0.61803399) * s.x3 ≤ top := by
      norm_num
      constructor <;> linarith
    exact ⟨x1.le, ⟨x2, x2'⟩, inside, ⟨x3, x3'⟩, x1', search.profile_x2,
      neg_lt_zero.mpr (positive _ inside.1 inside.2)⟩
  · have inside : 0 < 0.61803399 * s.x1 + (1.0 - 0.61803399) * s.x0 ∧
        0.61803399 * s.x1 + (1.0 - 0.61803399) * s.x0 ≤ top := by
      norm_num
      constructor <;> linarith
    exact ⟨x0, inside, ⟨x1, x1'⟩, ⟨x2.le, x2'⟩, x0',
      neg_lt_zero.mpr (positive _ inside.1 inside.2), search.profile_x1⟩

theorem maxLoop_search {profile : ℝ → ℝ} {top : ℝ} (tolerance : ℝ)
    (positive : ∀ x, 0 < x → x ≤ top → 0 < profile x) (n : ℕ) {s : MaxState ℝ}
    (search : Search top s) : Search top (maxLoop profile tolerance n s) := by
  induction n generalizing s with
  | zero => exact search
  | succ n ih =>
      rw [maxLoop]
      split
      · exact ih (maxStep_search positive search)
      · exact search

theorem max_finder_pos {profile : ℝ → ℝ} {top : ℝ} (wide : 0 < top)
    (positive : ∀ x, 0 < x → x ≤ top → 0 < profile x) (limit : ℕ) (tolerance : ℝ) :
    0 < max_finder profile 0.0 (0.5 * top) top limit tolerance := by
  have inner : 0 < (0.5 : ℝ) * top ∧ (0.5 : ℝ) * top ≤ top := by
    norm_num
    constructor <;> linarith
  have right : 0 < 0.5 * top + (1.0 - 0.61803399) * (top - 0.5 * top) ∧
      0.5 * top + (1.0 - 0.61803399) * (top - 0.5 * top) ≤ top := by
    norm_num
    constructor <;> linarith
  have left : 0 < 0.5 * top - (1.0 - 0.61803399) * (0.5 * top - 0.0) ∧
      0.5 * top - (1.0 - 0.61803399) * (0.5 * top - 0.0) ≤ top := by
    norm_num
    constructor <;> linarith
  have value {x : ℝ} (inside : 0 < x ∧ x ≤ top) : -profile x < 0 :=
    neg_lt_zero.mpr (positive x inside.1 inside.2)
  simp only [max_finder]
  generalize first : (if mw_abs (0.5 * top - 0.0) < mw_abs (0.5 * top - top) then 0.5 * top
    else 0.5 * top - (1.0 - 0.61803399) * (0.5 * top - 0.0)) = x1
  generalize second : (if mw_abs (0.5 * top - 0.0) < mw_abs (0.5 * top - top) then
    0.5 * top + (1.0 - 0.61803399) * (top - 0.5 * top) else 0.5 * top) = x2
  have x1_inside : 0 < x1 ∧ x1 ≤ top := by
    rw [← first]
    split
    · exact inner
    · exact left
  have x2_inside : 0 < x2 ∧ x2 ≤ top := by
    rw [← second]
    split
    · exact right
    · exact inner
  have search := maxLoop_search tolerance positive (limit + 1)
    (s := ⟨0.0, x1, x2, top, -profile x1, -profile x2⟩)
    ⟨by norm_num, x1_inside, x2_inside, ⟨wide.le, le_rfl⟩, by norm_num; exact wide.le,
      value x1_inside, value x2_inside⟩
  split
  · exact neg_pos.mpr search.profile_x1
  · exact neg_pos.mpr search.profile_x2

/-! ## Draws that are accepted -/

variable {stream : ℕ → ℝ} {k : ℕ}

theorem drawNonzero_eq {sample : Draw ℝ} {k' : ℕ} {x : ℝ} (nonzero : x ≠ 0)
    (result : sample k = some (x, k')) : drawNonzero sample k = some (x, k') := by
  apply tries_of_eq
  rw [bind_of_eq result]
  have number : (x == 0.0) = false := by
    rw [beq_eq_false_iff_ne]
    norm_num
    exact nonzero
  rw [number]
  rfl

theorem exists_vel_mag (sqrt : ∀ x, L.sqrt x = √x) (steep : Steep M start) (positive : 0 < start)
    (far : start ≤ r / 2) (escape : 0 < M.escape (L.sqrt (mw_abs (2.0 * M.potential r)))) :
    ∃ ε, 0 < ε ∧ ε < 1 ∧ ∀ stream k, stream k = 1 / 2 → stream (k + 1) = ε →
      ∃ v, v ≠ 0 ∧ vel_mag L M stream r k = some (v, k + 2) := by
  generalize top : M.escape (L.sqrt (mw_abs (2.0 * M.potential r))) = v_esc at escape
  have value {v : ℝ} (moving : 0 < v) := dist_fun_pos sqrt steep positive far moving
  have greatest := max_finder_pos escape (fun v moving _ => value moving) 10 1.0e-2
  have half := value (half_pos escape)
  have ratio := div_pos half greatest
  refine ⟨min (1 / 2) (dist_fun L M r (v_esc / 2) / max_finder (dist_fun L M r) 0.0
    (0.5 * v_esc) v_esc 10 1.0e-2 / 2), by positivity, ?_, ?_⟩
  · exact (min_le_left _ _).trans_lt (by norm_num)
  · intro stream k first second
    have below : stream (k + 1) < |dist_fun L M r (v_esc / 2) / max_finder (dist_fun L M r) 0.0
        (0.5 * v_esc) v_esc 10 1.0e-2| := by
      rw [second, abs_of_pos ratio]
      exact (min_le_right _ _).trans_lt (half_lt_self ratio)
    refine ⟨v_esc / 2, (half_pos escape).ne', ?_⟩
    rw [vel_mag, top]
    apply tries_of_eq
    rw [bind_of_eq (mwXrandom_unit ..), bind_of_eq (mwXrandom_unit ..)]
    have speed : stream k * v_esc = v_esc / 2 := by
      rw [first]
      ring
    rw [speed, mw_abs_eq, if_pos below]
    rfl

theorem r_mag_eq {D : DwarfLibm ℝ} {comp : Dwarf ℝ} {bound greatest density x : ℝ}
    (point : stream k * bound = x) (found : get_density D comp x = some density)
    (accepted : stream (k + 1) < x * x * density / greatest) :
    r_mag D stream comp greatest bound k = some (x, k + 2) := by
  apply tries_of_eq
  rw [bind_of_eq (mwXrandom_unit ..), bind_of_eq (mwXrandom_unit ..)]
  have lifted : Draw.lift (some density) (k + 1 + 1) = some (density, k + 1 + 1) := rfl
  rw [point, found, bind_of_eq lifted, if_pos accepted]
  rfl

theorem get_components_eq (patience : ℕ) (rad : ℝ) (first : stream k = 3 / 4)
    (second : stream (k + 1) = 3 / 4) (third : stream (k + 1 + 1) = 3 / 4) :
    ∃ vec, get_components L stream patience rad k = some (vec, k + 3) := by
  have point : mwRandomUnitPoint stream k = some (⟨1 / 2, 1 / 2, 1 / 2⟩, k + 3) := by
    rw [mwRandomUnitPoint, bind_of_eq (mwXrandom_eq ..), bind_of_eq (mwXrandom_eq ..),
      bind_of_eq (mwXrandom_eq ..), first, second, third]
    norm_num
    rfl
  have inside : ¬(1.0 : ℝ) < mw_sqrv ⟨1 / 2, 1 / 2, 1 / 2⟩ := by norm_num [mw_sqrv]
  let scaled := 1 / 2 * (rad / L.sqrt (mw_sqrv ⟨1 / 2, 1 / 2, 1 / 2⟩))
  refine ⟨⟨scaled, scaled, scaled⟩, ?_⟩
  apply tries_of_eq
  rw [bind_of_eq point, if_neg inside]
  rfl

/-! ## Cusps -/

theorem stencil_cusp {h x : ℝ} (step : 0 < h) (far : 10 * h < x) :
    stencil h (fun y => 1 / (y * (1 + y) ^ 2)) x < 0 := by
  have pair {d : ℝ} (inside : d < x) (nonneg : 0 ≤ d) :
      1 / ((x - d) * (1 + (x - d)) ^ 2) - 1 / ((x + d) * (1 + (x + d)) ^ 2) =
        2 * d * (2 * x * (1 + x) + (1 + x) ^ 2 + d ^ 2) /
          ((x ^ 2 - d ^ 2) * ((1 + x) ^ 2 - d ^ 2) ^ 2) := by
    have factor : x ^ 2 - d ^ 2 = (x - d) * (x + d) := by ring
    have factor' : (1 + x) ^ 2 - d ^ 2 = (1 + (x - d)) * (1 + (x + d)) := by ring
    have left : x - d ≠ 0 := by linarith
    have right : x + d ≠ 0 := by linarith
    have left' : 1 + (x - d) ≠ 0 := by linarith
    have right' : 1 + (x + d) ≠ 0 := by linarith
    rw [factor, factor']
    field_simp
    ring
  have square : 100 * h ^ 2 < x ^ 2 := by
    have bound := pow_lt_pow_left₀ far (by linarith) two_ne_zero
    linarith
  have square' : x ^ 2 < (1 + x) ^ 2 := pow_lt_pow_left₀ (by linarith) (by linarith) two_ne_zero
  have product : 0 < 2 * x * (1 + x) := by
    have x_pos : 0 < x := by linarith
    positivity
  have step' := pow_pos step 2
  have whole : stencil h (fun y => 1 / (y * (1 + y) ^ 2)) x =
      4 * h * (2 * x * (1 + x) + (1 + x) ^ 2 + (2 * h) ^ 2) /
          ((x ^ 2 - (2 * h) ^ 2) * ((1 + x) ^ 2 - (2 * h) ^ 2) ^ 2) -
        16 * h * (2 * x * (1 + x) + (1 + x) ^ 2 + h ^ 2) /
          ((x ^ 2 - h ^ 2) * ((1 + x) ^ 2 - h ^ 2) ^ 2) := by
    have outer := pair (d := 2 * h) (by linarith) (by linarith)
    have inner := pair (d := h) (by linarith) step.le
    simp only [stencil]
    linear_combination outer - 8 * inner
  -- each factor changes by less than a tenth
  have a_le : 2 * x * (1 + x) + (1 + x) ^ 2 + (2 * h) ^ 2 ≤
      11 / 10 * (2 * x * (1 + x) + (1 + x) ^ 2 + h ^ 2) := by linarith
  have b_le : x ^ 2 - h ^ 2 ≤ 11 / 10 * (x ^ 2 - (2 * h) ^ 2) := by linarith
  have c_le : (1 + x) ^ 2 - h ^ 2 ≤ 11 / 10 * ((1 + x) ^ 2 - (2 * h) ^ 2) := by linarith
  have a_pos : 0 < 2 * x * (1 + x) + (1 + x) ^ 2 + (2 * h) ^ 2 := by linarith
  have a_pos' : 0 < 2 * x * (1 + x) + (1 + x) ^ 2 + h ^ 2 := by linarith
  have b_pos : 0 < x ^ 2 - h ^ 2 := by linarith
  have b_pos' : 0 < x ^ 2 - (2 * h) ^ 2 := by linarith
  have c_pos : 0 < (1 + x) ^ 2 - h ^ 2 := by linarith
  have c_pos' : 0 < (1 + x) ^ 2 - (2 * h) ^ 2 := by linarith
  rw [whole, sub_neg, div_lt_div_iff₀ (by positivity) (by positivity)]
  generalize 2 * x * (1 + x) + (1 + x) ^ 2 + (2 * h) ^ 2 = a at *
  generalize 2 * x * (1 + x) + (1 + x) ^ 2 + h ^ 2 = a' at *
  generalize x ^ 2 - h ^ 2 = b at *
  generalize x ^ 2 - (2 * h) ^ 2 = b' at *
  generalize (1 + x) ^ 2 - h ^ 2 = c at *
  generalize (1 + x) ^ 2 - (2 * h) ^ 2 = c' at *
  have tenths : a * (b * c ^ 2) ≤ 11 / 10 * a' * (11 / 10 * b' * (11 / 10 * c') ^ 2) := by
    gcongr
  have positive : 0 < h * (a' * (b' * c' ^ 2)) := by positivity
  calc 4 * h * a * (b * c ^ 2) = 4 * h * (a * (b * c ^ 2)) := by ring
    _ ≤ 4 * h * (11 / 10 * a' * (11 / 10 * b' * (11 / 10 * c') ^ 2)) := by gcongr
    _ < 16 * h * a' * (b' * c' ^ 2) := by linarith

theorem stencil₂_line_mul_cusp {h x : ℝ} (step : 0 < h) (far : 10 * h < x) (small : h ≤ 1 / 10) :
    0 < stencil₂ h (fun y => (1 + y) * (1 / (y * (1 + y) ^ 2))) x := by
  have split {y : ℝ} (positive : 0 < y) : (1 + y) * (1 / (y * (1 + y) ^ 2)) =
      (0 + 1 * y)⁻¹ - (1 + 1 * y)⁻¹ := by
    have other : 1 + y ≠ 0 := by linarith
    rw [zero_add, one_mul]
    field_simp
    ring
  have parts : stencil₂ h (fun y => (1 + y) * (1 / (y * (1 + y) ^ 2))) x =
      stencil₂ h (fun y => (0 + 1 * y)⁻¹) x - stencil₂ h (fun y => (1 + 1 * y)⁻¹) x := by
    simp only [stencil₂]
    rw [split (y := x + 2 * h) (by linarith), split (y := x + h) (by linarith),
      split (y := x) (by linarith), split (y := x - h) (by linarith),
      split (y := x - 2 * h) (by linarith)]
    ring
  rw [parts, (stencil_reciprocal 0 1 (by rw [one_mul, abs_of_pos step]; linarith)).2,
    (stencil_reciprocal 1 1 (by rw [one_mul, abs_of_pos step]; linarith)).2]
  rw [zero_add, one_mul, one_mul, sub_pos]
  have below := reciprocalFactor_anti step.le (by linarith) (show x ≤ 1 + x by linarith)
  have factor := reciprocalFactor_pos step.le (show 5 / 2 * h < x by linarith)
  calc 24 * h ^ 2 * reciprocalFactor h (1 + x) / (1 + x)
      ≤ 24 * h ^ 2 * reciprocalFactor h x / (1 + x) := by
        have other : 0 < 1 + x := by linarith
        gcongr
    _ < 24 * h ^ 2 * reciprocalFactor h x / x :=
        div_lt_div_of_pos_left (by positivity) (by linarith) (by linarith)

theorem stencil_sharp_cusp {h x : ℝ} (step : 0 < h) (far : 10 * h < x) :
    stencil h (fun y => 1 / (y * (1 + y) ^ 3)) x < 0 := by
  have falls {y z : ℝ} (positive : 0 < y) (le : y ≤ z) :
      1 / (z * (1 + z) ^ 3) ≤ 1 / (y * (1 + y) ^ 3) := by
    have positive' : 0 < z := by linarith
    gcongr
  -- over twice the step the function changes by less than a factor of four
  have near : 1 / ((x - 2 * h) * (1 + (x - 2 * h)) ^ 3) ≤
      4 * (1 / ((x - h) * (1 + (x - h)) ^ 3)) := by
    have inside : 0 < x - 2 * h := by linarith
    have inside' : 0 < x - h := by linarith
    rw [mul_one_div, div_le_div_iff₀ (by positivity) (by positivity)]
    have first : x - h ≤ 9 / 8 * (x - 2 * h) := by linarith
    have second : 1 + (x - h) ≤ 9 / 8 * (1 + (x - 2 * h)) := by linarith
    calc 1 * ((x - h) * (1 + (x - h)) ^ 3)
        ≤ 1 * (9 / 8 * (x - 2 * h) * (9 / 8 * (1 + (x - 2 * h))) ^ 3) := by gcongr
      _ = (9 / 8) ^ 4 * ((x - 2 * h) * (1 + (x - 2 * h)) ^ 3) := by ring
      _ ≤ 4 * ((x - 2 * h) * (1 + (x - 2 * h)) ^ 3) := by
          gcongr
          norm_num
  have beyond := falls (y := x + h) (z := x + 2 * h) (by linarith) (by linarith)
  have above : 0 < 1 / ((x + h) * (1 + (x + h)) ^ 3) := by
    have inside : 0 < x + h := by linarith
    positivity
  have product : stencil h (fun y => (1 + y) * (1 / (y * (1 + y) ^ 3))) x < 0 := by
    have value {y : ℝ} (positive : 0 < y) : (1 + y) * (1 / (y * (1 + y) ^ 3)) =
        1 / (y * (1 + y) ^ 2) := by
      field_simp
    have cusp := stencil_cusp step far
    simp only [stencil] at cusp ⊢
    rw [value (y := x - 2 * h) (by linarith), value (y := x - h) (by linarith),
      value (y := x + h) (by linarith), value (y := x + 2 * h) (by linarith)]
    exact cusp
  rw [stencil_line_mul] at product
  have rest : 0 ≤ 2 * h *
      (4 * (1 / ((x - h) * (1 + (x - h)) ^ 3) + 1 / ((x + h) * (1 + (x + h)) ^ 3)) -
        (1 / ((x - 2 * h) * (1 + (x - 2 * h)) ^ 3) + 1 / ((x + 2 * h) * (1 + (x + 2 * h)) ^ 3))) :=
    mul_nonneg (by linarith) (by linarith)
  have scaled : (1 + x) * stencil h (fun y => 1 / (y * (1 + y) ^ 3)) x < 0 := by linarith
  exact neg_of_mul_neg_right scaled (by linarith)

theorem stencil₂_line_mul_sharp_cusp {h x : ℝ} (step : 0 < h) (far : 10 * h < x)
    (small : h ≤ 1 / 10) : 0 < stencil₂ h (fun y => (1 + y) * (1 / (y * (1 + y) ^ 3))) x := by
  have value {y : ℝ} (positive : 0 < y) : (1 + y) * (1 / (y * (1 + y) ^ 3)) =
      1 / (y * (1 + y) ^ 2) := by
    field_simp
  have same : stencil₂ h (fun y => (1 + y) * (1 / (y * (1 + y) ^ 3))) x =
      stencil₂ h (fun y => 1 / (y * (1 + y) ^ 2)) x := by
    simp only [stencil₂]
    rw [value (y := x - 2 * h) (by linarith), value (y := x - h) (by linarith),
      value (y := x) (by linarith), value (y := x + h) (by linarith),
      value (y := x + 2 * h) (by linarith)]
  have product := stencil₂_line_mul_cusp step far small
  have cusp := mul_neg_of_pos_of_neg (mul_pos two_pos step) (stencil_cusp step far)
  rw [stencil₂_line_mul] at product
  have scaled : 0 < (1 + x) * stencil₂ h (fun y => 1 / (y * (1 + y) ^ 2)) x := by linarith
  rw [same]
  exact pos_of_mul_pos_right scaled (by linarith)

theorem first_derivative_eq (f : ℝ → ℝ) (x : ℝ) :
    first_derivative f x = stencil 0.001 f x / (12 * 0.001) := by
  simp only [first_derivative, stencil, inv]
  norm_num
  ring

theorem second_derivative_eq (f : ℝ → ℝ) (x : ℝ) :
    second_derivative f x = stencil₂ 0.001 f x / (12 * 0.001 ^ 2) := by
  simp only [second_derivative, stencil₂, inv]
  norm_num
  ring

section
variable {D : DwarfLibm ℝ} {c : Dwarf ℝ}

/-- Two equal components of scale 1: what is asked of the differences, by their stencils. -/
theorem steep_of_stencils (scale : c.scaleLength = 1)
    (decreasing : ∀ x y, 0 < x → x < y →
      (mixedSpeeds D c c).potential y < (mixedSpeeds D c c).potential x)
    (falls : ∀ x, 1 / 2 ≤ x → stencil 0.001 (mixedSpeeds D c c).potential x < 0)
    (falls' : ∀ x, 1 / 2 ≤ x → stencil 0.001 (mixedSpeeds D c c).density x < 0)
    (concave : ∀ x, 1 / 2 ≤ x →
      stencil₂ 0.001 (fun y => (1 + y) * (mixedSpeeds D c c).potential y) x ≤ 0)
    (convex : ∀ x, 1 / 2 ≤ x →
      0 < stencil₂ 0.001 (fun y => (1 + y) * (mixedSpeeds D c c).density y) x)
    (centre : (mixedSpeeds D c c).isnan 0 = true ∨
      ∀ y, 0 < y → (mixedSpeeds D c c).potential y < (mixedSpeeds D c c).potential 0) :
    Steep (mixedSpeeds D c c) (1 / 2) := by
  refine ⟨decreasing, fun x far => ?_, fun x far => ?_, centre, ?_, ?_, ?_, ?_⟩
  · rw [first_derivative_eq]
    exact div_neg_of_neg_of_pos (falls x far) (by norm_num)
  · have sign := stencil_sign (by linarith) (falls x far) (falls' x far) (concave x far)
      (convex x far)
    rw [first_derivative_eq, first_derivative_eq, second_derivative_eq, second_derivative_eq,
      div_mul_div_comm, div_mul_div_comm, mul_comm (12 * 0.001 : ℝ), ← sub_div]
    exact div_neg_of_neg_of_pos sign (by norm_num)
  · norm_num [mixedSpeeds, scale]
  · simp only [mixedSpeeds]
    norm_num
  · simp only [mixedSpeeds]
    norm_num
  · simp only [mixedSpeeds]
    norm_num

end

/-! ## Two equal halos -/

theorem log_div_strictAnti {x y : ℝ} (positive : 0 < x) (lt : x < y) :
    Real.log (1 + y) / y < Real.log (1 + x) / x := by
  have secant := strictConcaveOn_log_Ioi.secant_strict_mono (a := 1) (x := 1 + x) (y := 1 + y)
    (Set.mem_Ioi.mpr one_pos) (Set.mem_Ioi.mpr (by linarith)) (Set.mem_Ioi.mpr (by linarith))
    (by linarith) (by linarith) (by linarith)
  simpa using secant

section
variable {D : DwarfLibm ℝ} {c : Dwarf ℝ} (real : RealDwarfLibm D) (kind : c.type = .nfw)
  (scale : c.scaleLength = 1)
include kind scale

include real in
theorem potential_halos : (mixedSpeeds D c c).potential =
    fun r => 8 * D.M_PI * c.p0 * (Real.log (1 + r) / r) := by
  funext r
  have one : (1.0 : ℝ) = 1 := by norm_num
  simp only [mixedSpeeds, overComponents, get_potential, kind, Option.getD_some, nfw_pot, scale,
    real.log, inv, sqr, one, div_one, mul_one]
  norm_num
  ring

theorem density_halos : (mixedSpeeds D c c).density =
    fun r => 2 * c.p0 * (1 / (r * (1 + r) ^ 2)) := by
  funext r
  have scaled : 0 < c.scaleLength := scale ▸ one_pos
  simp only [mixedSpeeds, overComponents, get_density, kind, Option.getD_some, nfw_den_eq scaled,
    scale]
  ring

include real in
theorem steep_halos (dense : 0 < c.p0) : Steep (mixedSpeeds D c c) (1 / 2) := by
  have pi := real.M_PI
  have strength : 0 < 8 * D.M_PI * c.p0 := by positivity
  have step : (0 : ℝ) < 0.001 := by norm_num
  refine steep_of_stencils scale (fun x y positive lt => ?_) (fun x far => ?_) (fun x far => ?_)
    (fun x far => ?_) (fun x far => ?_) (.inl (by norm_num [mixedSpeeds, kind]))
  · rw [potential_halos real kind scale]
    exact mul_lt_mul_of_pos_left (log_div_strictAnti positive lt) strength
  · rw [potential_halos real kind scale, stencil_const_mul]
    exact mul_neg_of_pos_of_neg strength
      (stencil_log_div step (by norm_num) (by norm_num; linarith))
  · rw [density_halos kind scale, stencil_const_mul]
    exact mul_neg_of_pos_of_neg (by positivity) (stencil_cusp step (by norm_num; linarith))
  · have order (y : ℝ) : (1 + y) * (mixedSpeeds D c c).potential y =
        8 * D.M_PI * c.p0 * ((1 + y) * (Real.log (1 + y) / y)) := by
      rw [potential_halos real kind scale]
      ring
    simp only [order]
    rw [stencil₂_const_mul]
    exact mul_nonpos_of_nonneg_of_nonpos strength.le
      (stencil₂_line_mul_log_div step (by norm_num) (by norm_num; linarith))
  · have order (y : ℝ) : (1 + y) * (mixedSpeeds D c c).density y =
        2 * c.p0 * ((1 + y) * (1 / (y * (1 + y) ^ 2))) := by
      rw [density_halos kind scale]
      ring
    simp only [order]
    rw [stencil₂_const_mul]
    exact mul_pos (by positivity)
      (stencil₂_line_mul_cusp step (by norm_num; linarith) (by norm_num))

end

/-! ## Two equal Hernquist spheres -/

section
variable {D : DwarfLibm ℝ} {c : Dwarf ℝ} (real : RealDwarfLibm D)
  (kind : c.type = .general_hernquist) (scale : c.scaleLength = 1)
include kind scale

theorem potential_hernquist :
    (mixedSpeeds D c c).potential = fun r => 2 * c.mass * (1 + 1 * r)⁻¹ := by
  funext r
  simp only [mixedSpeeds, overComponents, get_potential, kind, Option.getD_some, gen_hern_pot,
    scale]
  ring

include real in
theorem density_hernquist :
    (mixedSpeeds D c c).density = fun r => c.mass / D.M_PI * (1 / (r * (1 + r) ^ 3)) := by
  funext r
  have pi := real.M_PI
  simp only [mixedSpeeds, overComponents, get_density, kind, Option.getD_some,
    gen_hern_den_eq real, scale]
  ring

include real in
theorem steep_hernquist (massive : 0 < c.mass) : Steep (mixedSpeeds D c c) (1 / 2) := by
  have pi := real.M_PI
  have step : (0 : ℝ) < 0.001 := by norm_num
  have strength : 0 < 2 * c.mass := by positivity
  refine steep_of_stencils scale (fun x y positive lt => ?_) (fun x far => ?_) (fun x far => ?_)
    (fun x far => ?_) (fun x far => ?_) (.inr fun y positive => ?_)
  · rw [potential_hernquist kind scale]
    dsimp only
    gcongr
  · rw [potential_hernquist kind scale, stencil_const_mul,
      (stencil_reciprocal 1 1 (by norm_num [abs_of_pos]; linarith)).1]
    have factor := reciprocalFactor_pos (d := 1 * 0.001) (u := 1 + 1 * x) (by norm_num)
      (by norm_num; linarith)
    have scaled : 0 < 12 * (1 * 0.001) * reciprocalFactor (1 * 0.001) (1 + 1 * x) :=
      mul_pos (by norm_num) factor
    exact mul_neg_of_pos_of_neg strength (neg_lt_zero.mpr scaled)
  · rw [density_hernquist real kind scale, stencil_const_mul]
    exact mul_neg_of_pos_of_neg (by positivity) (stencil_sharp_cusp step (by norm_num; linarith))
  · -- along the line the potential is level
    have level {y : ℝ} (positive : 0 < y) : (1 + y) * (2 * c.mass * (1 + 1 * y)⁻¹) =
        2 * c.mass := by
      rw [one_mul]
      field_simp
    rw [potential_hernquist kind scale]
    simp only [stencil₂]
    norm_num at *
    rw [level (by linarith), level (by linarith), level (by linarith), level (by linarith),
      level (by linarith)]
    linarith
  · have order (y : ℝ) : (1 + y) * (c.mass / D.M_PI * (1 / (y * (1 + y) ^ 3))) =
        c.mass / D.M_PI * ((1 + y) * (1 / (y * (1 + y) ^ 3))) := by ring
    rw [density_hernquist real kind scale]
    simp only [order]
    rw [stencil₂_const_mul]
    exact mul_pos (by positivity)
      (stencil₂_line_mul_sharp_cusp step (by norm_num; linarith) (by norm_num))
  · rw [potential_hernquist kind scale]
    dsimp only
    gcongr

end

/-! ## Runs -/

/-- A halo whose radius comes out as its scale. -/
noncomputable def unitHalo : Dwarf ℝ := ⟨.nfw, vol_pcrit, 1, 0, 0, 0⟩

/-- What the generator makes of it. -/
noncomputable def boundHalo (D : DwarfLibm ℝ) : Dwarf ℝ :=
  get_extra_nfw_mass D (set_p0 D unitHalo) (5.0 * (set_p0 D unitHalo).r200)

noncomputable def unitHernquist : Dwarf ℝ := ⟨.general_hernquist, 1, 1, 0, 0, 0⟩

open Foundation.Numerals in
/-- Ten numbers for each body: its distance is `share` of the bound, and its speed is half of
the greatest one. -/
noncomputable def runStream (share ε : ℝ) (k : ℕ) : ℝ :=
  if k % 10 = 0 then share else if k % 10 ≤ 2 then 1 / 2 else if k % 10 = 3 then ε else 3 / 4

variable {D : DwarfLibm ℝ} {share ε : ℝ}

theorem runStream_unit (unit : 0 < share ∧ share < 1) (positive : 0 < ε) (below : ε < 1) (k : ℕ) :
    0 < runStream share ε k ∧ runStream share ε k < 1 := by
  unfold runStream
  split_ifs
  · exact unit
  · norm_num
  · exact ⟨positive, below⟩
  · norm_num

theorem unitHalo_r200 (real : RealDwarfLibm D) : (set_p0 D unitHalo).r200 = 1 := by
  have volume : (vol_pcrit : ℝ) ≠ 0 := by
    rw [vol_pcrit]
    norm_num
  have root := real.cbrt (vol_pcrit / vol_pcrit)
  rw [div_self volume, cube, ← sq, ← pow_succ] at root
  change D.cbrt (vol_pcrit / vol_pcrit) = 1
  rw [div_self volume]
  exact (pow_eq_one_iff_of_ne_zero (by norm_num)).mp root |>.resolve_right
    fun other => absurd other.2 (by decide)

variable {comp c : Dwarf ℝ} {bound greatest density : ℝ}

theorem particle_turn (point : share * bound = 1) (found : get_density D c 1 = some density)
    (accepted : 1 / 2 < density / greatest) {M : SpeedModel ℝ}
    (speed : ∀ stream k, stream k = 1 / 2 → stream (k + 1) = ε →
      ∃ v, v ≠ 0 ∧ vel_mag D.toLibm M stream 1 k = some (v, k + 2)) (i : ℕ) :
    ∃ v pos vel,
      drawNonzero (r_mag D (runStream share ε) c greatest bound) (10 * i) =
        some (1, 10 * i + 2) ∧
      drawNonzero (vel_mag D.toLibm M (runStream share ε) 1) (10 * i + 2) =
        some (v, 10 * i + 4) ∧
      get_components D.toLibm (runStream share ε) 0 v (10 * i + 4) = some (vel, 10 * i + 7) ∧
      get_components D.toLibm (runStream share ε) 0 1 (10 * i + 7) = some (pos, 10 * i + 10) := by
  have at_place {j : ℕ} (small : j < 10) : (10 * i + j) % 10 = j := by omega
  have three {j : ℕ} (high : 3 < j) (small : j < 10) :
      runStream share ε (10 * i + j) = 3 / 4 := by
    unfold runStream
    rw [at_place small, if_neg (by omega), if_neg (by omega), if_neg (by omega)]
  obtain ⟨v, moving, drawn⟩ := speed (runStream share ε) (10 * i + 2)
    (by unfold runStream; rw [at_place (by omega), if_neg (by omega), if_pos (by omega)])
    (by unfold runStream; rw [Nat.add_assoc, at_place (by omega), if_neg (by omega),
      if_neg (by omega), if_pos (by omega)])
  obtain ⟨vel, vel_drawn⟩ := get_components_eq (L := D.toLibm) 0 v (three (j := 4) (by omega)
    (by omega)) (three (j := 5) (by omega) (by omega)) (three (j := 6) (by omega) (by omega))
  obtain ⟨pos, pos_drawn⟩ := get_components_eq (L := D.toLibm) 0 1 (three (j := 7) (by omega)
    (by omega)) (three (j := 8) (by omega) (by omega)) (three (j := 9) (by omega) (by omega))
  refine ⟨v, pos, vel, drawNonzero_eq one_ne_zero ?_, drawNonzero_eq moving drawn, vel_drawn,
    pos_drawn⟩
  refine r_mag_eq ?_ found ?_
  · have draw : runStream share ε (10 * i) = share := by
      unfold runStream
      rw [if_pos (by omega)]
    rw [draw]
    exact point
  · have draw : runStream share ε (10 * i + 1) = 1 / 2 := by
      unfold runStream
      rw [at_place (by omega), if_neg (by omega), if_pos (by omega)]
    rw [draw, one_mul, one_mul]
    exact accepted

theorem drawTables_succeeds (half nbody : ℕ) (light dark : ℝ) {radius : Draw ℝ}
    {speed : ℝ → Draw ℝ} {components : ℝ → Draw (Vec3 ℝ)} (place : ℕ → ℕ)
    (turn : ∀ i, ∃ r v vel pos k₁ k₂ k₃, drawNonzero radius (place i) = some (r, k₁) ∧
      drawNonzero (speed r) k₁ = some (v, k₂) ∧ components v k₂ = some (vel, k₃) ∧
      components r k₃ = some (pos, place (i + 1))) :
    ∃ t, drawTables half nbody light dark radius radius speed components (place 0) =
      some (t, place nbody) := by
  refine foldlM_draw_succeeds place (fun i t => ?_) nbody _
  obtain ⟨r, v, vel, pos, k₁, k₂, k₃, first, second, third, fourth⟩ := turn i
  refine ⟨{ pos := Function.update t.pos i pos, vel := Function.update t.vel i vel,
            masses := Function.update t.masses i (if i < half then light else dark) }, ?_⟩
  rw [ite_self, bind_of_eq first, bind_of_eq second, bind_of_eq third, bind_of_eq fourth]
  rfl

/-- Two equal components that the distance 1 is accepted of and of which the differences have
the signs of the derivatives: there are numbers of which any number of bodies is generated. -/
theorem exists_run_of_steep (real : RealDwarfLibm D) (nbody : ℕ) (rShift vShift : Vec3 ℝ)
    (bounded : boundComponent D (set_p0 D comp) comp.scaleLength comp.scaleLength =
      some (c, bound)) (peak : rho_max D c = some greatest) (unit : 0 < share ∧ share < 1)
    (point : share * bound = 1) (found : get_density D c 1 = some density)
    (accepted : 1 / 2 < density / greatest) (steep : Steep (mixedSpeeds D c c) (1 / 2))
    (bright : 0 < (mixedSpeeds D c c).potential 1) :
    ∃ stream bodies k, (∀ i, 0 < stream i ∧ stream i < 1) ∧
      nbGenerateMixedDwarfCore D stream 0 nbody comp comp rShift vShift 0 =
        some ((bodies, c, c), k) := by
  have escape : 0 < (mixedSpeeds D c c).escape
      (D.sqrt (mw_abs (2.0 * (mixedSpeeds D c c).potential 1))) := by
    have inside : 0 < 2.0 * (mixedSpeeds D c c).potential 1 := mul_pos (by norm_num) bright
    rw [real.sqrt, mw_abs_eq, abs_of_pos inside]
    exact mul_pos (by norm_num) (Real.sqrt_pos.mpr inside)
  obtain ⟨ε, positive, below, speed⟩ := exists_vel_mag real.sqrt steep (by norm_num) le_rfl escape
  have lifted {α : Type} (a : α) (k : ℕ) : Draw.lift (some a) k = some (a, k) := rfl
  let particle := c.mass / (0.5 * (nbody : ℝ))
  obtain ⟨t, drawn⟩ := drawTables_succeeds (nbody / 2) nbody particle particle
    (fun i => 10 * i) fun i => by
      obtain ⟨v, pos, vel, first, second, third, fourth⟩ :=
        particle_turn point found accepted speed i
      exact ⟨1, v, vel, pos, _, _, _, first, second, third, fourth⟩
  let light := cm_correction_by_comp t rShift vShift c.mass 0 (nbody / 2)
  let both := cm_correction_by_comp light rShift vShift c.mass (nbody / 2) nbody
  refine ⟨runStream share ε, (List.range nbody).map (makeBody both (nbody / 2)), 10 * nbody,
    runStream_unit unit positive below, ?_⟩
  rw [nbGenerateMixedDwarfCore, bounded]
  refine (bind_of_eq (lifted _ _)).trans ((bind_of_eq (lifted _ _)).trans ?_)
  dsimp only
  rw [peak, bind_of_eq (lifted _ _), bind_of_eq (lifted _ _)]
  exact bind_of_eq drawn

theorem exists_run (real : RealDwarfLibm D) (nbody : ℕ) (rShift vShift : Vec3 ℝ) :
    ∃ stream bodies k, (∀ i, 0 < stream i ∧ stream i < 1) ∧
      nbGenerateMixedDwarfCore D stream 0 nbody unitHalo unitHalo rShift vShift 0 =
        some ((bodies, boundHalo D, boundHalo D), k) := by
  have volume : (0 : ℝ) < vol_pcrit := by
    rw [vol_pcrit]
    norm_num
  have dense : 0 < (boundHalo D).p0 := by
    change 0 < (set_p0 D unitHalo).p0
    exact set_p0_pos real volume one_pos
  have scaled : 0 < (boundHalo D).scaleLength := one_pos
  have nonzero : nfw_den (boundHalo D) 1 ≠ 0 := by
    rw [nfw_den_eq scaled]
    positivity
  have share : (1 / 5 : ℝ) * (5.0 * (set_p0 D unitHalo).r200) = 1 := by
    rw [unitHalo_r200 real]
    norm_num
  have accepted : 1 / 2 < nfw_den (boundHalo D) 1 / (sqr 1 * nfw_den (boundHalo D) 1) := by
    rw [sqr, one_mul, one_mul, div_self nonzero]
    norm_num
  have bright : 0 < (mixedSpeeds D (boundHalo D) (boundHalo D)).potential 1 := by
    have pi := real.M_PI
    have logarithm : 0 < Real.log (1 + 1) := Real.log_pos (by norm_num)
    rw [potential_halos real (c := boundHalo D) rfl rfl]
    norm_num at logarithm ⊢
    positivity
  exact exists_run_of_steep real nbody rShift vShift rfl rfl ⟨by norm_num, by norm_num⟩ share rfl
    accepted (steep_halos real rfl rfl dense) bright

theorem exists_run_hernquist (real : RealDwarfLibm D) (nbody : ℕ) (rShift vShift : Vec3 ℝ) :
    ∃ stream bodies k, (∀ i, 0 < stream i ∧ stream i < 1) ∧
      nbGenerateMixedDwarfCore D stream 0 nbody unitHernquist unitHernquist rShift vShift 0 =
        some ((bodies, set_p0 D unitHernquist, set_p0 D unitHernquist), k) := by
  have mass : (set_p0 D unitHernquist).mass = 1 := rfl
  have scale : (set_p0 D unitHernquist).scaleLength = 1 := rfl
  have share : (1 / 100 : ℝ) * (50.0 * (1 + 1)) = 1 := by norm_num
  have accepted : 1 / 2 < gen_hern_den D (set_p0 D unitHernquist) 1 /
      (sqr (1 / 2.0) * gen_hern_den D (set_p0 D unitHernquist) (1 / 2.0)) := by
    have pi := real.M_PI
    rw [gen_hern_den_eq real, gen_hern_den_eq real, mass, scale, sqr]
    norm_num
    field_simp
    norm_num
  have bright : 0 < (mixedSpeeds D (set_p0 D unitHernquist)
      (set_p0 D unitHernquist)).potential 1 := by
    rw [potential_hernquist rfl rfl, mass]
    norm_num
  exact exists_run_of_steep real nbody rShift vShift rfl rfl ⟨by norm_num, by norm_num⟩ share rfl
    accepted (steep_hernquist real rfl rfl one_pos) bright

/-! ## Even and odd numbers of bodies -/

theorem generators_conserve_two : ∃ stream bodies k,
    nbGenerateMixedDwarfCore realDwarfLibm stream 0 2 unitHalo unitHalo 0 0 0 =
      some ((bodies, boundHalo realDwarfLibm, boundHalo realDwarfLibm), k) ∧
    MixedConserved 2 (boundHalo realDwarfLibm).mass (boundHalo realDwarfLibm).mass 0 0 bodies := by
  obtain ⟨stream, bodies, k, unit, run⟩ := exists_run realDwarfLibm_real 2 0 0
  have conserved := (generators_conserve_iff realDwarfLibm_real (fun i => (unit i).1.le) le_rfl).1
  exact ⟨stream, bodies, k, run, (conserved _ _ _ _ _ _ _ _ _ _ run).mpr even_two⟩

/-- Of three bodies one is light, with two thirds of the mass, and two are dark, with four
thirds. -/
theorem three_bodies : ∃ stream bodies k, (∀ i, 0 < stream i ∧ stream i < 1) ∧
    nbGenerateMixedDwarfCore realDwarfLibm stream 0 3 unitHalo unitHalo 0 0 0 =
      some ((bodies, boundHalo realDwarfLibm, boundHalo realDwarfLibm), k) ∧
    totalMass (ofMatter false bodies) = 2 / 3 * (boundHalo realDwarfLibm).mass ∧
    totalMass (ofMatter true bodies) = 4 / 3 * (boundHalo realDwarfLibm).mass ∧
    ¬MixedConserved 3 (boundHalo realDwarfLibm).mass (boundHalo realDwarfLibm).mass 0 0 bodies := by
  obtain ⟨stream, bodies, k, unit, run⟩ := exists_run realDwarfLibm_real 3 0 0
  refine ⟨stream, bodies, k, unit, run, ?_⟩
  obtain ⟨t, shares, rfl⟩ := nbGenerateMixedDwarfCore_eq run
  have split (t' : DwarfTables ℝ) := ofMatter_makeBody t' (Nat.div_le_self 3 2)
  refine ⟨?_, ?_, ?_⟩
  · refine (congrArg totalMass (split _).1).trans ((totalMass_bodiesOf ..).trans ?_)
    refine shares.light.trans ?_
    norm_num
    ring
  · refine (congrArg totalMass (split _).2).trans ((totalMass_bodiesOf ..).trans ?_)
    refine shares.dark.trans ?_
    norm_num
    ring
  · rw [mixedConserved_iff shares (by omega)]
    rintro ⟨even, -⟩
    exact absurd even (by decide)

end MilkyWay.NBody
