import MilkyWay.Foundation.Drawing
import MilkyWay.NBody.DwarfPotential

/-! The speed of a body of a dwarf galaxy at a distance. Its distribution is an integral
of derivatives of the density with respect to the potential, by differences over five
points and a quadrature of three; a speed is drawn by rejection below the greatest value
that a search finds. -/

namespace MilkyWay.NBody

open Foundation

/-- The potential and the density of a dwarf galaxy, where the potential is not a number,
and what differs between the generators: the fraction of the escape speed, the end and the
resolution of the quadrature, and where the integral starts. -/
structure SpeedModel (R : Type) where
  potential : R → R
  density : R → R
  isnan : R → Bool
  mass_d : R
  rscale_l : R
  rscale_d : R
  escape : R → R
  benchmark : R
  resolution : R
  lowerlimit : R

structure QuadState (R : Type) where
  intv : R
  lowerg : R
  upperg : R
  hg : R

structure MaxState (R : Type) where
  x0 : R
  x1 : R
  x2 : R
  x3 : R
  profile_x1 : R
  profile_x2 : R

section
variable {R : Type} [Add R] [Sub R] [Mul R] [Div R] [OfScientific R]

def first_derivative [Neg R] (func : R → R) (x : R) : R :=
  let h := 0.001
  let p1 := 1.0 * func (x - 2.0 * h)
  let p2 := -8.0 * func (x - h)
  let p3 := -1.0 * func (x + 2.0 * h)
  let p4 := 8.0 * func (x + h)
  let denom := inv (12.0 * h)
  (p1 + p2 + p3 + p4) * denom

def second_derivative [Neg R] (func : R → R) (x : R) : R :=
  let h := 0.001
  let p1 := -1.0 * func (x + 2.0 * h)
  let p2 := 16.0 * func (x + h)
  let p3 := -30.0 * func x
  let p4 := 16.0 * func (x - h)
  let p5 := -1.0 * func (x - 2.0 * h)
  let denom := inv (12.0 * h * h)
  (p1 + p2 + p3 + p4 + p5) * denom

variable [Zero R] [Neg R] [LT R] [DecidableLT R]

def quadStep (func : R → R) (benchmark b resolution : R) (s : QuadState R) : QuadState R :=
  let c1 := 0.55555555555
  let c2 := 0.88888888888
  let c3 := 0.55555555555
  let x1 := -0.77459666924
  let x3 := 0.77459666924
  let coef2 := (s.lowerg + s.upperg) / 2.0
  let coef1 := (s.upperg - s.lowerg) / 2.0
  let x1n := coef1 * x1 + coef2
  let x2n := coef2
  let x3n := coef1 * x3 + coef2
  { intv := s.intv + c1 * func x1n * coef1 + c2 * func x2n * coef1 + c3 * func x3n * coef1
    lowerg := s.upperg
    upperg := s.upperg + s.hg
    hg := if benchmark < s.upperg then (b - benchmark) / resolution else s.hg }

def quadLoop [LE R] [DecidableLE R] (func : R → R) (benchmark b resolution lower upper : R) :
    ℕ → QuadState R → QuadState R
  | 0, s => quadStep func benchmark b resolution s
  | n + 1, s =>
    let s := quadStep func benchmark b resolution s
    if lower < upper ∧ upper ≤ s.lowerg ∨ upper < lower ∧ lower ≤ s.lowerg then s
    else quadLoop func benchmark b resolution lower upper n s

def gauss_quad [LE R] [DecidableLE R] (benchmarkFactor resolution : R) (func : R → R)
    (lower upper : R) : R :=
  let a := if upper < lower then upper else lower
  let b := if upper < lower then lower else upper
  let benchmark := benchmarkFactor * a
  let hg := (benchmark - a) / 100.0
  let s := quadLoop func benchmark b resolution lower upper 100001 ⟨0.0, a, a + hg, hg⟩
  if upper < lower then s.intv * -1.0 else s.intv

def maxStep (profile : R → R) (s : MaxState R) : MaxState R :=
  let RATIO := 0.61803399
  let RATIO_COMPLEMENT := 1.0 - RATIO
  if s.profile_x2 < s.profile_x1 then
    let x2 := RATIO * s.x2 + RATIO_COMPLEMENT * s.x3
    ⟨s.x1, s.x2, x2, s.x3, s.profile_x2, -profile x2⟩
  else
    let x1 := RATIO * s.x1 + RATIO_COMPLEMENT * s.x0
    ⟨s.x0, x1, s.x1, s.x2, -profile x1, s.profile_x1⟩

def maxLoop (profile : R → R) (tolerance : R) : ℕ → MaxState R → MaxState R
  | 0, s => s
  | n + 1, s =>
    if tolerance * (mw_abs s.x1 + mw_abs s.x2) < mw_abs (s.x3 - s.x0) then
      maxLoop profile tolerance n (maxStep profile s)
    else s

def max_finder (profile : R → R) (a b c : R) (limit : ℕ) (tolerance : R) : R :=
  let RATIO := 0.61803399
  let RATIO_COMPLEMENT := 1.0 - RATIO
  let wide := mw_abs (b - a) < mw_abs (b - c)
  let x1 := if wide then b else b - RATIO_COMPLEMENT * (b - a)
  let x2 := if wide then b + RATIO_COMPLEMENT * (c - b) else b
  let s := maxLoop profile tolerance (limit + 1) ⟨a, x1, x2, c, -profile x1, -profile x2⟩
  if s.profile_x1 < s.profile_x2 then -s.profile_x1 else -s.profile_x2

def bisect (func : R → R) (function_value : R) : ℕ → R → R → R
  | 0, lower, upper => (lower + upper) / 2.0
  | n + 1, lower, upper =>
    let mid_point := (lower + upper) / 2.0
    let mid_point_funcval := func mid_point - function_value
    if 0.0001 < mw_abs mid_point_funcval then
      if mid_point_funcval < 0.0 then bisect func function_value n mid_point upper
      else bisect func function_value n lower mid_point
    else mid_point

/-- A root in the first of four intervals with a change of sign, or zero. Where the
function is not a number the bound is shifted. -/
def root_finder [NatCast R] (func : R → R) (isnan : R → Bool)
    (function_value lower_bound upper_bound : R) : R :=
  let interval_bound := fun i : ℕ =>
    let bound := (upper_bound - lower_bound) * (i : R) / (4 : ℕ) + lower_bound
    if isnan bound then bound + 0.0001 else bound
  let value := fun i => func (interval_bound i) - function_value
  let rising := fun q => value q < 0 ∧ 0 < value (q + 1)
  let falling := fun q => 0 < value q ∧ value (q + 1) < 0
  match (List.range 4).find? fun q => rising q || falling q with
  | none => 0.0
  | some q =>
    if rising q then
      bisect func function_value 10000 (interval_bound q) (interval_bound (q + 1))
    else bisect func function_value 10000 (interval_bound (q + 1)) (interval_bound q)

variable [BEq R]

def dist_integrand (L : Libm R) (M : SpeedModel R) (energy ri : R) : R :=
  let first_deriv_psi := first_derivative M.potential ri
  let first_deriv_density := first_derivative M.density ri
  let second_deriv_psi := second_derivative M.potential ri
  let second_deriv_density := second_derivative M.density ri
  let first_deriv_psi := if first_deriv_psi == 0.0 then 1.0e-6 else first_deriv_psi
  let dsqden_dpsisq := second_deriv_density * inv first_deriv_psi -
    first_deriv_density * second_deriv_psi * inv (sqr first_deriv_psi)
  let diff := mw_abs (energy - M.potential ri)
  let denominator :=
    if diff != 0.0 then inv (L.sqrt diff)
    else inv (L.sqrt (mw_abs (energy - M.potential (ri + 0.0001))))
  dsqden_dpsisq * denominator

def searchRange (M : SpeedModel R) (energy : R) : ℕ → R → R
  | 0, search_range =>
    if energy < M.potential search_range then 100.0 * (M.rscale_l + M.rscale_d) else search_range
  | n + 1, search_range =>
    if energy < M.potential search_range then searchRange M energy n (100.0 * search_range)
    else search_range

/-- The root is sought repeatedly, with the same outcome; the distance stands in for one
that is not found. -/
def find_upperlimit_r [NatCast R] (M : SpeedModel R) (energy search_range r : R) : R :=
  let upperlimit_r := root_finder M.potential M.isnan energy 0.0 search_range
  mw_abs (if upperlimit_r != 0.0 then upperlimit_r else r)

/-- The distribution of speeds at a distance. -/
def dist_fun [LE R] [DecidableLE R] [NatCast R] (L : Libm R) (M : SpeedModel R) (r v : R) : R :=
  let cons := 0.03582244801567226
  let energy := M.potential r - 0.5 * v * v
  let search_range := searchRange M energy 101
    (20.0 * L.sqrt (mw_abs (sqr (M.mass_d / energy) - sqr M.rscale_d)))
  let upperlimit_r := find_upperlimit_r M energy search_range r
  let lowerlimit_r := M.lowerlimit * upperlimit_r
  v * v * cons *
    gauss_quad M.benchmark M.resolution (dist_integrand L M energy) lowerlimit_r upperlimit_r

def mwXrandom (stream : ℕ → R) (xl xh : R) : Draw R := do
  let u ← Draw.next stream
  return xl + (xh - xl) * u

/-- A speed below the escape speed, or zero if none was accepted. -/
def vel_mag [LE R] [DecidableLE R] [NatCast R] (L : Libm R) (M : SpeedModel R) (stream : ℕ → R)
    (r : R) : Draw R :=
  let v_esc := M.escape (L.sqrt (mw_abs (2.0 * M.potential r)))
  let dist_max := max_finder (dist_fun L M r) 0.0 (0.5 * v_esc) v_esc 10 1.0e-2
  tries (do
    let v := (← mwXrandom stream 0.0 1.0) * v_esc
    let u ← mwXrandom stream 0.0 1.0
    let d := dist_fun L M r v
    return if u < mw_abs (d / dist_max) then some v else none) (return 0.0) 1001

end

theorem mwXrandom_eq (stream : ℕ → ℝ) (xl xh : ℝ) (k : ℕ) :
    mwXrandom stream xl xh k = some (xl + (xh - xl) * stream k, k + 1) := rfl

theorem mwXrandom_unit (stream : ℕ → ℝ) (k : ℕ) :
    mwXrandom stream 0.0 1.0 k = some (stream k, k + 1) := by
  rw [mwXrandom_eq]
  norm_num

end MilkyWay.NBody
