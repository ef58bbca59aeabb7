import Mathlib
import MilkyWay.Foundation.Cube

/-! The leapfrog in a vector space: half a kick, a drift and half a kick by the field
at the new position. The merged scheme takes two half kicks at once and corrects the
velocity by the change of the acceleration one step later, so that its velocity lags
behind; the end of a step and its field determine its start. -/

namespace MilkyWay.Foundation.Leapfrog

variable {K E : Type*} [Field K] [AddCommGroup E] [Module K E]

@[ext] structure Phase (E : Type*) where
  pos : E
  vel : E

open Numerals in
def drift (h : K) (a : E) (p : Phase E) : Phase E :=
  ⟨p.pos + h • (p.vel + (h / 2) • a), p.vel + (h / 2) • a⟩

open Numerals in
def kick (h : K) (F : E → E) (p : Phase E) : Phase E := ⟨p.pos, p.vel + (h / 2) • F p.pos⟩

/-- A step that feels `a` at its start and the field `F` at its end. -/
def step (h : K) (a : E) (F : E → E) (p : Phase E) : Phase E := kick h F (drift h a p)

/-- A step in the field `F`. -/
def leap (h : K) (F : E → E) (p : Phase E) : Phase E := step h (F p.pos) F p

@[simp] theorem drift_pos (h : K) (a : E) (p : Phase E) :
    (drift h a p).pos = p.pos + h • (drift h a p).vel := rfl

@[simp] theorem kick_pos (h : K) (F : E → E) (p : Phase E) : (kick h F p).pos = p.pos := rfl

@[simp] theorem step_pos (h : K) (a : E) (F : E → E) (p : Phase E) :
    (step h a F p).pos = (drift h a p).pos := rfl

/-! ## The merged scheme -/

@[ext] structure Merged (E : Type*) where
  pos : E
  vel : E
  acc : E

open Numerals in
def correct (h : K) (F : E → E) (m : Merged E) : Merged E :=
  ⟨m.pos, m.vel + (h / 2) • (F m.pos - m.acc), F m.pos⟩

open Numerals in
/-- A drift between two half kicks by the same acceleration. -/
def integrate (h : K) (m : Merged E) : Merged E :=
  ⟨m.pos + h • (m.vel + (h / 2) • m.acc), m.vel + (h / 2) • m.acc + (h / 2) • m.acc, m.acc⟩

def merged (h : K) (F : E → E) (m : Merged E) : Merged E := integrate h (correct h F m)

open Numerals in
def lag (h : K) (F : E → E) (a : E) (p : Phase E) : Merged E :=
  ⟨p.pos, p.vel - (h / 2) • (F p.pos - a), a⟩

theorem correct_lag (h : K) (F : E → E) (a : E) (p : Phase E) :
    correct h F (lag h F a p) = ⟨p.pos, p.vel, F p.pos⟩ := by
  simp only [correct, lag, sub_add_cancel]

theorem merged_lag (h : K) (F : E → E) (a : E) (p : Phase E) :
    merged h F (lag h F a p) = lag h F (F p.pos) (leap h F p) := by
  rw [merged, correct_lag]
  simp only [integrate, lag, leap, step, kick, drift, smul_sub, Merged.mk.injEq, true_and, and_true]
  abel

/-- The acceleration that the velocity lags behind after some steps. -/
def before (h : K) (F : E → E) (p : Phase E) : ℕ → E
  | 0 => F p.pos
  | n + 1 => F ((leap h F)^[n] p).pos

theorem merged_iterate (h : K) (F : E → E) (p : Phase E) (n : ℕ) :
    (merged h F)^[n] ⟨p.pos, p.vel, F p.pos⟩ =
      lag h F (before h F p n) ((leap h F)^[n] p) := by
  induction n with
  | zero =>
      show (⟨p.pos, p.vel, F p.pos⟩ : Merged E) = lag h F (F p.pos) p
      rw [lag, sub_self, smul_zero, sub_zero]
  | succ n ih =>
      rw [Function.iterate_succ_apply', Function.iterate_succ_apply', ih, merged_lag]
      rfl

section
variable [CharZero K]

theorem half_smul_eq_zero {h : K} {a : E} : (h / 2) • a = 0 ↔ h = 0 ∨ a = 0 := by
  rw [smul_eq_zero, div_eq_zero_iff, or_iff_left (two_ne_zero : (2 : K) ≠ 0)]

theorem lag_vel_eq_iff {h : K} {F : E → E} {a : E} {p : Phase E} :
    (lag h F a p).vel = p.vel ↔ h = 0 ∨ F p.pos = a := by
  rw [lag, sub_eq_self, half_smul_eq_zero, sub_eq_zero]

/-! ## A field that does not change on the way -/

open Numerals in
/-- Where a body is after `n` steps under the constant acceleration `a`. -/
def parabola (h : K) (a : E) (p : Phase E) (n : ℕ) : Phase E :=
  ⟨p.pos + (n * h) • p.vel + (n * h * (n * h) / 2) • a, p.vel + (n * h) • a⟩

omit [CharZero K] in
theorem parabola_zero (h : K) (a : E) (p : Phase E) : parabola h a p 0 = p := by
  simp [parabola]

theorem drift_parabola (h : K) (a : E) (p : Phase E) (n : ℕ) :
    (drift h a (parabola h a p n)).pos = (parabola h a p (n + 1)).pos := by
  simp only [drift, parabola, Nat.cast_add, Nat.cast_one]
  match_scalars <;> field_simp
  ring

theorem step_parabola (h : K) {a : E} {F : E → E} (p : Phase E) (n : ℕ)
    (next : F (parabola h a p (n + 1)).pos = a) :
    step h a F (parabola h a p n) = parabola h a p (n + 1) := by
  ext1
  · exact drift_parabola h a p n
  · rw [step, kick, drift_parabola, next]
    simp only [drift, parabola, Nat.cast_add, Nat.cast_one]
    match_scalars <;> field_simp
    ring

theorem leap_iterate_parabola {h : K} {F : E → E} {p : Phase E} {n : ℕ}
    (rests : ∀ k ≤ n, F (parabola h (F p.pos) p k).pos = F p.pos) :
    (leap h F)^[n] p = parabola h (F p.pos) p n := by
  induction n with
  | zero => exact (parabola_zero h (F p.pos) p).symm
  | succ n ih =>
      rw [Function.iterate_succ_apply', ih fun k le => rests k (le.trans n.le_succ), leap,
        rests n n.le_succ]
      exact step_parabola h p n (rests (n + 1) le_rfl)

theorem unchanged_iff {h : K} {F : E → E} {p : Phase E} {n : ℕ} :
    (∀ k ≤ n, F ((leap h F)^[k] p).pos = before h F p k) ↔
      ∀ k ≤ n, F (parabola h (F p.pos) p k).pos = F p.pos := by
  constructor
  · intro unchanged
    have constant : ∀ k ≤ n, F ((leap h F)^[k] p).pos = F p.pos := by
      intro k le
      induction k with
      | zero => rfl
      | succ k ih => rw [unchanged (k + 1) le, before, ih (k.le_succ.trans le)]
    intro k
    induction k using Nat.strong_induction_on with
    | _ k ih =>
        intro le
        cases k with
        | zero => rw [parabola_zero]
        | succ k =>
            have onWay : (leap h F)^[k] p = parabola h (F p.pos) p k :=
              leap_iterate_parabola fun j j_le => ih j (Nat.lt_succ_of_le j_le) (by omega)
            have here : F (parabola h (F p.pos) p k).pos = F p.pos := ih k k.lt_succ_self (by omega)
            have there := constant (k + 1) le
            rwa [Function.iterate_succ_apply', onWay, leap, here, step_pos, drift_parabola] at there
  · intro rests k le
    rw [leap_iterate_parabola fun j j_le => rests j (j_le.trans le), rests k le]
    cases k with
    | zero => rfl
    | succ k =>
        rw [before, leap_iterate_parabola fun j j_le => rests j (by omega), rests k (by omega)]

end

/-! ## Going back -/

theorem step_cancel {h : K} {a b : E} {F : E → E} {p q : Phase E}
    (same : step h a F p = step h b F q) : drift h a p = drift h b q := by
  have pos : (step h a F p).pos = (step h b F q).pos := congrArg Phase.pos same
  rw [step_pos, step_pos] at pos
  have vel := congrArg Phase.vel same
  simp only [step, kick, pos, add_left_inj] at vel
  exact Phase.ext pos vel

theorem drift_cancel {h : K} {a b : E} {p q : Phase E} (same : drift h a p = drift h b q) :
    p.pos = q.pos ∧ p.vel + (h / 2) • a = q.vel + (h / 2) • b := by
  have pos := congrArg Phase.pos same
  have vel : p.vel + (h / 2) • a = q.vel + (h / 2) • b := congrArg Phase.vel same
  simp only [drift, vel, add_left_inj] at pos
  exact ⟨pos, vel⟩

theorem step_eq_iff {h : K} {a b : E} {F : E → E} {p q : Phase E} :
    step h a F p = step h b F q ↔
      p.pos = q.pos ∧ p.vel + (h / 2) • a = q.vel + (h / 2) • b := by
  constructor
  · intro same
    exact drift_cancel (step_cancel same)
  · rintro ⟨pos, vel⟩
    rw [step, step, drift, drift, pos, vel]

theorem step_acc_iff [CharZero K] {h : K} {a b : E} {F : E → E} {p : Phase E} :
    step h a F p = step h b F p ↔ h = 0 ∨ a = b := by
  rw [step_eq_iff, and_iff_right rfl, add_right_inj, ← sub_eq_zero, ← smul_sub, half_smul_eq_zero,
    sub_eq_zero]

/-- Steps in fields of the positions agree when their starts do. -/
theorem step_phase_iff {h : K} {A F : E → E} {p q : Phase E} :
    step h (A p.pos) F p = step h (A q.pos) F q ↔ p = q := by
  rw [step_eq_iff]
  constructor
  · rintro ⟨pos, vel⟩
    rw [pos, add_left_inj] at vel
    exact Phase.ext pos vel
  · rintro rfl
    exact ⟨rfl, rfl⟩

/-! ## Time reversal -/

def Phase.reverse (p : Phase E) : Phase E := ⟨p.pos, -p.vel⟩

@[simp] theorem reverse_reverse (p : Phase E) : p.reverse.reverse = p := by
  simp only [Phase.reverse, neg_neg]

theorem leap_reverse (h : K) (F : E → E) (p : Phase E) :
    leap h F (leap h F p).reverse = p.reverse := by
  have back : p.pos + h • (p.vel + (h / 2) • F p.pos) + h • (-(p.vel + (h / 2) • F p.pos +
      (h / 2) • F (p.pos + h • (p.vel + (h / 2) • F p.pos))) +
        (h / 2) • F (p.pos + h • (p.vel + (h / 2) • F p.pos))) = p.pos := by
    rw [neg_add, neg_add_cancel_right, smul_neg, add_neg_cancel_right]
  ext1
  · exact back
  · simp only [leap, step, kick, drift, Phase.reverse, back]
    abel

theorem iterate_reverse (h : K) (F : E → E) (n : ℕ) (p : Phase E) :
    (leap h F)^[n] ((leap h F)^[n] p).reverse = p.reverse := by
  induction n with
  | zero => rfl
  | succ n ih =>
      rw [Function.iterate_succ_apply, Function.iterate_succ_apply', leap_reverse, ih]

theorem leap_eq_iff [CharZero K] {h : K} (nonzero : h ≠ 0) {F : E → E} {p : Phase E} :
    leap h F p = p ↔ p.vel = 0 ∧ F p.pos = 0 := by
  constructor
  · intro same
    have pos : p.pos + h • (p.vel + (h / 2) • F p.pos) = p.pos := congrArg Phase.pos same
    have vel : p.vel + (h / 2) • F p.pos + (h / 2) • F (p.pos + h • (p.vel + (h / 2) • F p.pos)) =
        p.vel := congrArg Phase.vel same
    rw [pos, add_assoc, add_eq_left, ← add_smul, add_halves, smul_eq_zero] at vel
    have still : F p.pos = 0 := vel.resolve_left nonzero
    rw [add_eq_left, still, smul_zero, add_zero, smul_eq_zero] at pos
    exact ⟨pos.resolve_left nonzero, still⟩
  · intro ⟨rest, still⟩
    ext1
    · simp only [leap, step, kick, drift, rest, still, smul_zero, add_zero]
    · simp only [leap, step, kick, drift, rest, still, smul_zero, add_zero]

theorem iterate_reverse_succ_iff [CharZero K] {h : K} (nonzero : h ≠ 0) {F : E → E} (n : ℕ)
    {p : Phase E} :
    (leap h F)^[n] ((leap h F)^[n + 1] p.reverse).reverse = p ↔ p.vel = 0 ∧ F p.pos = 0 := by
  rw [Function.iterate_succ_apply, iterate_reverse]
  have turned : (leap h F p.reverse).reverse = p ↔ leap h F p.reverse = p.reverse := by
    constructor
    · intro same
      have there := congrArg Phase.reverse same
      rwa [reverse_reverse] at there
    · intro same
      rw [same, reverse_reverse]
  rw [turned, leap_eq_iff nonzero]
  simp only [Phase.reverse, neg_eq_zero]

end MilkyWay.Foundation.Leapfrog
