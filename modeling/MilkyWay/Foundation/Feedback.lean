import Mathlib.Data.Nat.Notation

/-! A function that is applied again and again to a value found in its last result. -/

namespace MilkyWay.Foundation

variable {τ ε : Type*}

def feedback (f : τ → ε) (found : ε → τ) (t : τ) : ℕ → ε
  | 0 => f t
  | n + 1 => f (found (feedback f found t n))

def feedbackValue (f : τ → ε) (found : ε → τ) (t : τ) : ℕ → τ
  | 0 => t
  | n + 1 => found (feedback f found t n)

variable {f g : τ → ε} {found : ε → τ} {t t' : τ} {n m : ℕ}

theorem feedback_eq (f : τ → ε) (found : ε → τ) (t : τ) (n : ℕ) :
    feedback f found t n = f (feedbackValue f found t n) := by
  cases n <;> rfl

theorem feedback_succ (f : τ → ε) (found : ε → τ) (t : τ) (n : ℕ) :
    feedback f found t (n + 1) = feedback f found (found (f t)) n := by
  induction n with
  | zero => rfl
  | succ n ih => rw [feedback, ih, feedback]

theorem feedback_fixed (fixed : found (f t) = t) (n : ℕ) : feedback f found t n = f t := by
  induction n with
  | zero => rfl
  | succ n ih => rw [feedback, ih, fixed]

theorem feedback_congr
    (same : ∀ j ≤ n, g (feedbackValue f found t j) = f (feedbackValue f found t j)) :
    feedback g found t n = feedback f found t n := by
  induction n with
  | zero => exact same 0 (Nat.le_refl 0)
  | succ n ih =>
      rw [feedback, ih fun j le => same j (Nat.le_succ_of_le le)]
      exact same (n + 1) (Nat.le_refl _)

theorem feedbackValue_congr
    (same : ∀ j < n, g (feedbackValue f found t j) = f (feedbackValue f found t j)) :
    feedbackValue g found t n = feedbackValue f found t n := by
  cases n with
  | zero => rfl
  | succ n => exact congrArg found (feedback_congr fun j le => same j (Nat.lt_succ_of_le le))

theorem feedback_absorbed {e : ε} (rest : ∀ s, s ≠ t' → f s = e) (away : found e ≠ t')
    (start : t ≠ t') (n : ℕ) : feedback f found t n = e := by
  induction n with
  | zero => exact rest t start
  | succ n ih => rw [feedback, ih, rest _ away]

end MilkyWay.Foundation
