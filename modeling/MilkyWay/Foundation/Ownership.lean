import Mathlib.Data.Nat.Notation
import Mathlib.Logic.Function.Basic
import Mathlib.Tactic.TypeStar

/-! Workers that share a memory of records. Each record belongs to at most one worker, which alone
changes it, and is final once it is ready. A worker then relies on its own records and on those it
has seen ready, whatever steps the others take in between. -/

namespace MilkyWay.Foundation

structure Crew (M ω : Type*) where
  mem : M
  workers : ℕ → ω

namespace Crew

variable {M ω ν ρ : Type*}

/-- Worker `w` takes a step. -/
def step (next : M → ω → M × ω) (s : Crew M ω) (w : ℕ) : Crew M ω :=
  let taken := next s.mem (s.workers w)
  ⟨taken.1, Function.update s.workers w taken.2⟩

/-- The workers take steps in the order of `order`. -/
def steps {n : ℕ} (next : M → ω → M × ω) (s : Crew M ω) (order : List (Fin n)) : Crew M ω :=
  order.foldl (fun s (w : Fin n) => s.step next w) s

def Leaves (record : M → ν → ρ) (mine : ℕ → ν → Prop) (ready : ν → ρ → Prop) (w : ℕ)
    (m m' : M) : Prop :=
  ∀ n, mine w n ∨ ready n (record m n) → record m' n = record m n

def Guarantees (record : M → ν → ρ) (mine : ℕ → ν → Prop) (ready : ν → ρ → Prop) (w : ℕ)
    (m m' : M) : Prop :=
  ∀ n, ¬ mine w n ∨ ready n (record m n) → record m' n = record m n

variable {next : M → ω → M × ω} {record : M → ν → ρ} {mine : ℕ → ν → Prop}
  {ready : ν → ρ → Prop} {s : Crew M ω}

theorem Guarantees.leaves {w v : ℕ} {m m' : M} (h : Guarantees record mine ready w m m')
    (apart : ∀ n, mine v n → ¬ mine w n) : Leaves record mine ready v m m' :=
  fun n kept => h n (kept.imp_left (apart n))

theorem steps_rely {n : ℕ} (I : ℕ → M → ω → Prop) (G : M → Prop)
    (rely guarantee : ℕ → M → M → Prop)
    (gives : ∀ v w m m', v ≠ w → guarantee w m m' → rely v m m')
    (stable : ∀ w < n, ∀ m m' x, rely w m m' → I w m x → I w m' x)
    (own : ∀ w < n, ∀ m x, G m → I w m x →
      I w (next m x).1 (next m x).2 ∧ G (next m x).1 ∧ guarantee w m (next m x).1)
    (order : List (Fin n)) (start : G s.mem ∧ ∀ w < n, I w s.mem (s.workers w)) :
    G (s.steps next order).mem ∧
      ∀ w < n, I w (s.steps next order).mem ((s.steps next order).workers w) := by
  induction order generalizing s with
  | nil => exact start
  | cons w order ih =>
      refine ih ?_
      obtain ⟨all, each⟩ := start
      obtain ⟨mine, all', guarantees⟩ := own w w.isLt s.mem (s.workers w) all (each w w.isLt)
      refine ⟨all', fun v hv => ?_⟩
      show I v (next s.mem (s.workers w)).1
        (Function.update s.workers w (next s.mem (s.workers w)).2 v)
      by_cases same : v = w
      · subst same
        rw [Function.update_self]
        exact mine
      · rw [Function.update_of_ne same]
        exact stable v hv _ _ _ (gives v w _ _ same guarantees) (each v hv)

theorem steps_invariant {n : ℕ} (I : ℕ → M → ω → Prop) (G : M → Prop)
    (apart : ∀ v w c, v ≠ w → mine v c → ¬ mine w c)
    (stable : ∀ w < n, ∀ m m' x, Leaves record mine ready w m m' → I w m x → I w m' x)
    (own : ∀ w < n, ∀ m x, G m → I w m x → I w (next m x).1 (next m x).2 ∧ G (next m x).1 ∧
      Guarantees record mine ready w m (next m x).1)
    (order : List (Fin n)) (start : G s.mem ∧ ∀ w < n, I w s.mem (s.workers w)) :
    G (s.steps next order).mem ∧
      ∀ w < n, I w (s.steps next order).mem ((s.steps next order).workers w) :=
  steps_rely I G (Leaves record mine ready) (Guarantees record mine ready)
    (fun v w _ _ ne h => h.leaves fun c => apart v w c ne) stable own order start

end Crew

end MilkyWay.Foundation
