import Mathlib.Data.Option.Basic
import Mathlib.Data.Nat.Notation
import Mathlib.Control.Basic

/-! Computations that read a stream of numbers from a place on and may fail, and loops
that draw again until what is drawn is accepted, for a limited number of times. -/

namespace MilkyWay.Foundation

abbrev Draw (α : Type) := StateT ℕ Option α

variable {R α β : Type}

def Draw.next (stream : ℕ → R) : Draw R := fun k => some (stream k, k + 1)

def Draw.lift (result : Option α) : Draw α := fun k => result.map (·, k)

def tries (sample : Draw (Option α)) (giveUp : Draw α) : ℕ → Draw α
  | 0 => do
    match ← sample with
    | some a => return a
    | none => giveUp
  | retries + 1 => do
    match ← sample with
    | some a => return a
    | none => tries sample giveUp retries

theorem bind_of_eq {x : Draw α} {f : α → Draw β} {k k' : ℕ} {a : α} (result : x k = some (a, k')) :
    (x >>= f) k = f a k' := by
  change (x k).bind (fun p => f p.1 p.2) = f a k'
  rw [result]
  rfl

theorem bind_eq_some {x : Draw α} {f : α → Draw β} {k : ℕ} {p : β × ℕ}
    (result : (x >>= f) k = some p) : ∃ a k', x k = some (a, k') ∧ f a k' = some p := by
  change (x k).bind (fun p => f p.1 p.2) = some p at result
  obtain ⟨⟨a, k'⟩, first, second⟩ := Option.bind_eq_some_iff.mp result
  exact ⟨a, k', first, second⟩

theorem lift_eq_some {o : Option α} {k : ℕ} {p : α × ℕ} (result : Draw.lift o k = some p) :
    o = some p.1 ∧ p.2 = k := by
  obtain ⟨a, found, rfl⟩ := Option.map_eq_some_iff.mp result
  exact ⟨found, rfl⟩

theorem tries_of_eq {sample : Draw (Option α)} {k k' : ℕ} {a : α}
    (accepted : sample k = some (some a, k')) (giveUp : Draw α) (retries : ℕ) :
    tries sample giveUp retries k = some (a, k') := by
  cases retries with
  | zero => exact bind_of_eq accepted
  | succ retries => exact bind_of_eq accepted

theorem tries_eq_some {sample : Draw (Option α)} {giveUp : Draw α} {retries k : ℕ} {p : α × ℕ}
    (result : tries sample giveUp retries k = some p) :
    (∃ j k', sample j = some (some p.1, k')) ∨ ∃ j, giveUp j = some p := by
  induction retries generalizing k with
  | zero =>
      obtain ⟨o, k', drawn, rest⟩ := bind_eq_some result
      cases o with
      | some a =>
          have accepted : some (a, k') = some p := rest
          exact .inl ⟨k, k', Option.some.inj accepted ▸ drawn⟩
      | none => exact .inr ⟨k', rest⟩
  | succ retries ih =>
      obtain ⟨o, k', drawn, rest⟩ := bind_eq_some result
      cases o with
      | some a =>
          have accepted : some (a, k') = some p := rest
          exact .inl ⟨k, k', Option.some.inj accepted ▸ drawn⟩
      | none => exact ih rest

theorem foldlM_draw_some {f : β → ℕ → Draw β} {n : ℕ} {b : β} {k : ℕ} {p : β × ℕ}
    (I : ℕ → β → Prop) (start : I 0 b)
    (step : ∀ i b k p, i < n → I i b → f b i k = some p → I (i + 1) p.1)
    (run : (List.range n).foldlM f b k = some p) : I n p.1 := by
  induction n generalizing p with
  | zero =>
      have done : some (b, k) = some p := run
      exact Option.some.inj done ▸ start
  | succ n ih =>
      rw [List.range_succ, List.foldlM_append] at run
      obtain ⟨b', k', before, last⟩ := bind_eq_some run
      have holds := ih (fun i b k p lt => step i b k p (Nat.lt_succ_of_lt lt)) before
      rw [List.foldlM_cons] at last
      obtain ⟨b'', k'', turn, done⟩ := bind_eq_some last
      have result : some (b'', k'') = some p := done
      exact Option.some.inj result ▸ step n b' k' (b'', k'') n.lt_succ_self holds turn

theorem foldlM_draw_succeeds {f : β → ℕ → Draw β} (place : ℕ → ℕ)
    (step : ∀ i b, ∃ b', f b i (place i) = some (b', place (i + 1))) (n : ℕ) (b : β) :
    ∃ b', (List.range n).foldlM f b (place 0) = some (b', place n) := by
  induction n with
  | zero => exact ⟨b, rfl⟩
  | succ n ih =>
      obtain ⟨b', before⟩ := ih
      obtain ⟨b'', turn⟩ := step n b'
      refine ⟨b'', ?_⟩
      rw [List.range_succ, List.foldlM_append, bind_of_eq before, List.foldlM_cons,
        bind_of_eq turn]
      rfl

end MilkyWay.Foundation
