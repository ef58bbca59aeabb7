import Mathlib.Logic.Relation
import Mathlib.Data.Nat.Notation

/-! Loops by turns. A turn fails, goes on from a new state or ends with a result. A
run from a state that an earlier run has reached ends as that one, and so does a run
by other turns when the turns keep a relation between the states. -/

namespace MilkyWay.Foundation

abbrev Turn (σ ρ : Type*) := σ → Option (σ ⊕ ρ)

namespace Turn

variable {σ τ ρ ρ' : Type*}

def run (turn : Turn σ ρ) : ℕ → σ → Option ρ
  | 0, _ => none
  | n + 1, s => match turn s with
      | none => none
      | some (.inl s') => run turn n s'
      | some (.inr r) => some r

/-- The state after a number of turns that go on. -/
def after (turn : Turn σ ρ) : ℕ → σ → Option σ
  | 0, s => some s
  | n + 1, s => match turn.after n s with
      | none => none
      | some s' => match turn s' with
          | some (.inl s'') => some s''
          | _ => none

def GoesOn (turn : Turn σ ρ) (s s' : σ) : Prop := turn s = some (.inl s')

/-- The state is passed on the way from another. -/
def Reaches (turn : Turn σ ρ) : σ → σ → Prop := Relation.ReflTransGen turn.GoesOn

variable {turn : Turn σ ρ} {s s' : σ} {r r' : ρ} {n m : ℕ}

theorem run_goesOn (h : turn.GoesOn s s') (n : ℕ) : turn.run (n + 1) s = turn.run n s' := by
  rw [GoesOn] at h
  rw [run, h]

theorem run_ends (h : turn s = some (.inr r)) (n : ℕ) : turn.run (n + 1) s = some r := by
  rw [run, h]

theorem after_succ {s'' : σ} (h : turn.after (n + 1) s = some s'') :
    ∃ s', turn.after n s = some s' ∧ turn.GoesOn s' s'' := by
  rw [after] at h
  cases before : turn.after n s with
  | none => rw [before] at h; cases h
  | some s' =>
      rw [before] at h
      refine ⟨s', rfl, ?_⟩
      cases next : turn s' with
      | none => simp only [next] at h; cases h
      | some x =>
          cases x with
          | inl t =>
              simp only [next, Option.some.injEq] at h
              rw [GoesOn, next, h]
          | inr r => simp only [next] at h; cases h

theorem reaches_of_after (h : turn.after n s = some s') : turn.Reaches s s' := by
  induction n generalizing s' with
  | zero =>
      cases h
      exact .refl
  | succ n ih =>
      obtain ⟨t, before, next⟩ := after_succ h
      exact .tail (ih before) next

theorem run_mono (ends : turn.run n s = some r) (le : n ≤ m) : turn.run m s = some r := by
  induction n generalizing s m with
  | zero => cases ends
  | succ n ih =>
      obtain ⟨m, rfl⟩ := Nat.exists_eq_add_of_le' (Nat.lt_of_lt_of_le n.succ_pos le)
      have le : n ≤ m := Nat.le_of_succ_le_succ le
      rw [run] at ends ⊢
      cases h : turn s with
      | none => rw [h] at ends; cases ends
      | some next =>
          rw [h] at ends
          cases next with
          | inl s' => exact ih ends le
          | inr r' => exact ends

theorem run_of_reaches (reaches : turn.Reaches s s') (ends : turn.run n s = some r) :
    turn.run n s' = some r := by
  induction reaches with
  | refl => exact ends
  | tail _ step ih =>
      cases n with
      | zero => cases ends
      | succ n =>
          rw [run_goesOn step] at ih
          exact run_mono ih n.le_succ

theorem run_from (reaches : turn.Reaches s s') (ends : turn.run n s' = some r) :
    ∃ m, turn.run m s = some r := by
  induction reaches generalizing n with
  | refl => exact ⟨n, ends⟩
  | tail _ step ih =>
      refine ih (n := n + 1) ?_
      rw [run_goesOn step]
      exact ends

theorem run_eq_none (I : σ → Prop) (step : ∀ s, I s → ∃ s', I s' ∧ turn.GoesOn s s')
    (start : I s) (n : ℕ) : turn.run n s = none := by
  induction n generalizing s with
  | zero => rfl
  | succ n ih =>
      obtain ⟨s', kept, next⟩ := step s start
      rw [run_goesOn next]
      exact ih kept

theorem run_measure (μ : σ → ℕ) (lower : ∀ s s', turn.GoesOn s s' → μ s' < μ s) (s : σ)
    (enough : μ s < n) (ends : turn.run m s = some r) : turn.run n s = some r := by
  induction m generalizing s n with
  | zero => cases ends
  | succ m ih =>
      obtain ⟨n, rfl⟩ := Nat.exists_eq_add_of_le' (Nat.lt_of_le_of_lt (μ s).zero_le enough)
      cases h : turn s with
      | none => rw [run, h] at ends; cases ends
      | some next =>
          cases next with
          | inl s' =>
              rw [run_goesOn h] at ends ⊢
              have less := lower s s' h
              exact ih s' (by omega) ends
          | inr r' =>
              rw [run_ends h] at ends ⊢
              exact ends

theorem run_related {turn' : Turn τ ρ'} (Rel : σ → τ → Prop) (Res : ρ → ρ' → Prop)
    (step : ∀ s t x, Rel s t → turn s = some x →
      ∃ y, turn' t = some y ∧ Sum.LiftRel Rel Res x y)
    {t : τ} (related : Rel s t) (ends : turn.run n s = some r) :
    ∃ r', turn'.run n t = some r' ∧ Res r r' := by
  induction n generalizing s t with
  | zero => cases ends
  | succ n ih =>
      rw [run] at ends
      cases h : turn s with
      | none => rw [h] at ends; cases ends
      | some x =>
          rw [h] at ends
          obtain ⟨y, turned, lifted⟩ := step s t x related h
          cases lifted with
          | inl next =>
              rw [run_goesOn turned]
              exact ih next ends
          | inr result =>
              cases ends
              exact ⟨_, run_ends turned n, result⟩

theorem Reaches.invariant (I : σ → Prop) (step : ∀ s s', I s → turn.GoesOn s s' → I s')
    (start : I s) (reaches : turn.Reaches s s') : I s' := by
  induction reaches with
  | refl => exact start
  | tail _ next ih => exact step _ _ ih next

theorem run_invariant (I : σ → Prop) (Q : ρ → Prop)
    (step : ∀ s x, I s → turn s = some x → x.elim I Q) (start : I s)
    (ends : turn.run n s = some r) : Q r := by
  induction n generalizing s with
  | zero => cases ends
  | succ n ih =>
      rw [run] at ends
      cases h : turn s with
      | none => rw [h] at ends; cases ends
      | some x =>
          rw [h] at ends
          have kept := step s x start h
          cases x with
          | inl s' => exact ih kept ends
          | inr r' =>
              cases ends
              exact kept

theorem run_of_le {turn' : Turn σ ρ} (step : ∀ s x, turn s = some x → turn' s = some x)
    (ends : turn.run n s = some r) : turn'.run n s = some r := by
  induction n generalizing s with
  | zero => cases ends
  | succ n ih =>
      rw [run] at ends
      cases h : turn s with
      | none => rw [h] at ends; cases ends
      | some x =>
          rw [h] at ends
          have same := step s x h
          cases x with
          | inl s' => exact (run_goesOn same n).trans (ih ends)
          | inr r' => exact (run_ends same n).trans ends

theorem run_map {turn' : Turn τ ρ'} (f : σ → τ) (g : ρ → ρ')
    (step : ∀ s, turn' (f s) = (turn s).map (Sum.map f g)) (n : ℕ) (s : σ) :
    turn'.run n (f s) = (turn.run n s).map g := by
  induction n generalizing s with
  | zero => rfl
  | succ n ih =>
      rw [run, run, step]
      cases turn s with
      | none => rfl
      | some x =>
          cases x with
          | inl s' => exact ih s'
          | inr r' => rfl

end Turn

end MilkyWay.Foundation
