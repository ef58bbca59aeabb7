import Mathlib.Data.List.Nodup
import Mathlib.Data.List.Perm.Subperm
import Mathlib.Data.Fin.VecNotation
import Mathlib.Logic.Function.Basic

/-! Lists linked through an array: each place names the next one, and a list is entered
at a head. Walks that skip entries, the entry before a given one, and what the changes
of a link do to the list. -/

namespace MilkyWay.Foundation

open Function

def Linked (next : ℕ → Option ℕ) : Option ℕ → List ℕ → Prop
  | p, [] => p = none
  | p, a :: l => p = some a ∧ Linked next (next a) l

def firstUnpassed (next : ℕ → Option ℕ) (pass : ℕ → Bool) : ℕ → Option ℕ → Option (Option ℕ)
  | 0, _ => none
  | _ + 1, none => some none
  | fuel + 1, some a => if pass a then firstUnpassed next pass fuel (next a) else some (some a)

def predecessor (next : ℕ → Option ℕ) (head : Option ℕ) (target : ℕ) :
    ℕ → Option ℕ → Option (Option ℕ)
  | 0, _ => none
  | fuel + 1, cur => match cur.elim head next with
      | none => none
      | some a => if a = target then some cur else predecessor next head target fuel (some a)

variable {next : ℕ → Option ℕ} {p : Option ℕ} {l passed rest : List ℕ} {a b : ℕ}

theorem Linked.head (h : Linked next p l) : p = l.head? := by
  cases l with
  | nil => exact h
  | cons a l => exact h.1

theorem Linked.after (h : Linked next p (passed ++ b :: rest)) : Linked next (next b) rest := by
  induction passed generalizing p with
  | nil => exact h.2
  | cons c passed ih => exact ih h.2

theorem Linked.unique {l' : List ℕ} (h : Linked next p l) (h' : Linked next p l') : l = l' := by
  induction l generalizing p l' with
  | nil =>
      cases l' with
      | nil => rfl
      | cons a l' => exact absurd (h.symm.trans h'.1) nofun
  | cons a l ih =>
      cases l' with
      | nil => exact absurd (h.1.symm.trans h') nofun
      | cons b l' =>
          have same : a = b := Option.some.inj (h.1.symm.trans h'.1)
          subst same
          rw [ih h.2 h'.2]

theorem Linked.nodup (h : Linked next p l) : l.Nodup := by
  induction l generalizing p with
  | nil => exact List.nodup_nil
  | cons a l ih =>
      refine List.nodup_cons.mpr ⟨fun again => ?_, ih h.2⟩
      obtain ⟨before, later, rfl⟩ := List.append_of_mem again
      have twice := congrArg List.length (h.2.unique h.2.after)
      simp only [List.length_append, List.length_cons] at twice
      omega

theorem length_le_of_below {size : ℕ} (nodup : l.Nodup) (below : ∀ a ∈ l, a < size) :
    l.length ≤ size := by
  have inside : l ⊆ List.range size := fun a mem => List.mem_range.mpr (below a mem)
  have le := (List.subperm_of_subset nodup inside).length_le
  rwa [List.length_range] at le

theorem Linked.update (h : Linked next p l) (apart : b ∉ l) (q : Option ℕ) :
    Linked (update next b q) p l := by
  induction l generalizing p with
  | nil => exact h
  | cons c l ih =>
      rw [List.mem_cons, not_or] at apart
      refine ⟨h.1, ?_⟩
      rw [update_of_ne (Ne.symm apart.1)]
      exact ih h.2 apart.2

theorem Linked.congr {next' : ℕ → Option ℕ} (h : Linked next p l)
    (same : ∀ a ∈ l, next' a = next a) : Linked next' p l := by
  induction l generalizing p with
  | nil => exact h
  | cons a l ih =>
      refine ⟨h.1, ?_⟩
      rw [same a List.mem_cons_self]
      exact ih h.2 fun b mem => same b (List.mem_cons_of_mem a mem)

theorem Linked.skip (h : Linked next p (passed ++ b :: a :: rest)) :
    Linked (Function.update next b (next a)) p (passed ++ b :: rest) := by
  have nodup := h.nodup
  induction passed generalizing p with
  | nil =>
      refine ⟨h.1, ?_⟩
      rw [update_self]
      refine h.2.2.update (fun mem => ?_) (next a)
      exact (List.nodup_cons.mp nodup).1 (List.mem_cons_of_mem a mem)
  | cons c passed ih =>
      have other : c ≠ b := fun same => (List.nodup_cons.mp nodup).1 (by simp [same])
      refine ⟨h.1, ?_⟩
      rw [update_of_ne other]
      exact ih h.2 (List.nodup_cons.mp nodup).2

theorem linked_range' {start n : ℕ} (links : ∀ i, start ≤ i → i < start + n → next i = some (i + 1))
    (last : next (start + n) = none) : Linked next (some start) (List.range' start (n + 1)) := by
  induction n generalizing start with
  | zero => exact ⟨rfl, last⟩
  | succ n ih =>
      rw [List.range'_succ]
      refine ⟨rfl, ?_⟩
      rw [links start (Nat.le_refl start) (by omega)]
      refine ih (fun i le lt => links i (by omega) (by omega)) ?_
      rwa [Nat.add_assoc, Nat.add_comm 1 n]

theorem firstUnpassed_mono {pass : ℕ → Bool} {fuel fuel' : ℕ} {r : Option ℕ}
    (h : firstUnpassed next pass fuel p = some r) (le : fuel ≤ fuel') :
    firstUnpassed next pass fuel' p = some r := by
  induction fuel generalizing p fuel' with
  | zero => cases h
  | succ fuel ih =>
      obtain ⟨fuel', rfl⟩ := Nat.exists_eq_add_of_le' (Nat.lt_of_lt_of_le fuel.succ_pos le)
      cases p with
      | none => exact h
      | some a =>
          rw [firstUnpassed] at h ⊢
          by_cases passes : pass a = true
          · rw [if_pos passes] at h ⊢
            exact ih h (Nat.le_of_succ_le_succ le)
          · rw [if_neg passes] at h ⊢
            exact h

theorem predecessor_mono {head cur : Option ℕ} {target fuel fuel' : ℕ} {r : Option ℕ}
    (h : predecessor next head target fuel cur = some r) (le : fuel ≤ fuel') :
    predecessor next head target fuel' cur = some r := by
  induction fuel generalizing cur fuel' with
  | zero => cases h
  | succ fuel ih =>
      obtain ⟨fuel', rfl⟩ := Nat.exists_eq_add_of_le' (Nat.lt_of_lt_of_le fuel.succ_pos le)
      rw [predecessor] at h ⊢
      cases ahead : cur.elim head next with
      | none => rw [ahead] at h; cases h
      | some a =>
          simp only [ahead] at h ⊢
          by_cases here : a = target
          · rw [if_pos here] at h ⊢
            exact h
          · rw [if_neg here] at h ⊢
            exact ih h (Nat.le_of_succ_le_succ le)

theorem Linked.firstUnpassed (h : Linked next p l) (pass : ℕ → Bool) {fuel : ℕ}
    (enough : l.length < fuel) :
    firstUnpassed next pass fuel p = some (l.find? (!pass ·)) := by
  induction l generalizing p fuel with
  | nil =>
      obtain ⟨fuel, rfl⟩ := Nat.exists_eq_add_of_lt enough
      rw [h]
      rfl
  | cons a l ih =>
      obtain ⟨fuel, rfl⟩ := Nat.exists_eq_add_of_le' (Nat.lt_of_le_of_lt l.length.zero_le
        (Nat.lt_of_succ_lt enough))
      rw [h.1, Foundation.firstUnpassed, List.find?_cons]
      cases passes : pass a with
      | true =>
          simp only [if_true, Bool.not_true]
          exact ih h.2 (Nat.lt_of_succ_lt_succ enough)
      | false => rfl

theorem Linked.predecessor_from (cur : Option ℕ)
    (h : Linked next (cur.elim p next) (passed ++ a :: rest)) {fuel : ℕ}
    (enough : passed.length < fuel) :
    predecessor next p a fuel cur = some (passed.getLast?.or cur) := by
  have nodup := h.nodup
  induction passed generalizing cur fuel with
  | nil =>
      obtain ⟨fuel, rfl⟩ := Nat.exists_eq_add_of_le' (Nat.zero_lt_of_lt enough)
      rw [Foundation.predecessor, h.1]
      simp
  | cons b passed ih =>
      obtain ⟨fuel, rfl⟩ := Nat.exists_eq_add_of_le' (Nat.zero_lt_of_lt enough)
      have other : b ≠ a := fun same => (List.nodup_cons.mp nodup).1 (by simp [same])
      have further := ih (some b) h.2 (Nat.lt_of_succ_lt_succ enough)
        (List.nodup_cons.mp nodup).2
      rw [Foundation.predecessor, h.1]
      dsimp only
      rw [if_neg other, further, List.getLast?_cons]
      cases passed.getLast? <;> rfl

theorem Linked.predecessor (h : Linked next p (passed ++ a :: rest)) {fuel : ℕ}
    (enough : passed.length < fuel) :
    predecessor next p a fuel none = some passed.getLast? := by
  rw [Linked.predecessor_from none h enough, Option.or_none]

theorem Linked.unlink (h : Linked next p (passed ++ a :: rest)) :
    Linked (passed.getLast?.elim next fun b => Function.update next b (next a))
      (passed.getLast?.elim (next a) fun _ => p) (passed ++ rest) := by
  rcases List.eq_nil_or_concat passed with rfl | ⟨before, b, rfl⟩
  · exact h.2
  · rw [List.concat_eq_append, List.append_assoc] at h ⊢
    rw [List.getLast?_append_cons]
    exact h.skip

end MilkyWay.Foundation
