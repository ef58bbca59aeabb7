import Mathlib.Algebra.BigOperators.Group.Finset.Basic
import Mathlib.Algebra.BigOperators.Group.Finset.Defs
import Mathlib.Algebra.BigOperators.Intervals
import Mathlib.Algebra.Order.Group.Nat
import Mathlib.Data.Nat.Factorization.Basic

/-! Sums on a device. Steps that add fixed amounts to what is there add up. A reduction in
a group of work-items lets the lower half take in the upper one at each turn; what is left
at the front depends on the elements linearly, and for a group of a power of two it is
their sum: `halving_front`. An element that an odd half leaves out is lost: `halving_skips`. -/

namespace MilkyWay.Foundation

variable {α β : Type*}

/-! ## Deposits -/

def Adds {σ M : Type*} [Add M] (good : σ → Prop) (amount : σ → M) (step : σ → σ) (δ : M) : Prop :=
  ∀ s, good s → good (step s) ∧ amount (step s) = amount s + δ

section
variable {σ ι M : Type*} [AddMonoid M] {good : σ → Prop} {amount : σ → M}

theorem adds_id : Adds good amount id 0 := fun s fine => ⟨fine, (add_zero (amount s)).symm⟩

theorem Adds.comp {step next : σ → σ} {δ ε : M} (first : Adds good amount step δ)
    (second : Adds good amount next ε) : Adds good amount (next ∘ step) (δ + ε) := by
  intro s fine
  obtain ⟨fine', sum⟩ := first s fine
  obtain ⟨fine'', sum'⟩ := second _ fine'
  exact ⟨fine'', by rw [Function.comp_apply, sum', sum, add_assoc]⟩

theorem adds_foldl {step : ι → σ → σ} (each : ∀ i, ∃ δ, Adds good amount (step i) δ)
    (l : List ι) : ∃ δ, Adds good amount (fun s => l.foldl (fun s i => step i s) s) δ := by
  induction l with
  | nil => exact ⟨0, adds_id⟩
  | cons i l ih =>
      obtain ⟨δ, first⟩ := each i
      obtain ⟨ε, rest⟩ := ih
      exact ⟨δ + ε, first.comp rest⟩

end

/-! ## Reductions -/

def takeIn (op : α → α → α) (offset : ℕ) (s : ℕ → α) : ℕ → α := fun i =>
  if i < offset then op (s i) (s (i + offset)) else s i

def halving (op : α → α → α) : ℕ → ℕ → (ℕ → α) → ℕ → α
  | 0, _, s => s
  | turns + 1, offset, s =>
      if offset = 0 then s else halving op turns (offset / 2) (takeIn op offset s)

theorem halving_map (op : α → α → α) (op' : β → β → β) (good : α → Prop) (f : α → β)
    (maps : ∀ a b, good a → good b → good (op a b) ∧ f (op a b) = op' (f a) (f b))
    (turns offset : ℕ) {s : ℕ → α} {t : ℕ → β} (all : ∀ i, good (s i) ∧ f (s i) = t i) (i : ℕ) :
    good (halving op turns offset s i) ∧
      f (halving op turns offset s i) = halving op' turns offset t i := by
  induction turns generalizing offset s t with
  | zero => exact all i
  | succ turns ih =>
      rw [halving, halving]
      by_cases last : offset = 0
      · rw [if_pos last, if_pos last]
        exact all i
      · rw [if_neg last, if_neg last]
        refine ih (offset / 2) fun j => ?_
        unfold takeIn
        split
        · obtain ⟨fine, same⟩ := maps _ _ (all j).1 (all (j + offset)).1
          exact ⟨fine, by rw [same, (all j).2, (all (j + offset)).2]⟩
        · exact all j

theorem halving_of_op {op : α → α → α} {P : α → Prop} (gives : ∀ a b, P (op a b))
    {turns offset : ℕ} {s : ℕ → α} (front : P (s 0)) : P (halving op turns offset s 0) := by
  induction turns generalizing offset s with
  | zero => exact front
  | succ turns ih =>
      rw [halving]
      split
      · exact front
      · rename_i some
        refine ih ?_
        rw [takeIn, if_pos (Nat.pos_of_ne_zero some)]
        exact gives (s 0) (s (0 + offset))

theorem halving_congr {op : α → α → α} {size turns : ℕ} (some : 0 < size) {s t : ℕ → α}
    (agree : ∀ i, i < size → s i = t i) :
    halving op turns (size / 2) s 0 = halving op turns (size / 2) t 0 := by
  induction turns generalizing size s t with
  | zero => exact agree 0 some
  | succ turns ih =>
      rw [halving, halving]
      split
      · exact agree 0 some
      · refine ih (by omega) fun i lt => ?_
        rw [takeIn, takeIn, if_pos lt, if_pos lt, agree i (by omega),
          agree (i + size / 2) (by omega)]

theorem halving_iff {op : α → α → α} {P : α → Prop} (splits : ∀ a b, P (op a b) ↔ P a ∧ P b)
    (m turns : ℕ) (enough : m ≤ turns) (s : ℕ → α) :
    P (halving op turns (2 ^ m / 2) s 0) ↔ ∀ i < 2 ^ m, P (s i) := by
  induction m generalizing turns s with
  | zero =>
      have alone : halving op turns (2 ^ 0 / 2) s = s := by
        cases turns with
        | zero => rfl
        | succ turns => rw [halving, pow_zero, if_pos (Nat.div_eq_of_lt Nat.one_lt_two)]
      rw [alone]
      simp
  | succ m ih =>
      obtain ⟨turns, rfl⟩ := Nat.exists_eq_add_of_le' (Nat.lt_of_lt_of_le m.succ_pos enough)
      have half : 2 ^ (m + 1) / 2 = 2 ^ m := by
        rw [pow_succ, Nat.mul_div_cancel _ Nat.two_pos]
      rw [half, halving, if_neg (Nat.two_pow_pos m).ne', ih turns (Nat.le_of_succ_le_succ enough)]
      constructor
      · intro all i lt
        rcases Nat.lt_or_ge i (2 ^ m) with low | high
        · have here := all i low
          rw [takeIn, if_pos low, splits] at here
          exact here.1
        · have low : i - 2 ^ m < 2 ^ m := by
            rw [pow_succ] at lt
            omega
          have here := all (i - 2 ^ m) low
          rw [takeIn, if_pos low, splits, Nat.sub_add_cancel high] at here
          exact here.2
      · intro all i low
        rw [takeIn, if_pos low, splits]
        rw [pow_succ] at all
        exact ⟨all i (by omega), all (i + 2 ^ m) (by omega)⟩

section
variable [AddCommMonoid α]

theorem halving_add (turns offset : ℕ) (s t : ℕ → α) (i : ℕ) :
    halving (· + ·) turns offset (s + t) i =
      halving (· + ·) turns offset s i + halving (· + ·) turns offset t i := by
  induction turns generalizing offset s t with
  | zero => rfl
  | succ turns ih =>
      rw [halving, halving, halving]
      by_cases last : offset = 0
      · rw [if_pos last, if_pos last, if_pos last]
        rfl
      · rw [if_neg last, if_neg last, if_neg last, ← ih]
        congr 1
        funext j
        rw [Pi.add_apply]
        unfold takeIn
        by_cases low : j < offset
        · simp only [if_pos low, Pi.add_apply]
          exact add_add_add_comm (s j) (t j) (s (j + offset)) (t (j + offset))
        · simp only [if_neg low, Pi.add_apply]

theorem halving_zero (turns offset i : ℕ) :
    halving (· + ·) turns offset (fun _ => (0 : α)) i = 0 := by
  induction turns generalizing offset with
  | zero => rfl
  | succ turns ih =>
      have same : takeIn (· + ·) offset (fun _ => (0 : α)) = fun _ => 0 := by
        funext j
        unfold takeIn
        split
        · exact add_zero 0
        · rfl
      rw [halving, same]
      split
      · rfl
      · exact ih _

end

/-- Wherever halving a group meets an odd number of elements, it is a single one or there is
nothing among the first `n` elements that it leaves out. -/
def Halves (size n : ℕ) : Prop :=
  ∀ j, size / 2 ^ j % 2 = 1 → size / 2 ^ j = 1 ∨ n < size / 2 ^ j

theorem Halves.half {size n : ℕ} (halves : Halves size n) : Halves (size / 2) n := by
  intro j
  have next := halves (j + 1)
  rw [pow_succ', ← Nat.div_div_eq_div_mul] at next
  exact next

theorem Halves.le {size n n' : ℕ} (halves : Halves size n) (le : n' ≤ n) : Halves size n' := by
  intro j odd
  obtain single | past := halves j odd
  · exact .inl single
  · exact .inr (by omega)

theorem halves_zero (size : ℕ) : Halves size 0 := by
  intro j odd
  right
  refine Nat.pos_of_ne_zero fun none => ?_
  simp [none] at odd

theorem halves_pow (m n : ℕ) : Halves (2 ^ m) n := by
  intro j odd
  left
  by_cases le : j ≤ m
  · rw [Nat.pow_div le Nat.two_pos] at odd ⊢
    cases rest : m - j with
    | zero => rfl
    | succ r =>
        rw [rest, pow_succ] at odd
        omega
  · rw [Nat.div_eq_of_lt (Nat.pow_lt_pow_right Nat.one_lt_two (by omega))] at odd
    omega

theorem Halves.exists_pow {size n : ℕ} (halves : Halves size n) (some : size ≠ 0)
    (le : size ≤ n) : ∃ m, size = 2 ^ m := by
  obtain ⟨m, odd, whole, split⟩ := Nat.exists_eq_two_pow_mul_odd some
  refine ⟨m, ?_⟩
  have rest : size / 2 ^ m = odd := by
    rw [split, Nat.mul_div_cancel_left odd (Nat.two_pow_pos m)]
  have less : size / 2 ^ m ≤ size := Nat.div_le_self size (2 ^ m)
  obtain single | past := halves m (by rw [rest]; exact Nat.odd_iff.mp whole)
  · rw [split, ← rest, single, mul_one]
  · omega

section
variable [AddCommMonoid α]

theorem halving_front {size n turns : ℕ} (halves : Halves size n) (some : 0 < size)
    (enough : size ≤ turns + 1) {s : ℕ → α} (beyond : ∀ i, n ≤ i → i < size → s i = 0) :
    halving (· + ·) turns (size / 2) s 0 = ∑ i ∈ Finset.range size, s i := by
  induction turns generalizing size s with
  | zero =>
      rw [show size = 1 by omega, Finset.sum_range_one]
      rfl
  | succ turns ih =>
      rw [halving]
      split
      · rw [show size = 1 by omega, Finset.sum_range_one]
      · rename_i several
        have low : ∀ i, i < size / 2 →
            takeIn (· + ·) (size / 2) s i = s i + s (size / 2 + i) := by
          intro i lt
          rw [takeIn, if_pos lt, Nat.add_comm i]
        rw [ih halves.half (by omega) (by omega)]
        · have last : size % 2 = 1 → s (size / 2 + size / 2) = 0 := by
            intro odd
            have first := halves 0
            rw [pow_zero, Nat.div_one] at first
            exact beyond _ (by omega) (by omega)
          have both : ∑ i ∈ Finset.range (size / 2), takeIn (· + ·) (size / 2) s i =
              ∑ i ∈ Finset.range (size / 2 + size / 2), s i := by
            rw [Finset.sum_range_add, ← Finset.sum_add_distrib]
            exact Finset.sum_congr rfl fun i mem => low i (Finset.mem_range.mp mem)
          rw [both]
          obtain even | odd := Nat.mod_two_eq_zero_or_one size
          · rw [show size / 2 + size / 2 = size by omega]
          · rw [show size = size / 2 + size / 2 + 1 by omega, Finset.sum_range_succ,
              show (size / 2 + size / 2 + 1) / 2 = size / 2 by omega, last odd, add_zero]
        · intro i past lt
          rw [low i lt, beyond i past (by omega), beyond (size / 2 + i) (by omega) (by omega),
            add_zero]

theorem halving_skips {size e j turns : ℕ} (odd : size / 2 ^ j = e + 1) (even : e % 2 = 0)
    (several : 0 < e) (enough : size ≤ turns + 1) {s : ℕ → α}
    (alone : ∀ i, i < size → i ≠ e → s i = 0) :
    halving (· + ·) turns (size / 2) s 0 = 0 := by
  have le : e + 1 ≤ size := by
    rw [← odd]
    exact Nat.div_le_self size (2 ^ j)
  induction turns generalizing size s j with
  | zero => exact alone 0 (by omega) (by omega)
  | succ turns ih =>
      rw [halving]
      split
      · exact alone 0 (by omega) (by omega)
      · cases j with
        | zero =>
            rw [pow_zero, Nat.div_one] at odd
            have none : ∀ i, i < size / 2 → takeIn (· + ·) (size / 2) s i = 0 := by
              intro i lt
              rw [takeIn, if_pos lt, alone i (by omega) (by omega),
                alone (i + size / 2) (by omega) (by omega), add_zero]
            rw [halving_front (halves_zero (size / 2)) (by omega) (by omega) fun i _ => none i]
            exact Finset.sum_eq_zero fun i mem => none i (Finset.mem_range.mp mem)
        | succ j =>
            rw [pow_succ', ← Nat.div_div_eq_div_mul] at odd
            have half : e + 1 ≤ size / 2 := by
              rw [← odd]
              exact Nat.div_le_self (size / 2) (2 ^ j)
            refine ih odd (by omega) ?_ half
            intro i lt other
            rw [takeIn, if_pos lt, alone i (by omega) other,
              alone (i + size / 2) (by omega) (by omega), add_zero]

end

theorem sum_rows [AddCommMonoid α] (rows columns : ℕ) (s : ℕ → α) :
    ∑ i ∈ Finset.range rows, ∑ j ∈ Finset.range columns, s (i * columns + j) =
      ∑ k ∈ Finset.range (rows * columns), s k := by
  induction rows with
  | zero => rw [Nat.zero_mul, Finset.sum_range_zero, Finset.sum_range_zero]
  | succ rows ih => rw [Finset.sum_range_succ, ih, Nat.succ_mul, Finset.sum_range_add]

end MilkyWay.Foundation
