import Mathlib.Data.List.Induction
import Mathlib.Order.Defs.Unbundled

/-! The records of a sequence: the entries below a bound and below all entries before
them. The last record attains the minimum. Nothing but transitivity is asked of the
comparison, so entries that compare with nothing are passed over. -/

namespace MilkyWay.Foundation

variable {ι α : Type*} [LT α] [DecidableLT α]

def records (f : ι → α) (w : α) : List ι → List ι
  | [] => []
  | e :: l => if f e < w then e :: records f (f e) l else records f w l

def minimum (f : ι → α) (w : α) (l : List ι) : α := ((records f w l).getLast?).elim w f

variable (f : ι → α)

theorem minimum_cons (w : α) (e : ι) (l : List ι) :
    minimum f w (e :: l) = minimum f (if f e < w then f e else w) l := by
  unfold minimum
  rw [records]
  by_cases h : f e < w
  · rw [if_pos h, if_pos h, List.getLast?_cons]
    cases (records f (f e) l).getLast? <;> rfl
  · rw [if_neg h, if_neg h]

theorem records_append (w : α) (l l' : List ι) :
    records f w (l ++ l') = records f w l ++ records f (minimum f w l) l' := by
  induction l generalizing w with
  | nil => rfl
  | cons a l ih =>
      rw [minimum_cons, List.cons_append, records, records]
      by_cases h : f a < w
      · rw [if_pos h, if_pos h, if_pos h, ih, List.cons_append]
      · rw [if_neg h, if_neg h, if_neg h, ih]

theorem records_singleton (w : α) (e : ι) :
    records f w [e] = if f e < w then [e] else [] := rfl

theorem minimum_append_singleton (w : α) (l : List ι) (e : ι) :
    minimum f w (l ++ [e]) = if f e < minimum f w l then f e else minimum f w l := by
  conv_lhs => rw [minimum, records_append, records_singleton]
  by_cases h : f e < minimum f w l
  · rw [if_pos h, if_pos h, List.getLast?_append]
    rfl
  · rw [if_neg h, if_neg h, List.append_nil]
    rfl

theorem lt_minimum {v w : α} {l : List ι} (bound : v < w) (below : ∀ a ∈ l, v < f a) :
    v < minimum f w l := by
  induction l generalizing w with
  | nil => exact bound
  | cons a l ih =>
      have rest : ∀ b ∈ l, v < f b := fun b hb => below b (List.mem_cons_of_mem a hb)
      rw [minimum_cons]
      by_cases h : f a < w
      · rw [if_pos h]
        exact ih (below a List.mem_cons_self) rest
      · rw [if_neg h]
        exact ih bound rest

variable [IsStrictOrder α (· < ·)]

theorem minimum_le (w : α) (l : List ι) : minimum f w l = w ∨ minimum f w l < w := by
  induction l using List.reverseRecOn with
  | nil => exact .inl rfl
  | append_singleton l e ih =>
      rw [minimum_append_singleton]
      by_cases h : f e < minimum f w l
      · rw [if_pos h]
        obtain same | below := ih
        · rw [← same]
          exact .inr h
        · exact .inr (trans_of (· < ·) h below)
      · rw [if_neg h]
        exact ih

theorem not_lt_minimum (w : α) (l : List ι) : ∀ e ∈ l, ¬f e < minimum f w l := by
  induction l using List.reverseRecOn with
  | nil => exact fun e h => absurd h List.not_mem_nil
  | append_singleton l a ih =>
      intro e he
      rw [minimum_append_singleton]
      by_cases h : f a < minimum f w l
      · rw [if_pos h]
        obtain old | new := List.mem_append.mp he
        · exact fun less => ih e old (trans_of (· < ·) less h)
        · rw [List.mem_singleton.mp new]
          exact irrefl_of (· < ·) (f a)
      · rw [if_neg h]
        obtain old | new := List.mem_append.mp he
        · exact ih e old
        · rw [List.mem_singleton.mp new]
          exact h

theorem lastRecord_spec {w : α} {l : List ι} {e : ι} (last : (records f w l).getLast? = some e) :
    ∃ before later, l = before ++ e :: later ∧ f e < w ∧ f e = minimum f w l ∧
      records f w (before ++ [e]) = records f w l := by
  induction l using List.reverseRecOn with
  | nil => cases last
  | append_singleton l a ih =>
      have next := records_append f w l [a]
      rw [records_singleton] at next
      rw [minimum_append_singleton]
      by_cases h : f a < minimum f w l
      · rw [next, if_pos h, List.getLast?_append, List.getLast?_singleton, Option.some_or,
          Option.some.injEq] at last
        subst last
        rw [if_pos h]
        refine ⟨l, [], rfl, ?_, rfl, rfl⟩
        obtain same | below := minimum_le f w l
        · rw [← same]
          exact h
        · exact trans_of (· < ·) h below
      · rw [if_neg h, List.append_nil] at next
        rw [next] at last ⊢
        rw [if_neg h]
        obtain ⟨before, later, rfl, small, value, same⟩ := ih last
        exact ⟨before, later ++ [a], by rw [List.append_assoc, List.cons_append], small, value,
          same⟩

omit [IsStrictOrder α (· < ·)] in
theorem records_eq_nil {w : α} {l : List ι} (above : ∀ e ∈ l, ¬f e < w) : records f w l = [] := by
  induction l with
  | nil => rfl
  | cons e l ih =>
      rw [records, if_neg (above e List.mem_cons_self)]
      exact ih fun a ha => above a (List.mem_cons_of_mem e ha)

theorem exists_lastRecord {w : α} {l : List ι} {e : ι} (he : e ∈ l) (below : f e < w) :
    ∃ a, (records f w l).getLast? = some a := by
  cases h : (records f w l).getLast? with
  | some a => exact ⟨a, rfl⟩
  | none =>
      have least := not_lt_minimum f w l e he
      rw [minimum, h] at least
      exact absurd below least

theorem lastRecord_bound {m w : α} {l : List ι} {e : ι} (bound : m = w ∨ m < w)
    (total : ∀ a ∈ l, ¬f a < m → m = f a ∨ m < f a) (he : e ∈ l) (below : f e < m) :
    (records f w l).getLast? = (records f m l).getLast? := by
  induction l generalizing w with
  | nil => exact absurd he List.not_mem_nil
  | cons a l ih =>
      have rest : ∀ b ∈ l, ¬f b < m → m = f b ∨ m < f b := fun b hb =>
        total b (List.mem_cons_of_mem a hb)
      rw [records, records]
      by_cases first : f a < m
      · have under : f a < w := by
          obtain rfl | less := bound
          · exact first
          · exact trans_of (· < ·) first less
        rw [if_pos first, if_pos under]
      · have later : e ∈ l := by
          obtain rfl | later := List.mem_cons.mp he
          · exact absurd below first
          · exact later
        rw [if_neg first]
        by_cases under : f a < w
        · obtain ⟨b, last⟩ := exists_lastRecord f later below
          rw [if_pos under, List.getLast?_cons,
            ih (total a List.mem_cons_self first) rest later, last]
          rfl
        · rw [if_neg under]
          exact ih bound rest later

end MilkyWay.Foundation
