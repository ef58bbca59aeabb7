import Mathlib.Data.Set.Insert
import Mathlib.Data.List.Range
import Mathlib.Logic.Function.Basic
import Mathlib.Logic.Relation
import Mathlib.Tactic.Cases

/-! A bounded ring between one producer and one consumer. One slot is left free, the
producer alone moves the tail and the consumer alone moves the head. A slot has many
words, which each side handles one at a time and in any order. Whatever the order of the
steps, what was accepted is what was delivered and then what the ring holds. -/

namespace MilkyWay.Foundation.Ring

/-! ## Slots -/

def next (N i : ℕ) : ℕ := (i + 1) % N

/-- The number of slots from the head up to the tail. -/
def count (N head tail : ℕ) : ℕ := (tail + N - head) % N

/-- The slots from the head up to the tail, in order. -/
def span (N head tail : ℕ) : List ℕ :=
  (List.range (count N head tail)).map fun j => (head + j) % N

variable {N head tail : ℕ}

theorem next_lt (h : head < N) (i : ℕ) : next N i < N :=
  Nat.mod_lt _ (Nat.lt_of_le_of_lt head.zero_le h)

theorem next_eq {i : ℕ} (h : i < N) : next N i = if i + 1 = N then 0 else i + 1 := by
  rw [next]
  split_ifs with last
  · rw [last, Nat.mod_self]
  · exact Nat.mod_eq_of_lt (by omega)

theorem next_injective {i j : ℕ} (hi : i < N) (hj : j < N) (same : next N i = next N j) :
    i = j := by
  rw [next_eq hi, next_eq hj] at same
  split_ifs at same <;> omega

theorem add_mod_eq {a b : ℕ} (ha : a < N) (hb : b < N) :
    (a + b) % N = if a + b < N then a + b else a + b - N := by
  split_ifs with small
  · exact Nat.mod_eq_of_lt small
  · rw [Nat.mod_eq_sub_mod (Nat.le_of_not_lt small)]
    exact Nat.mod_eq_of_lt (by omega)

theorem count_eq (hh : head < N) (ht : tail < N) :
    count N head tail = if head ≤ tail then tail - head else tail + N - head := by
  rw [count]
  split_ifs with le
  · rw [show tail + N - head = (tail - head) + N by omega, Nat.add_mod_right]
    exact Nat.mod_eq_of_lt (by omega)
  · exact Nat.mod_eq_of_lt (by omega)

theorem span_self (h : head < N) : span N head head = [] := by
  rw [span, count_eq h h, if_pos le_rfl, Nat.sub_self]
  rfl

theorem mem_span {i : ℕ} : i ∈ span N head tail ↔ ∃ j < count N head tail, (head + j) % N = i := by
  simp [span]

theorem tail_not_mem_span (hh : head < N) (ht : tail < N) : tail ∉ span N head tail := by
  rw [mem_span]
  rintro ⟨j, lt, same⟩
  rw [count_eq hh ht] at lt
  rw [add_mod_eq hh (by split_ifs at lt <;> omega)] at same
  split_ifs at lt same <;> omega

theorem span_push (hh : head < N) (ht : tail < N) (room : next N tail ≠ head) :
    span N head (next N tail) = span N head tail ++ [tail] := by
  have more : count N head (next N tail) = count N head tail + 1 := by
    rw [count_eq hh (next_lt hh tail), count_eq hh ht]
    rw [next_eq ht] at room ⊢
    split_ifs at room ⊢ <;> omega
  have last : (head + count N head tail) % N = tail := by
    have lt : count N head tail < N := Nat.mod_lt _ (by omega)
    rw [add_mod_eq hh lt, count_eq hh ht]
    split_ifs <;> omega
  rw [span, span, more, List.range_succ, List.map_append, List.map_singleton, last]

theorem span_pop (hh : head < N) (ht : tail < N) (held : head ≠ tail) :
    span N head tail = head :: span N (next N head) tail := by
  have more : count N head tail = count N (next N head) tail + 1 := by
    rw [count_eq hh ht, count_eq (next_lt hh head) ht, next_eq hh]
    split_ifs <;> omega
  rw [span, span, more, List.range_succ_eq_map, List.map_cons, Nat.add_zero,
    Nat.mod_eq_of_lt hh, List.map_map]
  congr 1
  refine List.map_congr_left fun j _ => ?_
  show (head + (j + 1)) % N = (next N head + j) % N
  rw [next, Nat.mod_add_mod]
  congr 1
  omega

/-! ## The machine -/

inductive Producer (ι V : Type*) where
  | idle
  | tailRead (x : ι → V) (tail : ℕ)
  | writing (x : ι → V) (tail : ℕ) (left : Set ι)

inductive Consumer (ι V : Type*) where
  | idle
  | headRead (head : ℕ)
  | reading (head : ℕ) (got : ι → Option V)

structure State (ι V : Type*) where
  head : ℕ
  tail : ℕ
  slot : ℕ → ι → V
  producer : Producer ι V
  consumer : Consumer ι V
  accepted : List (ι → V)
  delivered : List (ι → V)

variable {ι V : Type*} [DecidableEq ι]

inductive Step (N : ℕ) : State ι V → State ι V → Prop
  | push (s : State ι V) (x : ι → V) (idle : s.producer = .idle) :
      Step N s { s with producer := .tailRead x s.tail }
  | full (s : State ι V) (x : ι → V) (t : ℕ) (pc : s.producer = .tailRead x t)
      (full : next N t = s.head) : Step N s { s with producer := .idle }
  | begin (s : State ι V) (x : ι → V) (t : ℕ) (pc : s.producer = .tailRead x t)
      (room : next N t ≠ s.head) : Step N s { s with producer := .writing x t Set.univ }
  | write (s : State ι V) (x : ι → V) (t : ℕ) (left : Set ι) (w : ι)
      (pc : s.producer = .writing x t left) :
      Step N s { s with
        slot := Function.update s.slot t (Function.update (s.slot t) w (x w))
        producer := .writing x t (left \ {w}) }
  | publish (s : State ι V) (x : ι → V) (t : ℕ) (pc : s.producer = .writing x t ∅) :
      Step N s { s with
        tail := next N t
        producer := .idle
        accepted := s.accepted ++ [x] }
  | pop (s : State ι V) (idle : s.consumer = .idle) :
      Step N s { s with consumer := .headRead s.head }
  | empty (s : State ι V) (h : ℕ) (pc : s.consumer = .headRead h) (empty : h = s.tail) :
      Step N s { s with consumer := .idle }
  | found (s : State ι V) (h : ℕ) (pc : s.consumer = .headRead h) (held : h ≠ s.tail) :
      Step N s { s with consumer := .reading h fun _ => none }
  | read (s : State ι V) (h : ℕ) (got : ι → Option V) (w : ι)
      (pc : s.consumer = .reading h got) :
      Step N s { s with
        consumer := .reading h (Function.update got w (some (s.slot h w))) }
  | advance (s : State ι V) (h : ℕ) (x : ι → V)
      (pc : s.consumer = .reading h fun w => some (x w)) :
      Step N s { s with
        head := next N h
        consumer := .idle
        delivered := s.delivered ++ [x] }
  | leave (s : State ι V) : Step N s { s with consumer := .idle }

/-- What the producer knows of the ring. -/
def Producer.Fits (N : ℕ) (s : State ι V) : Producer ι V → Prop
  | .idle => True
  | .tailRead _ t => t = s.tail
  | .writing x t left => t = s.tail ∧ next N t ≠ s.head ∧ ∀ w, w ∉ left → s.slot t w = x w

/-- What the consumer knows of the ring. -/
def Consumer.Fits (s : State ι V) : Consumer ι V → Prop
  | .idle => True
  | .headRead h => h = s.head
  | .reading h got => h = s.head ∧ h ≠ s.tail ∧ ∀ w v, got w = some v → s.slot h w = v

def held (N : ℕ) (s : State ι V) : List (ι → V) := (span N s.head s.tail).map s.slot

structure Inv (N : ℕ) (s : State ι V) : Prop where
  head_lt : s.head < N
  tail_lt : s.tail < N
  producer : s.producer.Fits N s
  consumer : s.consumer.Fits s
  fifo : s.accepted = s.delivered ++ held N s

omit [DecidableEq ι] in
theorem held_write {s : State ι V} (h : Inv N s) (x : ι → V) :
    (span N s.head s.tail).map (Function.update s.slot s.tail x) = held N s := by
  refine List.map_congr_left fun i hi => Function.update_of_ne (fun same => ?_) _ _
  exact tail_not_mem_span h.head_lt h.tail_lt (same ▸ hi)

theorem Inv.step {s s' : State ι V} (h : Inv N s) (step : Step N s s') : Inv N s' := by
  obtain ⟨head_lt, tail_lt, producer, consumer, fifo⟩ := h
  have inv : Inv N s := ⟨head_lt, tail_lt, producer, consumer, fifo⟩
  cases step with
  | push x idle => exact ⟨head_lt, tail_lt, rfl, consumer, fifo⟩
  | full x t pc full => exact ⟨head_lt, tail_lt, trivial, consumer, fifo⟩
  | begin x t pc room =>
      rw [pc] at producer
      exact ⟨head_lt, tail_lt, ⟨producer, room, fun w out => absurd trivial out⟩, consumer, fifo⟩
  | write x t left w pc =>
      rw [pc] at producer
      obtain ⟨rfl, room, done⟩ := producer
      refine ⟨head_lt, tail_lt, ⟨rfl, room, fun v out => ?_⟩, ?_, ?_⟩
      · show Function.update s.slot s.tail _ s.tail v = x v
        rw [Function.update_self]
        by_cases same : v = w
        · rw [same, Function.update_self]
        · rw [Function.update_of_ne same]
          exact done v fun m => out ⟨m, same⟩
      · cases pc' : s.consumer with
        | idle => trivial
        | headRead i =>
            rw [pc'] at consumer
            exact consumer
        | reading i got =>
            rw [pc'] at consumer
            obtain ⟨isHead, apart, same⟩ := consumer
            refine ⟨isHead, apart, fun v y here => ?_⟩
            show Function.update s.slot s.tail _ i v = y
            rw [Function.update_of_ne apart]
            exact same v y here
      · exact fifo.trans (congrArg _ (held_write inv _).symm)
  | publish x t pc =>
      rw [pc] at producer
      obtain ⟨rfl, room, done⟩ := producer
      have value : s.slot s.tail = x := funext fun w => done w (Set.notMem_empty w)
      refine ⟨head_lt, next_lt head_lt _, trivial, ?_, ?_⟩
      · cases pc' : s.consumer with
        | idle => trivial
        | headRead i =>
            rw [pc'] at consumer
            exact consumer
        | reading i got =>
            rw [pc'] at consumer
            obtain ⟨isHead, -, same⟩ := consumer
            exact ⟨isHead, fun e => room (e.symm.trans isHead), same⟩
      · rw [held, span_push head_lt tail_lt room, List.map_append, List.map_singleton, value,
          ← List.append_assoc]
        exact congrArg (· ++ [x]) fifo
  | pop idle => exact ⟨head_lt, tail_lt, producer, rfl, fifo⟩
  | empty i pc empty => exact ⟨head_lt, tail_lt, producer, trivial, fifo⟩
  | found i pc apart =>
      rw [pc] at consumer
      exact ⟨head_lt, tail_lt, producer, ⟨consumer, apart, nofun⟩, fifo⟩
  | read i got w pc =>
      rw [pc] at consumer
      obtain ⟨isHead, apart, same⟩ := consumer
      refine ⟨head_lt, tail_lt, producer, ⟨isHead, apart, fun v y here => ?_⟩, fifo⟩
      by_cases here' : v = w
      · rw [here', Function.update_self, Option.some.injEq] at here
        rw [here', ← here]
      · rw [Function.update_of_ne here'] at here
        exact same v y here
  | advance i x pc =>
      rw [pc] at consumer
      obtain ⟨rfl, apart, same⟩ := consumer
      have value : s.slot s.head = x := funext fun w => same w (x w) rfl
      refine ⟨next_lt head_lt _, tail_lt, ?_, trivial, ?_⟩
      · cases pc' : s.producer with
        | idle => trivial
        | tailRead y t =>
            rw [pc'] at producer
            exact producer
        | writing y t left =>
            rw [pc'] at producer
            obtain ⟨isTail, -, done⟩ := producer
            refine ⟨isTail, fun e => apart ?_, done⟩
            subst isTail
            exact next_injective head_lt tail_lt e.symm
      · rw [fifo, held, span_pop head_lt tail_lt apart, List.map_cons, value, List.append_assoc]
        rfl
  | leave => exact ⟨head_lt, tail_lt, producer, trivial, fifo⟩

theorem Inv.run {s s' : State ι V} (h : Inv N s) (run : Relation.ReflTransGen (Step N) s s') :
    Inv N s' := by
  induction run with
  | refl => exact h
  | tail _ step ih => exact ih.step step

omit [DecidableEq ι] in
theorem Inv.apart {s : State ι V} (h : Inv N s) {x : ι → V} {t i : ℕ} {left : Set ι}
    {got : ι → Option V} (writes : s.producer = .writing x t left)
    (reads : s.consumer = .reading i got) : t ≠ i := by
  have producer := h.producer
  have consumer := h.consumer
  rw [writes] at producer
  rw [reads] at consumer
  rw [producer.1]
  exact consumer.2.1.symm

end MilkyWay.Foundation.Ring
