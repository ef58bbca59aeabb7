import MilkyWay.Foundation.Ownership
import MilkyWay.Foundation.Strides

/-! Workers that pass over the places of a range in aligned strides, each with a record in the
shared memory. What holds of the records ahead of a worker and of those behind it carries over
from step to step, so that in the end every record is behind the worker it belongs to. -/

namespace MilkyWay.Foundation

structure StrideRange where
  warp : ℕ
  items : ℕ
  bottom : ℕ
  top : ℕ

namespace StrideRange

def mine (L : StrideRange) (w n : ℕ) : Prop :=
  w < L.items ∧ L.bottom ≤ n ∧ n ≤ L.top ∧
    ∃ t, n = alignedStart L.warp L.items L.bottom w + t * L.items

variable {L : StrideRange} {v w n : ℕ}

theorem mine_unique (ne : v ≠ w) (h : L.mine v n) : ¬ L.mine w n := by
  rintro ⟨hw, -, -, t, here⟩
  obtain ⟨hv, -, -, u, there⟩ := h
  exact ne (alignedStart_unique hv hw (there.symm.trans here))

theorem exists_mine (items : 0 < L.items) (lower : L.bottom ≤ n) (upper : n ≤ L.top) :
    ∃ w < L.items, L.mine w n := by
  obtain ⟨w, hw, t, here⟩ : ∃ w < L.items, ∃ t,
      n = alignedStart L.warp L.items L.bottom w + t * L.items := exists_alignedStart items lower
  exact ⟨w, hw, hw, lower, upper, t, here⟩

end StrideRange

/-- What a pass keeps of the records: ahead of their worker, behind it, and of the one that it
is at. -/
structure Course (M ρ ω : Type*) where
  record : M → ℕ → ρ
  position : ω → ℕ
  Ahead : ℕ → ρ → Prop
  Behind : ℕ → ρ → Prop
  Holds : M → ρ → ω → Prop
  Rests : ω → Prop

variable {M ρ ω : Type*}

structure Course.Passing (C : Course M ρ ω) (L : StrideRange) (w : ℕ) (m : M) (x : ω) : Prop where
  place : ∃ t, C.position x = alignedStart L.warp L.items L.bottom w + t * L.items
  behind : ∀ n, L.mine w n → n < C.position x → C.Behind n (C.record m n)
  ahead : ∀ n, L.mine w n → C.position x < n → C.Ahead n (C.record m n)
  here : C.position x ≤ L.top → C.Holds m (C.record m (C.position x)) x
  ended : L.top < C.position x → C.Rests x

namespace Course.Passing

variable {C : Course M ρ ω} {L : StrideRange} {w : ℕ} {m m' : M} {x x' : ω}

theorem mine (h : C.Passing L w m x) (warp : 0 < L.warp) (wide : L.warp ≤ L.items)
    (hw : w < L.items) (le : C.position x ≤ L.top) : L.mine w (C.position x) := by
  obtain ⟨t, place⟩ := h.place
  refine ⟨hw, ?_, le, t, place⟩
  rw [place]
  exact (le_alignedStart warp wide).trans (Nat.le_add_right _ _)

theorem start (first : C.position x = alignedStart L.warp L.items L.bottom w) (rests : C.Rests x)
    (ahead : ∀ n, L.mine w n → C.Ahead n (C.record m n))
    (here : C.position x ≤ L.top → C.Holds m (C.record m (C.position x)) x) :
    C.Passing L w m x := by
  refine ⟨⟨0, by rw [first, Nat.zero_mul, Nat.add_zero]⟩, fun n mine lt => ?_,
    fun n mine _ => ahead n mine, here, fun _ => rests⟩
  obtain ⟨-, -, -, t, place⟩ := mine
  rw [first] at lt
  omega

theorem stable {ready : ℕ → ρ → Prop} (h : C.Passing L w m x)
    (mine : C.position x ≤ L.top → L.mine w (C.position x))
    (leaves : Crew.Leaves C.record L.mine ready w m m')
    (holds : ∀ r, C.Holds m r x → C.Holds m' r x) : C.Passing L w m' x := by
  refine ⟨h.place, fun n own lt => ?_, fun n own lt => ?_, fun le => ?_, h.ended⟩
  · rw [leaves n (.inl own)]
    exact h.behind n own lt
  · rw [leaves n (.inl own)]
    exact h.ahead n own lt
  · rw [leaves (C.position x) (.inl (mine le))]
    exact holds _ (h.here le)

theorem stay (h : C.Passing L w m x) (same : C.position x' = C.position x)
    (le : C.position x ≤ L.top)
    (others : ∀ n, n ≠ C.position x → C.record m' n = C.record m n)
    (here : C.Holds m' (C.record m' (C.position x)) x') : C.Passing L w m' x' := by
  refine ⟨by rw [same]; exact h.place, fun n mine lt => ?_, fun n mine lt => ?_, fun _ => ?_,
    fun lt => ?_⟩
  · rw [same] at lt
    rw [others n (by omega)]
    exact h.behind n mine lt
  · rw [same] at lt
    rw [others n (by omega)]
    exact h.ahead n mine lt
  · rw [same]
    exact here
  · omega

theorem advance (h : C.Passing L w m x) (hw : w < L.items) (lower : L.bottom ≤ C.position x)
    (next : C.position x' = C.position x + L.items) (rests : C.Rests x')
    (others : ∀ n, n ≠ C.position x → C.record m' n = C.record m n)
    (behind : C.Behind (C.position x) (C.record m' (C.position x)))
    (here : ∀ r, C.Ahead (C.position x') r → C.Holds m' r x') : C.Passing L w m' x' := by
  obtain ⟨t, place⟩ := h.place
  have after : C.position x + L.items =
      alignedStart L.warp L.items L.bottom w + (t + 1) * L.items := by
    rw [place]
    ring
  refine ⟨⟨t + 1, next.trans after⟩, fun n mine lt => ?_, fun n mine lt => ?_, fun inside => ?_,
    fun _ => rests⟩
  · rw [next] at lt
    by_cases own : n = C.position x
    · rw [own]
      exact behind
    · rw [others n own]
      refine h.behind n mine ?_
      obtain ⟨-, -, -, u, there⟩ := mine
      rw [there, place] at lt own ⊢
      exact stride_before lt own
  · rw [next] at lt
    rw [others n (by omega)]
    exact h.ahead n mine (by omega)
  · refine here _ ?_
    rw [next] at inside ⊢
    rw [others _ (by omega)]
    exact h.ahead _ ⟨hw, lower.trans (Nat.le_add_right _ _), inside, t + 1, after⟩ (by omega)

end Course.Passing

theorem Course.steps_behind (C : Course M ρ ω) (L : StrideRange) {next : M → ω → M × ω}
    {ready : ℕ → ρ → Prop} {G : M → Prop} {s : Crew M ω} {order : List (Fin L.items)}
    (items : 0 < L.items)
    (stable : ∀ w < L.items, ∀ m m' x, Crew.Leaves C.record L.mine ready w m m' →
      C.Passing L w m x → C.Passing L w m' x)
    (own : ∀ w < L.items, ∀ m x, G m → C.Passing L w m x →
      C.Passing L w (next m x).1 (next m x).2 ∧ G (next m x).1 ∧
        Crew.Guarantees C.record L.mine ready w m (next m x).1)
    (start : G s.mem ∧ ∀ w < L.items, C.Passing L w s.mem (s.workers w))
    (through : ∀ w < L.items, ∀ m r, ¬ C.Holds m r ((s.steps next order).workers w)) :
    G (s.steps next order).mem ∧ ∀ n, L.bottom ≤ n → n ≤ L.top →
      C.Behind n (C.record (s.steps next order).mem n) := by
  have apart : ∀ v w n, v ≠ w → L.mine v n → ¬ L.mine w n :=
    fun v w n ne => StrideRange.mine_unique ne
  obtain ⟨kept, each⟩ := Crew.steps_invariant (C.Passing L) G apart stable own order start
  refine ⟨kept, fun n lower upper => ?_⟩
  obtain ⟨w, hw, mine⟩ := StrideRange.exists_mine items lower upper
  refine (each w hw).behind n mine ?_
  by_contra before
  exact through w hw _ _ ((each w hw).here ((not_lt.mp before).trans upper))

end MilkyWay.Foundation
