import MilkyWay.Foundation.Fold
import Mathlib.Algebra.Order.Floor.Semiring
import Mathlib.Algebra.Order.Archimedean.Basic
import Mathlib.Data.Nat.Count

/-! Loops over the time whose turns write what they see of a state into an array. A
turn may fail and a write may miss the array; a turn that is due writes the next entry,
so that the entries are the states at the turns that were due. -/

namespace MilkyWay.Foundation

inductive Fault where
  | outOfRange
  | failed
  | unending
deriving DecidableEq

universe u

variable {α σ : Type u}

def Fault.ofOption : Option α → Except Fault α
  | none => .error .failed
  | some a => .ok a

def writeAt (array : List α) (i : ℕ) (a : α) : Except Fault (List α) :=
  if i < array.length then .ok (array.set i a) else .error .outOfRange

def readAt (array : List α) (i : ℕ) : Except Fault α :=
  match array[i]? with
  | some a => .ok a
  | none => .error .outOfRange

@[simp] theorem ok_bind {β : Type u} (a : α) (f : α → Except Fault β) :
    ((Except.ok a : Except Fault α) >>= f) = f a := rfl

theorem writeAt_eq {array : List α} {i : ℕ} (lt : i < array.length) (a : α) :
    writeAt array i a = .ok (array.set i a) := if_pos lt

theorem readAt_eq {array : List α} {i : ℕ} {a : α} (entry : array[i]? = some a) :
    readAt array i = .ok a := by
  rw [readAt, entry]

/-! ## The loop over the time -/

def timeLoop {T : Type*} [Add T] [LE T] [DecidableLE T] (upper dt : T)
    (body : T → σ → Except Fault σ) : ℕ → T → σ → Except Fault σ
  | 0, _, _ => .error .unending
  | fuel + 1, t, s =>
      if t ≤ upper then do timeLoop upper dt body fuel (t + dt) (← body t s) else .ok s

section
variable {T : Type*} [Zero T] [Add T]

def ticks (dt : T) : ℕ → T
  | 0 => 0
  | n + 1 => ticks dt n + dt

variable [LE T]

structure Turns (upper dt : T) (n : ℕ) : Prop where
  within : ∀ m < n, ticks dt m ≤ upper
  past : ¬ticks dt n ≤ upper

variable {upper dt : T} {n n' : ℕ}

theorem Turns.unique (turns : Turns upper dt n) (turns' : Turns upper dt n') : n = n' := by
  rcases Nat.lt_trichotomy n n' with less | same | more
  · exact absurd (turns'.within n less) turns.past
  · exact same
  · exact absurd (turns.within n' more) turns'.past

variable [DecidableLE T] {body : T → σ → Except Fault σ}

theorem timeLoop_from (m k fuel : ℕ) (enough : k + 1 ≤ fuel) (turns : Turns upper dt (m + k))
    (s : σ) : timeLoop upper dt body fuel (ticks dt m) s =
      (List.range' m k).foldlM (fun s (m : ℕ) => body (ticks dt m) s) s := by
  cases fuel with
  | zero => omega
  | succ fuel =>
      induction k generalizing m fuel s with
      | zero =>
          have past : ¬ticks dt m ≤ upper := turns.past
          rw [timeLoop, if_neg past]
          rfl
      | succ k ih =>
          obtain ⟨fuel, rfl⟩ := Nat.exists_eq_add_of_le' (Nat.le_of_succ_le_succ enough)
          rw [timeLoop, if_pos (turns.within m (by omega)), List.range'_succ, List.foldlM_cons]
          congr 1
          funext s'
          refine ih (m + 1) (by rwa [Nat.add_right_comm]) s' (fuel + k) (by omega)

theorem timeLoop_turns (turns : Turns upper dt n) {fuel : ℕ} (enough : n + 1 ≤ fuel) (s : σ) :
    timeLoop upper dt body fuel 0 s =
      (List.range n).foldlM (fun s (m : ℕ) => body (ticks dt m) s) s := by
  rw [List.range_eq_range']
  refine timeLoop_from 0 n fuel enough ?_ s
  rwa [Nat.zero_add]

theorem timeLoop_ended {fuel m : ℕ} {s s' : σ} (earlier : ∀ k < m, ticks dt k ≤ upper)
    (run : timeLoop upper dt body fuel (ticks dt m) s = .ok s') :
    ∃ n, Turns upper dt n ∧ n + 1 ≤ m + fuel := by
  induction fuel generalizing m s with
  | zero => cases run
  | succ fuel ih =>
      by_cases goes : ticks dt m ≤ upper
      · rw [timeLoop, if_pos goes] at run
        cases turn : body (ticks dt m) s with
        | error e =>
            rw [turn] at run
            cases run
        | ok s'' =>
            rw [turn, ok_bind] at run
            obtain ⟨n, turns, le⟩ := ih (m := m + 1) (fun k lt =>
              (Nat.lt_succ_iff_lt_or_eq.mp lt).elim (earlier k) fun same => same ▸ goes) run
            exact ⟨n, turns, by omega⟩
      · exact ⟨m, ⟨earlier, goes⟩, by omega⟩

omit [Zero T] in
theorem timeLoop_ne_failed (goes : ∀ t s, body t s ≠ .error .failed) (fuel : ℕ) (t : T) (s : σ) :
    timeLoop upper dt body fuel t s ≠ .error .failed := by
  induction fuel generalizing t s with
  | zero =>
      intro failed
      cases failed
  | succ fuel ih =>
      intro failed
      rw [timeLoop] at failed
      split at failed
      · cases turn : body t s with
        | error e =>
            rw [turn] at failed
            cases failed
            exact goes t s turn
        | ok s' =>
            rw [turn, ok_bind] at failed
            exact ih (t + dt) s' failed
      · cases failed

end

section
variable {R : Type*} [Field R] [LinearOrder R] [IsStrictOrderedRing R]
  {upper dt : R} {body : R → σ → Except Fault σ}

omit [LinearOrder R] [IsStrictOrderedRing R] in
@[simp] theorem ticks_eq (dt : R) (n : ℕ) : ticks dt n = n * dt := by
  induction n with
  | zero => rw [ticks, Nat.cast_zero, zero_mul]
  | succ n ih =>
      rw [ticks, ih]
      push_cast
      ring

theorem turns_iff [FloorSemiring R] (positive : 0 < dt) (nonneg : 0 ≤ upper) (n : ℕ) :
    Turns upper dt n ↔ n = ⌊upper / dt⌋₊ + 1 := by
  have within (m : ℕ) : ticks dt m ≤ upper ↔ m ≤ ⌊upper / dt⌋₊ := by
    rw [ticks_eq, Nat.le_floor_iff (div_nonneg nonneg positive.le), le_div_iff₀ positive]
  have fit : Turns upper dt (⌊upper / dt⌋₊ + 1) :=
    ⟨fun m lt => (within m).mpr (Nat.le_of_lt_succ lt), fun le =>
      Nat.not_succ_le_self _ ((within _).mp le)⟩
  constructor
  · exact fun turns => turns.unique fit
  · rintro rfl
    exact fit

end

def timeLoopDown {R : Type*} [Sub R] [LE R] [DecidableLE R] (lower dt : R)
    (body : R → σ → Except Fault σ) : ℕ → R → σ → Except Fault σ
  | 0, _, _ => .error .unending
  | fuel + 1, t, s =>
      if lower ≤ t then do timeLoopDown lower dt body fuel (t - dt) (← body t s) else .ok s

section
variable {R : Type*} [Field R] [LinearOrder R] [IsStrictOrderedRing R] [FloorSemiring R]
  {dt : R} {body : R → σ → Except Fault σ}

omit [FloorSemiring R] in
theorem timeLoopDown_neg (lower dt : R) (body : R → σ → Except Fault σ) (fuel : ℕ) (t : R)
    (s : σ) : timeLoopDown lower dt body fuel t s =
      timeLoop (-lower) dt (fun t => body (-t)) fuel (-t) s := by
  induction fuel generalizing t s with
  | zero => rfl
  | succ fuel ih =>
      have next : -t + dt = -(t - dt) := by ring
      rw [timeLoopDown, timeLoop, neg_neg, next]
      by_cases goes : lower ≤ t
      · rw [if_pos goes, if_pos (neg_le_neg goes)]
        congr 1
        funext s'
        exact ih (t - dt) s'
      · rw [if_neg goes, if_neg fun le => goes (neg_le_neg_iff.mp le)]

theorem floor_time (positive : 0 < dt) (n : ℕ) : ⌊(n : R) * dt / dt⌋₊ = n := by
  rw [mul_div_cancel_right₀ _ positive.ne', Nat.floor_natCast]

theorem timeLoopDown_eq (positive : 0 < dt) (n : ℕ) (s : σ) :
    timeLoopDown (n * dt * -1) dt body (n + 2) 0 s =
      (List.range (n + 1)).foldlM (fun s (m : ℕ) => body (-(m * dt)) s) s := by
  have nonneg : 0 ≤ (n : R) * dt := mul_nonneg n.cast_nonneg positive.le
  have lower : -((n : R) * dt * -1) = n * dt := by ring
  have turns : Turns ((n : R) * dt) dt (n + 1) := by
    rw [turns_iff positive nonneg, floor_time positive]
  rw [timeLoopDown_neg, lower, neg_zero, timeLoop_turns turns le_rfl s]
  simp only [ticks_eq]

end

/-! ## Recording -/

def advance (step : ℕ → σ → Option σ) (n : ℕ) (s : σ) : Option σ :=
  (List.range n).foldlM (fun s m => step m s) s

@[simp] theorem advance_zero (step : ℕ → σ → Option σ) (s : σ) : advance step 0 s = some s := rfl

theorem advance_succ (step : ℕ → σ → Option σ) (n : ℕ) (s : σ) :
    advance step (n + 1) s = (advance step n s).bind (step n) := by
  rw [advance, List.range_succ, List.foldlM_append]
  change ((advance step n s).bind fun s => List.foldlM (fun s m => step m s) s [n]) = _
  congr 1
  funext s'
  rw [List.foldlM_cons]
  cases step n s' <;> rfl

structure Recorder (σ α : Type u) where
  state : σ
  array : List α
  count : ℕ

def Recorder.write (view : σ → α) (r : Recorder σ α) : Except Fault (Recorder σ α) := do
  let array ← writeAt r.array r.count (view r.state)
  return { r with array := array, count := r.count + 1 }

def Recorder.turn (due : Bool) (view : σ → α) (step : σ → Option σ) (r : Recorder σ α) :
    Except Fault (Recorder σ α) := do
  let r ← if due then r.write view else pure r
  let state ← Fault.ofOption (step r.state)
  return { r with state := state }

structure Recorded (due : ℕ → Bool) (view : σ → α) (step : ℕ → σ → Option σ) (start : σ)
    (size n : ℕ) (r : Recorder σ α) : Prop where
  state : advance step n start = some r.state
  length : r.array.length = size
  count : r.count = Nat.count (due · = true) n
  entries : ∀ m < n, due m = true →
    r.array[Nat.count (due · = true) m]? = (advance step m start).map view

section
variable {due : ℕ → Bool} {view : σ → α} {step : ℕ → σ → Option σ} {start : σ} {size n : ℕ}
  {r : Recorder σ α}

theorem Recorded.write (h : Recorded due view step start size n r)
    (room : Nat.count (due · = true) n < size) :
    r.write view =
      .ok { r with array := r.array.set r.count (view r.state), count := r.count + 1 } := by
  have lt : r.count < r.array.length := by rwa [h.count, h.length]
  rw [Recorder.write, writeAt_eq lt]
  rfl

theorem Recorded.entry (h : Recorded due view step start size n r)
    (room : Nat.count (due · = true) n < size) {m : ℕ} (le : m ≤ n)
    (recorded : due m = true ∨ m = n) :
    (r.array.set r.count (view r.state))[Nat.count (due · = true) m]? =
      (advance step m start).map view := by
  have lt : r.count < r.array.length := by rwa [h.count, h.length]
  rcases Nat.lt_or_eq_of_le le with before | rfl
  · have is_due : due m = true := recorded.resolve_right before.ne
    have earlier : Nat.count (due · = true) m < r.count := by
      rw [h.count]
      exact Nat.count_strict_mono is_due before
    rw [List.getElem?_set_ne earlier.ne', h.entries m before is_due]
  · rw [← h.count, List.getElem?_set_self lt, h.state]
    rfl

theorem Recorded.turn (h : Recorded due view step start size n r)
    (room : Nat.count (due · = true) (n + 1) ≤ size) {s : σ} (goes : step n r.state = some s) :
    ∃ r', r.turn (due n) view (step n) = .ok r' ∧
      Recorded due view step start size (n + 1) r' := by
  have state : advance step (n + 1) start = some s := by
    rw [advance_succ, h.state]
    exact goes
  cases is_due : due n with
  | true =>
      have more : Nat.count (due · = true) (n + 1) = Nat.count (due · = true) n + 1 := by
        rw [Nat.count_succ, if_pos is_due]
      have lt : Nat.count (due · = true) n < size := by omega
      refine ⟨⟨s, r.array.set r.count (view r.state), r.count + 1⟩, ?_, state, ?_, ?_, ?_⟩
      · rw [Recorder.turn, if_pos rfl, h.write lt]
        change (do let state ← Fault.ofOption (step n r.state); _) = _
        rw [goes]
        rfl
      · rw [List.length_set, h.length]
      · rw [more, h.count]
      · intro m before recorded
        exact h.entry lt (Nat.le_of_lt_succ before) (.inl recorded)
  | false =>
      have same : Nat.count (due · = true) (n + 1) = Nat.count (due · = true) n := by
        rw [Nat.count_succ, if_neg (Bool.eq_false_iff.mp is_due), Nat.add_zero]
      refine ⟨{ r with state := s }, ?_, state, h.length, ?_, ?_⟩
      · rw [Recorder.turn, if_neg Bool.false_ne_true]
        change (do let state ← Fault.ofOption (step n r.state); _) = _
        rw [goes]
        rfl
      · rw [same]
        exact h.count
      · intro m before recorded
        rcases Nat.lt_succ_iff_lt_or_eq.mp before with earlier | rfl
        · exact h.entries m earlier recorded
        · rw [is_due] at recorded
          cases recorded

theorem Recorded.turn_fails (h : Recorded due view step start size n r)
    (room : Nat.count (due · = true) (n + 1) ≤ size) (fails : step n r.state = none) :
    r.turn (due n) view (step n) = .error .failed := by
  cases is_due : due n with
  | true =>
      have lt : Nat.count (due · = true) n < size := by
        rw [Nat.count_succ, if_pos is_due] at room
        omega
      rw [Recorder.turn, if_pos rfl, h.write lt]
      change (do let state ← Fault.ofOption (step n r.state); _) = _
      rw [fails]
      rfl
  | false =>
      rw [Recorder.turn, if_neg Bool.false_ne_true]
      change (do let state ← Fault.ofOption (step n r.state); _) = _
      rw [fails]
      rfl

theorem Recorder.turn_ok {due : Bool} {step : σ → Option σ} {r' : Recorder σ α}
    (run : r.turn due view step = .ok r') : (due = true → r.count < r.array.length) ∧
      ∃ s, step r.state = some s := by
  refine ⟨?_, ?_⟩
  · rintro rfl
    by_contra full
    have missed : writeAt r.array r.count (view r.state) = .error .outOfRange := if_neg full
    rw [Recorder.turn, if_pos rfl, Recorder.write, missed] at run
    cases run
  · cases goes : step r.state with
    | some s => exact ⟨s, rfl⟩
    | none =>
        rw [Recorder.turn] at run
        cases due with
        | false =>
            change (do let state ← Fault.ofOption (step r.state); _) = _ at run
            rw [goes] at run
            cases run
        | true =>
            rw [if_pos rfl, Recorder.write, writeAt] at run
            split at run
            · change (do let state ← Fault.ofOption (step r.state); _) = _ at run
              rw [goes] at run
              cases run
            · cases run

theorem recorded_of_ok {array : List α}
    (run : (List.range n).foldlM (fun r m => Recorder.turn (due m) view (step m) r)
      (⟨start, array, 0⟩ : Recorder σ α) = .ok r) :
    Recorded due view step start array.length n r ∧
      Nat.count (due · = true) n ≤ array.length := by
  induction n generalizing r with
  | zero =>
      cases run
      exact ⟨⟨rfl, rfl, rfl, fun m lt => absurd lt m.not_lt_zero⟩, Nat.zero_le _⟩
  | succ n ih =>
      rw [List.range_succ, List.foldlM_append] at run
      cases before : (List.range n).foldlM (fun r m => Recorder.turn (due m) view (step m) r)
          (⟨start, array, 0⟩ : Recorder σ α) with
      | error e =>
          rw [before] at run
          cases run
      | ok r₀ =>
          obtain ⟨recorded, room⟩ := ih before
          have turn : r₀.turn (due n) view (step n) = .ok r := by
            rw [before, ok_bind, List.foldlM_cons] at run
            cases turn : r₀.turn (due n) view (step n) with
            | error e =>
                rw [turn] at run
                cases run
            | ok r₁ =>
                rw [turn] at run
                exact run
          obtain ⟨writes, s, goes⟩ := Recorder.turn_ok turn
          have room' : Nat.count (due · = true) (n + 1) ≤ array.length := by
            rw [Nat.count_succ]
            split
            · rename_i is_due
              have lt := writes is_due
              rwa [recorded.count, recorded.length] at lt
            · exact room
          obtain ⟨r', turn', recorded'⟩ := recorded.turn room' goes
          rw [turn] at turn'
          cases turn'
          exact ⟨recorded', room'⟩

theorem record_cases (due : ℕ → Bool) (view : σ → α) (step : ℕ → σ → Option σ) (start : σ)
    (array : List α) (n : ℕ) (room : Nat.count (due · = true) n ≤ array.length) :
    let run := (List.range n).foldlM (fun r m => Recorder.turn (due m) view (step m) r)
      (⟨start, array, 0⟩ : Recorder σ α)
    (run = .error .failed ∧ advance step n start = none) ∨
      ∃ r, run = .ok r ∧ Recorded due view step start array.length n r := by
  intro run
  induction n with
  | zero =>
      refine .inr ⟨⟨start, array, 0⟩, rfl, rfl, rfl, rfl, ?_⟩
      intro m lt
      exact absurd lt m.not_lt_zero
  | succ n ih =>
      have room' := (Nat.count_monotone (due · = true) n.le_succ).trans room
      have unrolled : run = (do
          let r ← (List.range n).foldlM (fun r m => Recorder.turn (due m) view (step m) r)
            (⟨start, array, 0⟩ : Recorder σ α)
          Recorder.turn (due n) view (step n) r) := by
        change (List.range (n + 1)).foldlM _ _ = _
        rw [List.range_succ, List.foldlM_append]
        congr 1
        funext r
        rw [List.foldlM_cons]
        cases Recorder.turn (due n) view (step n) r <;> rfl
      rcases ih room' with ⟨failed, none⟩ | ⟨r, succeeds, recorded⟩
      · refine .inl ⟨?_, ?_⟩
        · rw [unrolled, failed]
          rfl
        · rw [advance_succ, none]
          rfl
      · rw [succeeds] at unrolled
        cases goes : step n r.state with
        | none =>
            refine .inl ⟨unrolled.trans (recorded.turn_fails room goes), ?_⟩
            rw [advance_succ, recorded.state]
            exact goes
        | some s =>
            obtain ⟨r', turn, recorded'⟩ := recorded.turn room goes
            exact .inr ⟨r', unrolled.trans turn, recorded'⟩

end

/-! ## Every tenth turn -/

theorem exists_count_eq {p : ℕ → Prop} [DecidablePred p] {n a : ℕ} (lt : a < Nat.count p n) :
    ∃ m < n, p m ∧ Nat.count p m = a := by
  induction n with
  | zero => cases lt
  | succ n ih =>
      by_cases before : a < Nat.count p n
      · obtain ⟨m, less, holds, counted⟩ := ih before
        exact ⟨m, Nat.lt_succ_of_lt less, holds, counted⟩
      · rw [Nat.count_succ] at lt
        split at lt
        · exact ⟨n, n.lt_succ_self, ‹_›, by omega⟩
        · omega

theorem count_tens {p : ℕ → Prop} [DecidablePred p] {n c : ℕ}
    (tens : ∀ m < n, p m ↔ m % 10 = 0 ∧ 10 * c ≤ m) {m : ℕ} (le : m ≤ n) :
    Nat.count p m = (m + 9) / 10 - c := by
  induction m with
  | zero =>
      rw [Nat.count_zero]
      omega
  | succ m ih =>
      have turn := tens m le
      rw [Nat.count_succ, ih (Nat.le_of_succ_le le)]
      split
      · rename_i holds
        rw [turn] at holds
        omega
      · rename_i fails
        rw [turn] at fails
        omega

theorem tens_iff {p : ℕ → Prop} [DecidablePred p] (n c : ℕ) :
    ((∀ m < n, p m → m = 10 * (Nat.count p m + c)) ∧ n = 10 * (Nat.count p n + c)) ↔
      (∀ m < n, p m ↔ m % 10 = 0 ∧ 10 * c ≤ m) ∧ n % 10 = 0 ∧ 10 * c ≤ n := by
  constructor
  · rintro ⟨numbered, last⟩
    refine ⟨fun m lt => ⟨fun holds => ?_, fun tens => ?_⟩, by omega, by omega⟩
    · have number := numbered m lt holds
      omega
    · obtain ⟨m', lt', holds, counted⟩ :=
        exists_count_eq (p := p) (n := n) (a := m / 10 - c) (by omega)
      have number := numbered m' lt' holds
      obtain rfl : m' = m := by omega
      exact holds
  · rintro ⟨tens, whole, least⟩
    refine ⟨fun m lt holds => ?_, ?_⟩
    · have multiple := (tens m lt).mp holds
      rw [count_tens tens lt.le]
      omega
    · rw [count_tens tens le_rfl]
      omega

/-! ## Copying -/

def copyInto (array source : List α) (place : ℕ) (pick : ℕ → ℕ) (n : ℕ) :
    Except Fault (List α) :=
  (List.range n).foldlM (fun array j => do
    writeAt array (place + j) (← readAt source (pick j))) array

theorem copyInto_ok {array source : List α} {place : ℕ} {pick : ℕ → ℕ} {n : ℕ}
    (reads : ∀ j < n, pick j < source.length) (room : place + n ≤ array.length) :
    ∃ array', copyInto array source place pick n = .ok array' ∧
      array'.length = array.length ∧
      (∀ j < n, array'[place + j]? = source[pick j]?) ∧
      ∀ p, p < place ∨ place + n ≤ p → array'[p]? = array[p]? := by
  obtain ⟨array', run, length, copied, rest⟩ := foldlM_range_pure (n := n) (b := array)
    (f := fun array j => do writeAt array (place + j) (← readAt source (pick j)))
    (fun m a => a.length = array.length ∧ (∀ j < m, a[place + j]? = source[pick j]?) ∧
      ∀ p, p < place ∨ place + m ≤ p → a[p]? = array[p]?)
    ⟨rfl, fun j lt => absurd lt j.not_lt_zero, fun _ _ => rfl⟩ (by
      rintro m a lt ⟨length, copied, rest⟩
      have known : pick m < source.length := reads m lt
      have entry := List.getElem?_eq_getElem known
      have inside : place + m < a.length := by omega
      refine ⟨a.set (place + m) source[pick m], ?_, ?_, ?_, ?_⟩
      · rw [readAt_eq entry]
        exact writeAt_eq inside _
      · rw [List.length_set, length]
      · intro j before
        rcases Nat.lt_succ_iff_lt_or_eq.mp before with earlier | rfl
        · rw [List.getElem?_set_ne (by omega), copied j earlier]
        · rw [List.getElem?_set_self inside, entry]
      · intro p outside
        rw [List.getElem?_set_ne (by omega)]
        exact rest p (by omega))
  exact ⟨array', run, length, copied, rest⟩

theorem copies_ok {A B : List α} (z : α) {i k : ℕ} (reads : i < A.length)
    (reads' : k < B.length) :
    ∃ half full, copyInto (List.replicate (i + k + 2) z) A 0 (i - ·) (i + 1) = .ok half ∧
      copyInto half B (i + 1) id (k + 1) = .ok full ∧ full.length = i + k + 2 ∧
      (∀ j ≤ i, half[j]? = A[i - j]?) ∧ (∀ j ≤ i, full[j]? = A[i - j]?) ∧
      (∀ j ≤ k, full[i + 1 + j]? = B[j]?) ∧
      half.length = i + k + 2 ∧ half[i + 1]? = some z := by
  have size : (List.replicate (i + k + 2) z).length = i + k + 2 := List.length_replicate
  obtain ⟨half, run, length, copied, rest⟩ :
      ∃ half, copyInto (List.replicate (i + k + 2) z) A 0 (i - ·) (i + 1) = .ok half ∧ _ :=
    copyInto_ok (fun j _ => lt_of_le_of_lt (Nat.sub_le i j) reads) (by omega)
  obtain ⟨full, run', length', copied', rest'⟩ :
      ∃ full, copyInto half B (i + 1) id (k + 1) = .ok full ∧ _ :=
    copyInto_ok (fun j lt => lt_of_le_of_lt (Nat.le_of_lt_succ lt) reads') (by omega)
  have reversed : ∀ j ≤ i, half[j]? = A[i - j]? := by
    intro j le
    have entry := copied j (Nat.lt_succ_of_le le)
    rwa [Nat.zero_add] at entry
  refine ⟨half, full, run, run', by omega, reversed, ?_, ?_, by omega, ?_⟩
  · intro j le
    rw [rest' j (.inl (by omega))]
    exact reversed j le
  · exact fun j le => copied' j (Nat.lt_succ_of_le le)
  · rw [rest (i + 1) (.inr (by omega)), List.getElem?_replicate, if_pos (by omega)]

end MilkyWay.Foundation
