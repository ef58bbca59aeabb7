import Mathlib
import MilkyWay.Foundation.RoundedArithmetic
import MilkyWay.Foundation.Sampling

/-! Times in arithmetic that may round. A loop adds its steps up, and of its turns those
are sampled whose time, divided by the step and cut off, is a multiple of ten. With rounded
sums and quotients the number of turns and the turns that are sampled depend on the errors. -/

namespace MilkyWay.Foundation

/-- The numbers of a time, with their values and their conversions to whole numbers. Sums
of numbers that are not negative grow and quotients by a step keep the order. -/
structure Clock (T R : Type*) [Preorder T] [Zero T] [Add T] [Div T] [NatCast T] [Zero R]
    [LT R] where
  value : T → R
  toUnsigned : T → ℕ
  ceil : T → ℤ
  value_pos {a : T} : 0 < a → 0 < value a
  add_pos {a b : T} : 0 ≤ a → 0 < b → 0 < a + b
  le_add {a b c : T} : 0 ≤ a → 0 ≤ b → 0 ≤ c → a + b ≤ a + b + c
  tenth_pos {a : T} : 0 < a → 0 < a / ((10 : ℕ) : T)
  start {c : T} : 0 < c → toUnsigned (0 / c) = 0
  div_mono {a b c : T} : 0 ≤ a → a ≤ b → 0 < c → toUnsigned (a / c) ≤ toUnsigned (b / c)
  le_ceil (a : T) : toUnsigned a ≤ (ceil a).toNat

namespace Clock

def exact {R : Type*} [Field R] [LinearOrder R] [IsStrictOrderedRing R] [FloorRing R] :
    Clock R R where
  value := id
  toUnsigned a := ⌊a⌋₊
  ceil a := ⌈a⌉
  value_pos positive := positive
  add_pos := add_pos_of_nonneg_of_pos
  le_add _ _ nonneg := le_add_of_nonneg_right nonneg
  tenth_pos positive := div_pos positive (Nat.cast_pos.mpr (by decide))
  start _ := by rw [zero_div, Nat.floor_zero]
  div_mono _ le positive := Nat.floor_mono (div_le_div_of_nonneg_right le positive.le)
  le_ceil a := by
    rw [Int.ceil_toNat]
    exact Nat.floor_le_ceil a

/-- Times as doubles. -/
def double : Clock Double ℝ where
  value a := (a.value : ℝ)
  toUnsigned a := ⌊a.value⌋₊
  ceil a := ⌈a.value⌉
  value_pos positive := Rat.cast_pos.mpr positive
  add_pos nonneg positive := roundDouble_pos (add_pos_of_nonneg_of_pos nonneg positive)
  le_add {a b c} nonneg nonneg' nonneg'' := by
    have sum : (0 : ℚ) ≤ a.value + b.value := add_nonneg nonneg nonneg'
    change roundDouble (a.value + b.value) ≤ roundDouble (roundDouble (a.value + b.value) + c.value)
    have grown := roundDouble_mono (roundDouble_nonneg sum)
      (le_add_of_nonneg_right (a := roundDouble (a.value + b.value)) nonneg'')
    rwa [roundDouble_round sum] at grown
  tenth_pos positive :=
    roundDouble_pos (div_pos positive (roundDouble_pos (Nat.cast_pos.mpr (by decide))))
  start {c} _ := by
    change ⌊roundDouble (0 / c.value)⌋₊ = 0
    rw [zero_div, roundDouble_zero, Nat.floor_zero]
  div_mono nonneg le positive := Nat.floor_mono
    (roundDouble_mono (div_nonneg nonneg (le_of_lt positive))
      (div_le_div_of_nonneg_right le (le_of_lt positive)))
  le_ceil a := by
    rw [Int.ceil_toNat]
    exact Nat.floor_le_ceil a.value

section
variable {T R : Type*} [Preorder T] [Zero T] [Add T] [Div T] [NatCast T] [Zero R] [LT R]
  (clock : Clock T R) {upper dt : T} {n : ℕ}

include clock in
theorem ticks_pos (positive : 0 < dt) (n : ℕ) : 0 < ticks dt (n + 1) := by
  induction n with
  | zero => exact clock.add_pos le_rfl positive
  | succ n ih => exact clock.add_pos ih.le positive

include clock in
theorem ticks_nonneg (positive : 0 < dt) (n : ℕ) : 0 ≤ ticks dt n := by
  cases n with
  | zero => exact le_rfl
  | succ n => exact (clock.ticks_pos positive n).le

include clock in
theorem ticks_mono (positive : 0 < dt) : Monotone (ticks dt) := by
  refine monotone_nat_of_le_succ fun n => ?_
  cases n with
  | zero => exact (clock.ticks_pos positive 0).le
  | succ n => exact clock.le_add (clock.ticks_nonneg positive n) positive.le positive.le

def sampled (dt : T) (n : ℕ) : Bool := clock.toUnsigned (ticks dt n / dt) % 10 == 0

theorem sampled_zero (positive : 0 < dt) : clock.sampled dt 0 = true := by
  rw [sampled, ticks, clock.start positive]
  rfl

/-- A loop up to a time takes a multiple of ten turns, of which each tenth is sampled. -/
structure Tenths (upper dt : T) (n : ℕ) : Prop where
  turns : Turns upper dt n
  whole : n % 10 = 0
  positive : 0 < n
  sampled : ∀ m < n, clock.sampled dt m = true ↔ m % 10 = 0

theorem Tenths.lt_toUnsigned {clock : Clock T R} (tenths : clock.Tenths upper dt n)
    (positive : 0 < dt) {q : ℕ} (lt : 10 * q + 1 < n) :
    q < clock.toUnsigned (ticks dt (10 * q + 1) / dt) := by
  have mono (m m' : ℕ) (le : m ≤ m') :
      clock.toUnsigned (ticks dt m / dt) ≤ clock.toUnsigned (ticks dt m' / dt) :=
    clock.div_mono (clock.ticks_nonneg positive m) (clock.ticks_mono positive le) positive
  have tens (m : ℕ) (lt : m < n) : clock.toUnsigned (ticks dt m / dt) % 10 = 0 ↔ m % 10 = 0 := by
    rw [← tenths.sampled m lt, Clock.sampled, beq_iff_eq]
  have after := tens (10 * q + 1) lt
  cases q with
  | zero => omega
  | succ q =>
      have earlier := tenths.lt_toUnsigned positive (q := q) (by omega)
      have sample := tens (10 * (q + 1)) (by omega)
      have grown := mono (10 * q + 1) (10 * (q + 1)) (by omega)
      have grown' := mono (10 * (q + 1)) (10 * (q + 1) + 1) (Nat.le_succ _)
      omega

theorem Tenths.room {clock : Clock T R} (tenths : clock.Tenths upper dt n) (positive : 0 < dt) :
    n / 10 < (clock.ceil (upper / dt) + 1).natAbs + 1 := by
  have some_turn := tenths.positive
  have whole := tenths.whole
  have last : 10 * (n / 10 - 1) + 1 < n := by omega
  have counted := tenths.lt_toUnsigned positive last
  have within := clock.div_mono (clock.ticks_nonneg positive _) (tenths.turns.within _ last)
    positive
  have above := clock.le_ceil (upper / dt)
  omega

end

/-- With exact arithmetic the turns are whole tens where nine steps past a ten fit. -/
theorem tenths_exact_iff {R : Type*} [Field R] [LinearOrder R] [IsStrictOrderedRing R]
    [FloorRing R] {upper dt : R} (positive : 0 < dt) (nonneg : 0 ≤ upper) (n : ℕ) :
    exact.Tenths upper dt n ↔ n = ⌊upper / dt⌋₊ + 1 ∧ ⌊upper / dt⌋₊ % 10 = 9 := by
  have every (m : ℕ) : (exact : Clock R R).sampled dt m = true ↔ m % 10 = 0 := by
    rw [sampled, ticks_eq, beq_iff_eq]
    change ⌊(m : R) * dt / dt⌋₊ % 10 = 0 ↔ _
    rw [floor_time positive]
  constructor
  · rintro ⟨turns, whole, -, -⟩
    rw [turns_iff positive nonneg] at turns
    omega
  · rintro ⟨rfl, nine⟩
    exact ⟨(turns_iff positive nonneg _).mpr rfl, by omega, by omega, fun m _ => every m⟩

end Clock

end MilkyWay.Foundation
