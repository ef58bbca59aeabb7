import Mathlib.Algebra.Order.Field.Basic
import Mathlib.Algebra.Order.Floor.Ring
import Mathlib.Data.Nat.Cast.Order.Basic
import Mathlib.Tactic.FieldSimp
import Mathlib.Tactic.Linarith
import Mathlib.Tactic.Positivity
import MilkyWay.Foundation.Kahan

/-! Arithmetic that may round but keeps the order of numbers that are not negative. Exact
arithmetic does, and so do operations that are rounded to 53 binary digits. -/

namespace MilkyWay.Foundation

/-- Operations on numbers that are not negative keep the order; a quotient of equals is at
most one and nothing added to a product leaves it. -/
class RoundedArithmetic (R : Type*) [Preorder R] [Zero R] [NatCast R] [Add R] [Mul R] [Div R] :
    Prop where
  natCast_mono : Monotone (Nat.cast : ℕ → R)
  natCast_nonneg (n : ℕ) : 0 ≤ (n : R)
  natCast_pos {n : ℕ} : 0 < n → 0 < (n : R)
  add_nonneg {a b : R} : 0 ≤ a → 0 ≤ b → 0 ≤ a + b
  add_le_add {a b c d : R} : 0 ≤ a → a ≤ b → 0 ≤ c → c ≤ d → a + c ≤ b + d
  mul_pos {n : ℕ} {a : R} : 0 < n → 0 < a → 0 < (n : R) * a
  mul_nonneg (n : ℕ) {a : R} : 0 ≤ a → 0 ≤ (n : R) * a
  mul_le_mul {m n : ℕ} {a : R} : m ≤ n → 0 ≤ a → (m : R) * a ≤ (n : R) * a
  zero_add_mul (n : ℕ) {a : R} : 0 ≤ a → ((0 : ℕ) : R) + (n : R) * a ≤ (n : R) * a
  div_nonneg {a c : R} : 0 ≤ a → 0 < c → 0 ≤ a / c
  div_le_div {a b c : R} : 0 ≤ a → a ≤ b → 0 < c → a / c ≤ b / c
  div_self {c : R} : 0 < c → c / c ≤ ((1 : ℕ) : R)

instance {K : Type*} [Field K] [LinearOrder K] [IsStrictOrderedRing K] : RoundedArithmetic K where
  natCast_mono := Nat.mono_cast
  natCast_nonneg := Nat.cast_nonneg
  natCast_pos := Nat.cast_pos.mpr
  add_nonneg := add_nonneg
  add_le_add _ le _ le' := add_le_add le le'
  mul_pos positive := mul_pos (Nat.cast_pos.mpr positive)
  mul_nonneg n _ := mul_nonneg n.cast_nonneg
  mul_le_mul le := mul_le_mul_of_nonneg_right (Nat.cast_le.mpr le)
  zero_add_mul n a _ := by rw [Nat.cast_zero, zero_add]
  div_nonneg nonneg positive := div_nonneg nonneg positive.le
  div_le_div _ le positive := div_le_div_of_nonneg_right le positive.le
  div_self positive := by rw [div_self positive.ne', Nat.cast_one]

/-- The conversion to a signed whole number of 64 bits, in whose range it cuts off. -/
structure LongConversion (R : Type*) [Preorder R] [Zero R] [NatCast R] [IntCast R] [Add R] where
  toLong : R → ℤ
  nonneg {a b : R} : 0 ≤ a → 0 ≤ b → a + b < ((2 ^ 63 : ℕ) : R) → (0 : R) ≤ (toLong (a + b) : R)
  le {a b : R} : 0 ≤ a → 0 ≤ b → a + b < ((2 ^ 63 : ℕ) : R) → (toLong (a + b) : R) ≤ a + b
  mono {x y : R} : 0 ≤ x → x ≤ y → y < ((2 ^ 63 : ℕ) : R) → (toLong x : R) ≤ (toLong y : R)

/-- Beyond the range the result is as indeterminate as the conversion is. -/
def LongConversion.exact {K : Type*} [Field K] [LinearOrder K] [IsStrictOrderedRing K]
    [FloorRing K] (indeterminate : K → ℤ) : LongConversion K where
  toLong x := if x < ((2 ^ 63 : ℕ) : K) then ⌊x⌋ else indeterminate x
  nonneg first second range := by
    rw [if_pos range]
    exact_mod_cast Int.floor_nonneg.mpr (add_nonneg first second)
  le _ _ range := by
    rw [if_pos range]
    exact Int.floor_le _
  mono _ le range := by
    rw [if_pos range, if_pos (le.trans_lt range)]
    exact_mod_cast Int.floor_mono le

/-! ## Doubles -/

theorem nearestEven_near (x : ℚ) : x - 1 / 2 ≤ nearestEven x ∧ nearestEven x ≤ x + 1 / 2 := by
  have low := Int.floor_le x
  have high := Int.lt_floor_add_one x
  unfold nearestEven
  dsimp only
  split_ifs <;> push_cast <;> constructor <;> linarith

theorem nearestEven_mono {x y : ℚ} (le : x ≤ y) : nearestEven x ≤ nearestEven y := by
  by_contra greater
  have step : (nearestEven y : ℚ) + 1 ≤ nearestEven x := by
    exact_mod_cast Int.add_one_le_iff.mpr (not_le.mp greater)
  have same : x = y := by
    linarith [(nearestEven_near x).2, (nearestEven_near y).1]
  rw [same] at greater
  exact greater le_rfl

theorem nearestEven_intCast (n : ℤ) : nearestEven n = n := by
  unfold nearestEven
  rw [Int.floor_intCast]
  dsimp only
  rw [sub_self, if_pos (by norm_num)]

def lastPlace (x : ℚ) : ℚ := 2 ^ (Int.log 2 |x| - 52)

theorem lastPlace_pos (x : ℚ) : 0 < lastPlace x := zpow_pos two_pos _

theorem roundDouble_eq {x : ℚ} (nonzero : x ≠ 0) :
    roundDouble x = nearestEven (x / lastPlace x) * lastPlace x := if_neg nonzero

theorem pow_mul_lastPlace {x : ℚ} (positive : 0 < x) (n : ℤ) :
    2 ^ n * lastPlace x = 2 ^ (Int.log 2 x + (n - 52)) := by
  rw [lastPlace, abs_of_pos positive, ← zpow_add₀ two_ne_zero]
  congr 1
  omega

theorem le_div_lastPlace {x : ℚ} (positive : 0 < x) :
    ((2 ^ 52 : ℤ) : ℚ) ≤ x / lastPlace x := by
  have low := Int.zpow_log_le_self (b := 2) one_lt_two positive
  have place := pow_mul_lastPlace positive 52
  rw [le_div_iff₀ (lastPlace_pos x)]
  rw [sub_self, add_zero] at place
  exact_mod_cast place.le.trans (by exact_mod_cast low)

theorem div_lastPlace_le {x : ℚ} (positive : 0 < x) :
    x / lastPlace x ≤ ((2 ^ 53 : ℤ) : ℚ) := by
  have high := Int.lt_zpow_succ_log_self (b := 2) one_lt_two x
  have place := pow_mul_lastPlace positive 53
  rw [div_le_iff₀ (lastPlace_pos x)]
  exact_mod_cast le_trans (by exact_mod_cast high.le) place.ge

theorem le_nearestEven {x : ℚ} (positive : 0 < x) :
    2 ^ 52 ≤ nearestEven (x / lastPlace x) := by
  rw [← nearestEven_intCast (2 ^ 52)]
  exact nearestEven_mono (le_div_lastPlace positive)

theorem nearestEven_le {x : ℚ} (positive : 0 < x) :
    nearestEven (x / lastPlace x) ≤ 2 ^ 53 := by
  rw [← nearestEven_intCast (2 ^ 53)]
  exact nearestEven_mono (div_lastPlace_le positive)

theorem roundDouble_zero : roundDouble 0 = 0 := if_pos rfl

theorem roundDouble_pos {x : ℚ} (positive : 0 < x) : 0 < roundDouble x := by
  rw [roundDouble_eq positive.ne']
  refine mul_pos ?_ (lastPlace_pos x)
  have least := le_nearestEven positive
  exact_mod_cast lt_of_lt_of_le (by norm_num : (0 : ℤ) < 2 ^ 52) least

theorem roundDouble_nonneg {x : ℚ} (nonneg : 0 ≤ x) : 0 ≤ roundDouble x := by
  obtain rfl | positive := nonneg.eq_or_lt
  · exact roundDouble_zero.ge
  · exact (roundDouble_pos positive).le

theorem roundDouble_mono {x y : ℚ} (nonneg : 0 ≤ x) (le : x ≤ y) :
    roundDouble x ≤ roundDouble y := by
  obtain rfl | positive := nonneg.eq_or_lt
  · rw [roundDouble_zero]
    exact roundDouble_nonneg le
  have positive' := positive.trans_le le
  rw [roundDouble_eq positive.ne', roundDouble_eq positive'.ne']
  obtain same | less := (Int.log_mono_right (b := 2) positive le).eq_or_lt
  · have place : lastPlace x = lastPlace y := by
      rw [lastPlace, lastPlace, abs_of_pos positive, abs_of_pos positive', same]
    rw [place]
    refine mul_le_mul_of_nonneg_right ?_ (lastPlace_pos y).le
    exact_mod_cast nearestEven_mono (div_le_div_of_nonneg_right le (lastPlace_pos y).le)
  · have most : (nearestEven (x / lastPlace x) : ℚ) ≤ 2 ^ (53 : ℤ) := by
      exact_mod_cast nearestEven_le positive
    have least : (2 : ℚ) ^ (52 : ℤ) ≤ nearestEven (y / lastPlace y) := by
      exact_mod_cast le_nearestEven positive'
    calc (nearestEven (x / lastPlace x) : ℚ) * lastPlace x
        ≤ 2 ^ (53 : ℤ) * lastPlace x := mul_le_mul_of_nonneg_right most (lastPlace_pos x).le
      _ = 2 ^ (Int.log 2 x + (53 - 52)) := pow_mul_lastPlace positive 53
      _ ≤ 2 ^ (Int.log 2 y + (52 - 52)) := zpow_le_zpow_right₀ one_le_two (by omega)
      _ = 2 ^ (52 : ℤ) * lastPlace y := (pow_mul_lastPlace positive' 52).symm
      _ ≤ nearestEven (y / lastPlace y) * lastPlace y :=
        mul_le_mul_of_nonneg_right least (lastPlace_pos y).le

theorem roundDouble_of_digits {r : ℚ} {n : ℤ} (positive : 0 < r) (digits : r = n * lastPlace r) :
    roundDouble r = r := by
  have exact : r / lastPlace r = n := by
    rw [div_eq_iff (lastPlace_pos r).ne']
    exact digits
  rw [roundDouble_eq positive.ne', exact, nearestEven_intCast, ← digits]

theorem lastPlace_of_log {r x : ℚ} (positive : 0 < r) (positive' : 0 < x)
    (same : Int.log 2 r = Int.log 2 x) : lastPlace r = lastPlace x := by
  rw [lastPlace, lastPlace, abs_of_pos positive, abs_of_pos positive', same]

theorem roundDouble_round {x : ℚ} (nonneg : 0 ≤ x) :
    roundDouble (roundDouble x) = roundDouble x := by
  obtain rfl | positive := nonneg.eq_or_lt
  · rw [roundDouble_zero, roundDouble_zero]
  have rounded := roundDouble_pos positive
  have value := roundDouble_eq positive.ne'
  obtain top | below := (nearestEven_le positive).eq_or_lt
  · have power : roundDouble x = 2 ^ (Int.log 2 x + 1) := by
      rw [value, top]
      exact_mod_cast pow_mul_lastPlace positive 53
    have log : Int.log 2 (roundDouble x) = Int.log 2 x + 1 := by
      rw [power]
      exact_mod_cast Int.log_zpow (R := ℚ) (b := 2) one_lt_two (Int.log 2 x + 1)
    refine roundDouble_of_digits (n := 2 ^ 52) rounded ?_
    have place := pow_mul_lastPlace rounded 52
    rw [log, sub_self, add_zero, ← power] at place
    exact_mod_cast place.symm
  · refine roundDouble_of_digits (n := nearestEven (x / lastPlace x)) rounded ?_
    rw [lastPlace_of_log rounded positive (le_antisymm ?_ ?_)]
    · exact value
    · have most : roundDouble x < 2 ^ (Int.log 2 x + 1) := by
        rw [value, show (1 : ℤ) = 53 - 52 from rfl, ← pow_mul_lastPlace positive 53]
        refine mul_lt_mul_of_pos_right ?_ (lastPlace_pos x)
        exact_mod_cast below
      exact Int.lt_add_one_iff.mp
        ((Int.lt_zpow_iff_log_lt one_lt_two rounded).mp (by exact_mod_cast most))
    · have least : (2 : ℚ) ^ Int.log 2 x ≤ roundDouble x := by
        rw [value, ← add_zero (Int.log 2 x), ← sub_self 52, ← pow_mul_lastPlace positive 52]
        refine mul_le_mul_of_nonneg_right ?_ (lastPlace_pos x).le
        exact_mod_cast le_nearestEven positive
      exact (Int.zpow_le_iff_le_log one_lt_two rounded).mp (by exact_mod_cast least)

instance : Preorder Double where
  le_refl x := le_refl x.value
  le_trans x y z := le_trans (a := x.value) (b := y.value) (c := z.value)
  lt_iff_le_not_ge x y := lt_iff_le_not_ge (a := x.value) (b := y.value)

instance : RoundedArithmetic Double where
  natCast_mono _ _ le := roundDouble_mono (Nat.cast_nonneg _) (Nat.cast_le.mpr le)
  natCast_nonneg n := roundDouble_nonneg n.cast_nonneg
  natCast_pos positive := roundDouble_pos (Nat.cast_pos.mpr positive)
  add_nonneg nonneg nonneg' := roundDouble_nonneg (add_nonneg nonneg nonneg')
  add_le_add nonneg le nonneg' le' :=
    roundDouble_mono (add_nonneg nonneg nonneg') (add_le_add le le')
  mul_pos positive positive' :=
    roundDouble_pos (mul_pos (roundDouble_pos (Nat.cast_pos.mpr positive)) positive')
  mul_nonneg n a nonneg := roundDouble_nonneg (mul_nonneg (roundDouble_nonneg n.cast_nonneg) nonneg)
  mul_le_mul le nonneg :=
    roundDouble_mono (mul_nonneg (roundDouble_nonneg (Nat.cast_nonneg _)) nonneg)
      (mul_le_mul_of_nonneg_right
        (roundDouble_mono (Nat.cast_nonneg _) (Nat.cast_le.mpr le)) nonneg)
  zero_add_mul n a nonneg := by
    change roundDouble (roundDouble ((0 : ℕ) : ℚ) + roundDouble (roundDouble n * a.value)) ≤ _
    rw [Nat.cast_zero, roundDouble_zero, zero_add, roundDouble_round]
    · exact le_refl _
    · exact mul_nonneg (roundDouble_nonneg n.cast_nonneg) nonneg
  div_nonneg nonneg positive := roundDouble_nonneg (div_nonneg nonneg (le_of_lt positive))
  div_le_div nonneg le positive :=
    roundDouble_mono (div_nonneg nonneg (le_of_lt positive))
      (div_le_div_of_nonneg_right le (le_of_lt positive))
  div_self positive := by
    change roundDouble (_ / _) ≤ roundDouble ((1 : ℕ) : ℚ)
    rw [div_self (ne_of_gt positive), Nat.cast_one]

/-- The conversion of doubles. -/
def Double.toLong (indeterminate : Double → ℤ) : LongConversion Double where
  toLong x := if x < ((2 ^ 63 : ℕ) : Double) then ⌊x.value⌋ else indeterminate x
  nonneg first second range := by
    rw [if_pos range]
    refine roundDouble_nonneg ?_
    exact_mod_cast Int.floor_nonneg.mpr (roundDouble_nonneg (add_nonneg first second))
  le {a b} first second range := by
    rw [if_pos range]
    have sum : (0 : ℚ) ≤ a.value + b.value := add_nonneg first second
    have rounded : roundDouble (⌊(a + b).value⌋ : ℚ) ≤ roundDouble (a + b).value := by
      refine roundDouble_mono ?_ (Int.floor_le _)
      exact_mod_cast Int.floor_nonneg.mpr (roundDouble_nonneg sum)
    exact rounded.trans_eq (roundDouble_round sum)
  mono {x y} nonneg le range := by
    rw [if_pos range, if_pos (lt_of_le_of_lt le range)]
    refine roundDouble_mono ?_ ?_
    · exact_mod_cast Int.floor_nonneg.mpr nonneg
    · exact_mod_cast Int.floor_mono le

end MilkyWay.Foundation
