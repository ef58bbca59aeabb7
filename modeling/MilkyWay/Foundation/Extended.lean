import Mathlib.Algebra.Order.Field.Basic
import Mathlib.Order.WithBot
import Mathlib.Order.Defs.Unbundled

/-! Numbers with infinities and a value that is not a number: comparisons with it are
false, also those with itself. -/

namespace MilkyWay.Foundation

inductive Extended (F : Type) where
  | nan
  | num (x : WithBot (WithTop F))
deriving DecidableEq

namespace Extended

variable {F : Type}

def infinity : Extended F := num ((⊤ : WithTop F) : WithBot (WithTop F))

def fin (x : F) : Extended F := num ((x : WithTop F) : WithBot (WithTop F))

instance [Zero F] : Zero (Extended F) := ⟨fin 0⟩

/-- A number by a function, where it is finite. -/
def map (op : F → F) : Extended F → Extended F
  | num (some (some x)) => fin (op x)
  | _ => nan

def map₂ (op : F → F → F) : Extended F → Extended F → Extended F
  | num (some (some x)), num (some (some y)) => fin (op x y)
  | _, _ => nan

instance [OfScientific F] : OfScientific (Extended F) where
  ofScientific m s e := fin (OfScientific.ofScientific m s e)

def opposite [Neg F] : WithBot (WithTop F) → WithBot (WithTop F)
  | none => ((⊤ : WithTop F) : WithBot (WithTop F))
  | some none => ⊥
  | some (some x) => ((-x : F) : WithTop F)

theorem ofScientific_ne_nan [OfScientific F] (m : ℕ) (s : Bool) (e : ℕ) :
    (OfScientific.ofScientific m s e : Extended F) ≠ nan := nofun

instance [Neg F] : Neg (Extended F) where
  neg
    | nan => nan
    | num x => num (opposite x)

instance [DecidableEq F] : BEq (Extended F) where
  beq
    | num x, num y => decide (x = y)
    | _, _ => false

instance [LT F] : LT (Extended F) where
  lt
    | num x, num y => x < y
    | _, _ => False

instance [LE F] : LE (Extended F) where
  le
    | num x, num y => x ≤ y
    | _, _ => False

section
variable [LinearOrder F]

instance : DecidableLT (Extended F)
  | num x, num y => inferInstanceAs (Decidable (x < y))
  | nan, _ => .isFalse id
  | num _, nan => .isFalse id

instance : DecidableLE (Extended F)
  | num x, num y => inferInstanceAs (Decidable (x ≤ y))
  | nan, _ => .isFalse id
  | num _, nan => .isFalse id

/-- The product, which has the sign of an infinity unless the other factor is zero. -/
def times [Zero F] [Mul F] (a b : Extended F) : Extended F :=
  match a, b with
  | num (some (some x)), num (some (some y)) => fin (x * y)
  | num x, num y =>
      let zero : WithBot (WithTop F) := ((0 : F) : WithTop F)
      if zero < x ∧ zero < y ∨ x < zero ∧ y < zero then infinity
      else if zero < x ∧ y < zero ∨ x < zero ∧ zero < y then num ⊥
      else nan
  | _, _ => nan

def plus [Add F] (a b : Extended F) : Extended F :=
  match a, b with
  | num (some (some x)), num (some (some y)) => fin (x + y)
  | num (some (some _)), num y => num y
  | num x, num (some (some _)) => num x
  | num x, num y => if x = y then num x else nan
  | nan, _ => nan
  | num _, nan => nan

def quotient [Zero F] [Neg F] [Div F] (a b : Extended F) : Extended F :=
  match a, b with
  | num (some (some x)), num (some (some y)) =>
      if y = 0 then if x = 0 then nan else if 0 < x then infinity else num ⊥ else fin (x / y)
  | num (some (some _)), num _ => 0
  | num x, num (some (some y)) => if 0 ≤ y then num x else num (opposite x)
  | _, _ => nan

theorem nan_plus [Add F] (a : Extended F) : plus nan a = nan := by
  cases a <;> rfl

theorem plus_zero [AddZeroClass F] (a : Extended F) : plus a 0 = a := by
  match a with
  | nan => rfl
  | num none => rfl
  | num (some none) => rfl
  | num (some (some x)) => exact congrArg fin (add_zero x)

instance : IsStrictOrder (Extended F) (· < ·) where
  irrefl
    | nan => id
    | num x => lt_irrefl x
  trans
    | num x, num y, num z, h, h' => show x < z from lt_trans (show x < y from h) h'
    | nan, _, _, h, _ => h.elim
    | num _, nan, _, h, _ => h.elim
    | num _, num _, nan, _, h => h.elim

omit [LinearOrder F] in
theorem fin_injective {x y : F} (h : fin x = fin y) : x = y :=
  WithTop.coe_injective (WithBot.coe_injective (num.inj h))

theorem fin_lt_fin {x y : F} : fin x < fin y ↔ x < y :=
  WithBot.coe_lt_coe.trans WithTop.coe_lt_coe

theorem fin_le_fin {x y : F} : fin x ≤ fin y ↔ x ≤ y :=
  WithBot.coe_le_coe.trans WithTop.coe_le_coe

theorem le_refl_of_ne_nan {a : Extended F} (number : a ≠ nan) : a ≤ a := by
  cases a with
  | nan => exact absurd rfl number
  | num x => exact le_refl x

theorem not_lt_of_le {a b : Extended F} (h : a ≤ b) : ¬b < a := by
  cases a with
  | nan => exact h.elim
  | num x =>
      cases b with
      | nan => exact h.elim
      | num y => exact not_lt.mpr (show x ≤ y from h)

theorem le_trans {a b c : Extended F} (h : a ≤ b) (h' : b ≤ c) : a ≤ c := by
  match a, b, c, h, h' with
  | num x, num y, num z, h, h' => exact show x ≤ z from (show x ≤ y from h).trans h'

theorem times_pos [MulZeroClass F] [PosMulStrictMono F] {a : Extended F} {y : F} (ha : 0 < a)
    (hy : 0 < y) : 0 < times a (fin y) := by
  match a, ha with
  | num (some (some x)), ha => exact fin_lt_fin.mpr (mul_pos (fin_lt_fin.mp ha) hy)
  | num (some none), ha =>
      have both : (((0 : F) : WithTop F) : WithBot (WithTop F)) < some none ∧
          (((0 : F) : WithTop F) : WithBot (WithTop F)) < ((y : WithTop F) : WithBot (WithTop F)) :=
        ⟨ha, WithBot.coe_lt_coe.mpr (WithTop.coe_lt_coe.mpr hy)⟩
      have infinite : times (num (some none)) (fin y) = infinity := if_pos (.inl both)
      rw [infinite]
      exact ha

theorem le_of_not_lt {a b : Extended F} (ha : a ≠ nan) (hb : b ≠ nan) (h : ¬a < b) : b ≤ a := by
  cases a with
  | nan => exact absurd rfl ha
  | num x =>
      cases b with
      | nan => exact absurd rfl hb
      | num y => exact not_lt.mp (show ¬x < y from h)

theorem eq_or_lt_of_not_lt {a b : Extended F} (ha : a ≠ nan) (hb : b ≠ nan) (h : ¬a < b) :
    b = a ∨ b < a := by
  cases a with
  | nan => exact absurd rfl ha
  | num x =>
      cases b with
      | nan => exact absurd rfl hb
      | num y =>
          obtain rfl | less := eq_or_lt_of_le (not_lt.mp (show ¬x < y from h))
          · exact .inl rfl
          · exact .inr (show y < x from less)

theorem bne_self (a : Extended F) : (a != a) = true ↔ a = nan := by
  cases a with
  | nan => exact ⟨fun _ => rfl, fun _ => rfl⟩
  | num x =>
      have same : (num x == num x) = true := decide_eq_true rfl
      rw [bne, same]
      exact ⟨nofun, nofun⟩

end

theorem neg_injective [InvolutiveNeg F] {a b : Extended F} (h : -a = -b) : a = b := by
  have twice : ∀ c : Extended F, -(-c) = c := by
    intro c
    match c with
    | nan => rfl
    | num none => rfl
    | num (some none) => rfl
    | num (some (some x)) => exact congrArg fin (neg_neg x)
  rw [← twice a, h, twice]

theorem neg_eq_nan [Neg F] {a : Extended F} : -a = nan ↔ a = nan := by
  cases a with
  | nan => exact Iff.rfl
  | num x => exact ⟨nofun, nofun⟩

/-! ## Arithmetic -/

namespace Arithmetic

variable [Field F] [LinearOrder F]

scoped instance : Add (Extended F) := ⟨plus⟩
scoped instance : Sub (Extended F) := ⟨fun a b => plus a (-b)⟩
scoped instance : Mul (Extended F) := ⟨times⟩
scoped instance : Div (Extended F) := ⟨quotient⟩
scoped instance : NatCast (Extended F) := ⟨fun n => fin n⟩
scoped instance : IntCast (Extended F) := ⟨fun n => fin n⟩

variable {x y : F} {a : Extended F}

theorem fin_add : fin x + fin y = fin (x + y) := rfl

theorem fin_sub : fin x - fin y = fin (x - y) := congrArg fin (sub_eq_add_neg x y).symm

theorem fin_mul : fin x * fin y = fin (x * y) := rfl

theorem fin_div (h : y ≠ 0) : fin x / fin y = fin (x / y) := if_neg h

theorem zero_div_zero : fin (0 : F) / fin 0 = nan := (if_pos rfl).trans (if_pos rfl)

theorem fin_div_zero (positive : 0 < x) : fin x / fin 0 = infinity :=
  (if_pos rfl).trans ((if_neg positive.ne').trans (if_pos positive))

theorem zero_lt_infinity :
    (((0 : F) : WithTop F) : WithBot (WithTop F)) < ((⊤ : WithTop F) : WithBot (WithTop F)) :=
  WithBot.coe_lt_coe.mpr (WithTop.coe_lt_top 0)

theorem fin_mul_infinity (positive : 0 < x) : fin x * infinity = infinity :=
  if_pos (Or.inl ⟨WithBot.coe_lt_coe.mpr (WithTop.coe_lt_coe.mpr positive), zero_lt_infinity⟩)

theorem infinity_mul_infinity : (infinity : Extended F) * infinity = infinity := by
  change times (num (some none)) (num (some none)) = infinity
  unfold times
  exact if_pos (Or.inl ⟨zero_lt_infinity, zero_lt_infinity⟩)

theorem fin_add_infinity (x : F) : fin x + infinity = infinity := rfl

theorem infinity_div_infinity : (infinity : Extended F) / infinity = nan := rfl

theorem nan_div : nan / a = nan := by cases a <;> rfl

theorem nan_add : nan + a = nan := nan_plus a

theorem add_nan : a + nan = nan := by
  cases a with
  | nan => rfl
  | num x =>
      match x with
      | none => rfl
      | some none => rfl
      | some (some _) => rfl

theorem nan_mul : nan * a = nan := by cases a <;> rfl

theorem mul_nan : a * nan = nan := by
  cases a with
  | nan => rfl
  | num x =>
      match x with
      | none => rfl
      | some none => rfl
      | some (some _) => rfl

end Arithmetic

end Extended

end MilkyWay.Foundation
