import Mathlib.Data.Rat.Cast.Defs
import Mathlib.Algebra.Field.Basic

/-! Numbers that trace their divisions. Beside its value a number records whether it
depends on given quantities and on free ones, and whether nothing on the way was divided
by a zero that depends on given quantities alone. A computation for numbers of any kind
also runs on these, with the same values. -/

namespace MilkyWay.Foundation

@[ext] structure Traced (R : Type) where
  value : R
  given : Bool
  free : Bool
  sound : Bool

namespace Traced
variable {R : Type}

def ofConstant (x : R) : Traced R := ⟨x, false, false, true⟩

def ofGiven (x : R) : Traced R := ⟨x, true, false, true⟩

def ofInput (given : Bool) (x : R) : Traced R := ⟨x, given, !given, true⟩

def map (f : R → R) (a : Traced R) : Traced R := ⟨f a.value, a.given, a.free, a.sound⟩

def map₂ (f : R → R → R) (a b : Traced R) : Traced R :=
  ⟨f a.value b.value, a.given || b.given, a.free || b.free, a.sound && b.sound⟩

instance [Zero R] : Zero (Traced R) := ⟨ofConstant 0⟩
instance [OfScientific R] : OfScientific (Traced R) :=
  ⟨fun m s e => ofConstant (OfScientific.ofScientific m s e)⟩
instance [NatCast R] : NatCast (Traced R) := ⟨fun n => ofConstant n⟩
instance [IntCast R] : IntCast (Traced R) := ⟨fun n => ofConstant n⟩
instance [Neg R] : Neg (Traced R) := ⟨map Neg.neg⟩
instance [Add R] : Add (Traced R) := ⟨map₂ (· + ·)⟩
instance [Sub R] : Sub (Traced R) := ⟨map₂ (· - ·)⟩

@[simp] def isGivenZero [Zero R] [DecidableEq R] (a : Traced R) : Bool :=
  a.given && !a.free && decide (a.value = 0)

/-- A product with a zero that is given is that zero, whatever is free. -/
instance [Zero R] [DecidableEq R] [Mul R] : Mul (Traced R) where
  mul a b := ⟨a.value * b.value, a.given || b.given,
    (a.free || b.free) && !(a.isGivenZero || b.isGivenZero), a.sound && b.sound⟩

/-- The quotient is sound if the divisor is not a zero that is given. -/
instance [Zero R] [DecidableEq R] [Div R] : Div (Traced R) where
  div a b := ⟨a.value / b.value, a.given || b.given, a.free || b.free,
    a.sound && b.sound && !b.isGivenZero⟩

instance [LT R] : LT (Traced R) := ⟨fun a b => a.value < b.value⟩
instance [LE R] : LE (Traced R) := ⟨fun a b => a.value ≤ b.value⟩
instance [BEq R] : BEq (Traced R) := ⟨fun a b => a.value == b.value⟩
instance [LT R] [DecidableLT R] : DecidableLT (Traced R) :=
  fun a b => inferInstanceAs (Decidable (a.value < b.value))
instance [LE R] [DecidableLE R] : DecidableLE (Traced R) :=
  fun a b => inferInstanceAs (Decidable (a.value ≤ b.value))

/-! ## The parts of a result -/

@[simp] theorem value_ofConstant (x : R) : (ofConstant x).value = x := rfl
@[simp] theorem given_ofConstant (x : R) : (ofConstant x).given = false := rfl
@[simp] theorem free_ofConstant (x : R) : (ofConstant x).free = false := rfl
@[simp] theorem sound_ofConstant (x : R) : (ofConstant x).sound = true := rfl
@[simp] theorem value_ofGiven (x : R) : (ofGiven x).value = x := rfl
@[simp] theorem given_ofGiven (x : R) : (ofGiven x).given = true := rfl
@[simp] theorem free_ofGiven (x : R) : (ofGiven x).free = false := rfl
@[simp] theorem sound_ofGiven (x : R) : (ofGiven x).sound = true := rfl
@[simp] theorem value_ofInput (g : Bool) (x : R) : (ofInput g x).value = x := rfl
@[simp] theorem given_ofInput (g : Bool) (x : R) : (ofInput g x).given = g := rfl
@[simp] theorem free_ofInput (g : Bool) (x : R) : (ofInput g x).free = !g := rfl
@[simp] theorem sound_ofInput (g : Bool) (x : R) : (ofInput g x).sound = true := rfl

@[simp] theorem value_map (f : R → R) (a : Traced R) : (map f a).value = f a.value := rfl
@[simp] theorem given_map (f : R → R) (a : Traced R) : (map f a).given = a.given := rfl
@[simp] theorem free_map (f : R → R) (a : Traced R) : (map f a).free = a.free := rfl
@[simp] theorem sound_map (f : R → R) (a : Traced R) : (map f a).sound = a.sound := rfl
@[simp] theorem value_map₂ (f : R → R → R) (a b : Traced R) :
    (map₂ f a b).value = f a.value b.value := rfl
@[simp] theorem given_map₂ (f : R → R → R) (a b : Traced R) :
    (map₂ f a b).given = (a.given || b.given) := rfl
@[simp] theorem free_map₂ (f : R → R → R) (a b : Traced R) :
    (map₂ f a b).free = (a.free || b.free) := rfl
@[simp] theorem sound_map₂ (f : R → R → R) (a b : Traced R) :
    (map₂ f a b).sound = (a.sound && b.sound) := rfl

@[simp] theorem zero_eq [Zero R] : (0 : Traced R) = ofConstant 0 := rfl
@[simp] theorem ofScientific_eq [OfScientific R] (m : ℕ) (s : Bool) (e : ℕ) :
    (OfScientific.ofScientific m s e : Traced R) =
      ofConstant (OfScientific.ofScientific m s e) := rfl
@[simp] theorem natCast_eq [NatCast R] (n : ℕ) : (n : Traced R) = ofConstant (n : R) := rfl
@[simp] theorem intCast_eq [IntCast R] (n : ℤ) : (n : Traced R) = ofConstant (n : R) := rfl
@[simp] theorem neg_eq [Neg R] (a : Traced R) : -a = map Neg.neg a := rfl
@[simp] theorem add_eq [Add R] (a b : Traced R) : a + b = map₂ (· + ·) a b := rfl
@[simp] theorem sub_eq [Sub R] (a b : Traced R) : a - b = map₂ (· - ·) a b := rfl
@[simp] theorem lt_iff [LT R] (a b : Traced R) : a < b ↔ a.value < b.value := Iff.rfl
@[simp] theorem le_iff [LE R] (a b : Traced R) : a ≤ b ↔ a.value ≤ b.value := Iff.rfl
@[simp] theorem beq_eq [BEq R] (a b : Traced R) : (a == b) = (a.value == b.value) := rfl

section
variable [Zero R] [DecidableEq R] [Mul R] (a b : Traced R)

@[simp] theorem value_mul : (a * b).value = a.value * b.value := rfl
@[simp] theorem given_mul : (a * b).given = (a.given || b.given) := rfl
@[simp] theorem free_mul : (a * b).free =
    ((a.free || b.free) && !(a.isGivenZero || b.isGivenZero)) := rfl
@[simp] theorem sound_mul : (a * b).sound = (a.sound && b.sound) := rfl

end

section
variable [Zero R] [DecidableEq R] [Div R] (a b : Traced R)

@[simp] theorem value_div : (a / b).value = a.value / b.value := rfl
@[simp] theorem given_div : (a / b).given = (a.given || b.given) := rfl
@[simp] theorem free_div : (a / b).free = (a.free || b.free) := rfl
@[simp] theorem sound_div : (a / b).sound = true ↔ a.sound = true ∧ b.sound = true ∧
    (b.given = true → b.free = false → b.value ≠ 0) := by
  change (a.sound && b.sound && !(b.given && !b.free && decide (b.value = 0))) = true ↔ _
  cases b.given <;> cases b.free <;> simp [and_assoc]

end

@[simp] theorem value_ite (p : Prop) [Decidable p] (a b : Traced R) :
    (if p then a else b).value = if p then a.value else b.value := by
  split <;> rfl

@[simp] theorem given_ite (p : Prop) [Decidable p] (a b : Traced R) :
    (if p then a else b).given = if p then a.given else b.given := by
  split <;> rfl

@[simp] theorem free_ite (p : Prop) [Decidable p] (a b : Traced R) :
    (if p then a else b).free = if p then a.free else b.free := by
  split <;> rfl

@[simp] theorem sound_ite (p : Prop) [Decidable p] (a b : Traced R) :
    (if p then a else b).sound = if p then a.sound else b.sound := by
  split <;> rfl

/-! ## Divisors that are not looked at -/

structure Safe (a : Traced R) : Prop where
  sound : a.sound = true
  free : a.given = true → a.free = true

namespace Safe
variable {a b : Traced R}

theorem of_free (sound : a.sound = true) (free : a.free = true) : Safe a :=
  ⟨sound, fun _ => free⟩

theorem ofConstant (x : R) : Safe (ofConstant x) := ⟨rfl, nofun⟩

theorem ofFree (x : R) : Safe (ofInput false x) := ⟨rfl, nofun⟩

theorem map (safe : Safe a) (f : R → R) : Safe (map f a) := ⟨safe.sound, safe.free⟩

theorem map₂ (first : Safe a) (second : Safe b) (f : R → R → R) : Safe (map₂ f a b) := by
  refine ⟨by simp [first.sound, second.sound], fun given => ?_⟩
  rw [given_map₂, Bool.or_eq_true] at given
  rw [free_map₂, Bool.or_eq_true]
  exact given.imp first.free second.free

theorem neg [Neg R] (safe : Safe a) : Safe (-a) := safe.map _

theorem add [Add R] (first : Safe a) (second : Safe b) : Safe (a + b) := first.map₂ second _

theorem sub [Sub R] (first : Safe a) (second : Safe b) : Safe (a - b) := first.map₂ second _

theorem not_isGivenZero [Zero R] [DecidableEq R] (safe : Safe a) : a.isGivenZero = false := by
  cases given : a.given with
  | false => simp [given]
  | true => simp [safe.free given]

theorem mul [Zero R] [DecidableEq R] [Mul R] (first : Safe a) (second : Safe b) :
    Safe (a * b) := by
  refine ⟨by simp only [sound_mul, first.sound, second.sound, Bool.and_self], fun given => ?_⟩
  rw [given_mul, Bool.or_eq_true] at given
  rw [free_mul, first.not_isGivenZero, second.not_isGivenZero, Bool.or_self, Bool.not_false,
    Bool.and_true, Bool.or_eq_true]
  exact given.imp first.free second.free

theorem ite {p : Prop} [Decidable p] (first : Safe a) (second : Safe b) :
    Safe (if p then a else b) := by
  split
  · exact first
  · exact second

variable [Zero R] [DecidableEq R] [Div R]

theorem sound_div (sound : a.sound = true) (safe : Safe b) : (a / b).sound = true :=
  (Traced.sound_div a b).mpr ⟨sound, safe.sound, fun given rests =>
    absurd (safe.free given) (by simp [rests])⟩

theorem div (first : Safe a) (second : Safe b) : Safe (a / b) := by
  refine ⟨sound_div first.sound second, fun given => ?_⟩
  rw [given_div, Bool.or_eq_true] at given
  rw [free_div, Bool.or_eq_true]
  exact given.imp first.free second.free

end Safe

/-! ## Sums in loops -/

section
variable {ι : Type} [Add R] {l : List ι}

theorem sound_foldl_add {f : ι → Traced R} (sound : ∀ i ∈ l, (f i).sound = true)
    {start : Traced R} (first : start.sound = true) :
    (l.foldl (fun sum i => sum + f i) start).sound = true :=
  List.foldlRecOn l _ (motive := fun sum : Traced R => sum.sound = true) first
    fun _ ih i mem => by simp [ih, sound i mem]

theorem sound_foldl_add_iff {f : ι → Traced R} {start : Traced R} :
    (l.foldl (fun sum i => sum + f i) start).sound = true ↔
      start.sound = true ∧ ∀ i ∈ l, (f i).sound = true := by
  induction l generalizing start with
  | nil => simp
  | cons i l ih =>
      have first : (start + f i).sound = true ↔ start.sound = true ∧ (f i).sound = true := by simp
      rw [List.foldl_cons, ih, first, List.forall_mem_cons, and_assoc]

theorem sound_foldl_pair {f : ι → Traced R × Traced R}
    (sound : ∀ i, (f i).1.sound = true ∧ (f i).2.sound = true) {s : Traced R × Traced R}
    (first : s.1.sound = true ∧ s.2.sound = true) :
    (l.foldl (fun sums i => (sums.1 + (f i).1, sums.2 + (f i).2)) s).1.sound = true ∧
      (l.foldl (fun sums i => (sums.1 + (f i).1, sums.2 + (f i).2)) s).2.sound = true :=
  List.foldlRecOn l _
    (motive := fun sums : Traced R × Traced R => sums.1.sound = true ∧ sums.2.sound = true) first
    fun _ ih i _ => by simp [ih, sound i]

end

end Traced

end MilkyWay.Foundation
