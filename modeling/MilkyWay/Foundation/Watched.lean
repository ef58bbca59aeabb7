import Mathlib

/-! Computations that are watched: beside a result or a failure a computation records whether
everything that was looked at on the way was as it should be, such as a divisor that is not
zero or a number that has room in its type. -/

namespace MilkyWay.Foundation

structure Watched (ε α : Type*) where
  result : Except ε α
  sound : Bool

namespace Watched
variable {ε α β : Type*}

/-- The second computation is watched when the first one has a result. -/
def bind (x : Watched ε α) (f : α → Watched ε β) : Watched ε β :=
  match x.result with
  | .ok a => ⟨(f a).result, x.sound && (f a).sound⟩
  | .error e => ⟨.error e, x.sound⟩

end Watched

instance {ε : Type*} : Monad (Watched ε) where
  pure a := ⟨.ok a, true⟩
  bind := Watched.bind

namespace Watched
variable {ε α β : Type}

def check (p : Prop) [Decidable p] : Watched ε Unit := ⟨.ok (), decide p⟩

def fail (e : ε) : Watched ε α := ⟨.error e, true⟩

def lift (x : Except ε α) : Watched ε α := ⟨x, true⟩

def divide (a b : ℕ) : Watched ε ℕ := do
  check (b ≠ 0)
  return a / b

def remainder (a b : ℕ) : Watched ε ℕ := do
  check (b ≠ 0)
  return a % b

def add (w a b : ℕ) : Watched ε ℕ := do
  check (a + b < 2 ^ w)
  return (a + b) % 2 ^ w

def mul (w a b : ℕ) : Watched ε ℕ := do
  check (a * b < 2 ^ w)
  return a * b % 2 ^ w

def sub (w a b : ℕ) : Watched ε ℕ := do
  check (b ≤ a)
  return (a + 2 ^ w - b) % 2 ^ w

/-- Everything is as it should be on the way, and `P` holds of the result if there is one. -/
def Ensures (P : α → Prop) (x : Watched ε α) : Prop :=
  x.sound = true ∧ ∀ a, x.result = .ok a → P a

@[simp] theorem result_pure (a : α) : (pure a : Watched ε α).result = .ok a := rfl
@[simp] theorem sound_pure (a : α) : (pure a : Watched ε α).sound = true := rfl
@[simp] theorem result_fail (e : ε) : (fail e : Watched ε α).result = .error e := rfl
@[simp] theorem sound_fail (e : ε) : (fail e : Watched ε α).sound = true := rfl

theorem eq_pure {x : Watched ε α} {a : α} (sound : x.sound = true) (result : x.result = .ok a) :
    x = pure a := by
  obtain ⟨_, _⟩ := x
  obtain rfl := sound
  obtain rfl := result
  rfl

theorem bind_of_ok {x : Watched ε α} {a : α} (found : x.result = .ok a) (f : α → Watched ε β) :
    (x >>= f).result = (f a).result ∧
      ((x >>= f).sound = true ↔ x.sound = true ∧ (f a).sound = true) := by
  obtain ⟨result, sound⟩ := x
  obtain rfl : result = .ok a := found
  exact ⟨rfl, Bool.and_eq_true _ _ ▸ Iff.rfl⟩

theorem bind_of_error {x : Watched ε α} {e : ε} (failed : x.result = .error e)
    (f : α → Watched ε β) : x >>= f = ⟨.error e, x.sound⟩ := by
  obtain ⟨result, sound⟩ := x
  obtain rfl : result = .error e := failed
  rfl

theorem sound_of_bind {x : Watched ε α} {f : α → Watched ε β} (sound : (x >>= f).sound = true) :
    x.sound = true := by
  cases ended : x.result with
  | ok a => exact ((bind_of_ok ended f).2.mp sound).1
  | error e =>
      rw [bind_of_error ended] at sound
      exact sound

@[simp] theorem result_check_bind (p : Prop) [Decidable p] (f : Unit → Watched ε α) :
    (check p >>= f).result = (f ()).result := (bind_of_ok rfl f).1

@[simp] theorem sound_check_bind (p : Prop) [Decidable p] (f : Unit → Watched ε α) :
    (check p >>= f).sound = true ↔ p ∧ (f ()).sound = true := by
  change (decide p && (f ()).sound) = true ↔ _
  rw [Bool.and_eq_true, decide_eq_true_iff]

theorem sound_check_pure_bind (p : Prop) [Decidable p] (a : α) (f : α → Watched ε β) :
    ((do check p; return a) >>= f).sound = true ↔ p ∧ (f a).sound = true := by
  change ((decide p && true) && (f a).sound) = true ↔ _
  rw [Bool.and_true, Bool.and_eq_true, decide_eq_true_iff]

@[simp] theorem pure_bind (a : α) (f : α → Watched ε β) : pure a >>= f = f a := by
  change (⟨(f a).result, true && (f a).sound⟩ : Watched ε β) = f a
  rw [Bool.true_and]

@[simp] theorem fail_bind (e : ε) (f : α → Watched ε β) : fail e >>= f = fail e := rfl

@[simp] theorem divide_bind {b : ℕ} (nonzero : b ≠ 0) (a : ℕ) (f : ℕ → Watched ε α) :
    divide a b >>= f = f (a / b) := by
  have checked : divide a b = (pure (a / b) : Watched ε ℕ) :=
    eq_pure ((bind_of_ok rfl _).2.mpr ⟨decide_eq_true nonzero, rfl⟩) rfl
  rw [checked, pure_bind]

theorem bind_assoc {γ : Type} (x : Watched ε α) (f : α → Watched ε β) (g : β → Watched ε γ) :
    x >>= f >>= g = x >>= fun a => f a >>= g := by
  obtain ⟨result, sound⟩ := x
  cases result with
  | error e => rfl
  | ok a =>
      change (⟨(f a).result, sound && (f a).sound⟩ : Watched ε β) >>= g =
        ⟨(f a >>= g).result, sound && (f a >>= g).sound⟩
      generalize f a = y
      obtain ⟨result', sound'⟩ := y
      cases result' with
      | error e => rfl
      | ok b =>
          change (⟨_, sound && sound' && (g b).sound⟩ : Watched ε γ) =
            ⟨_, sound && (sound' && (g b).sound)⟩
          rw [Bool.and_assoc]
          rfl

section
variable (a b : ℕ) (f : ℕ → Watched ε α)

@[simp] theorem result_divide_bind : (divide a b >>= f).result = (f (a / b)).result :=
  (bind_of_ok rfl f).1

@[simp] theorem result_remainder_bind : (remainder a b >>= f).result = (f (a % b)).result :=
  (bind_of_ok rfl f).1

@[simp] theorem sound_divide_bind :
    (divide a b >>= f).sound = true ↔ b ≠ 0 ∧ (f (a / b)).sound = true :=
  sound_check_pure_bind (b ≠ 0) (a / b) f

@[simp] theorem sound_remainder_bind :
    (remainder a b >>= f).sound = true ↔ b ≠ 0 ∧ (f (a % b)).sound = true :=
  sound_check_pure_bind (b ≠ 0) (a % b) f

end

/-! ## What is ensured -/

section
variable {P : β → Prop} {x : Watched ε α} {f : α → Watched ε β}

theorem ensures_of_ok {P : α → Prop} {a : α} (found : x.result = .ok a) :
    x.Ensures P ↔ x.sound = true ∧ P a := by
  refine and_congr_right' ⟨fun all => all a found, fun holds a' found' => ?_⟩
  obtain rfl := Except.ok.inj (found.symm.trans found')
  exact holds

theorem ensures_bind : (x >>= f).Ensures P ↔ x.Ensures fun a => (f a).Ensures P := by
  cases ended : x.result with
  | ok a =>
      obtain ⟨result, sound⟩ := bind_of_ok ended f
      rw [ensures_of_ok ended, Ensures, Ensures, sound, result, and_assoc]
  | error e =>
      rw [bind_of_error ended, Ensures, Ensures, ended]
      exact and_congr_right' ⟨fun _ => nofun, fun _ => nofun⟩

theorem ensures_bind_of_ok {a : α} (found : x.result = .ok a) :
    (x >>= f).Ensures P ↔ x.sound = true ∧ (f a).Ensures P :=
  ensures_bind.trans (ensures_of_ok found)

@[simp] theorem ensures_pure (a : β) : (pure a : Watched ε β).Ensures P ↔ P a :=
  (ensures_of_ok rfl).trans (and_iff_right rfl)

@[simp] theorem ensures_fail (e : ε) : (fail e : Watched ε β).Ensures P ↔ True :=
  iff_true_intro ⟨rfl, nofun⟩

@[simp] theorem ensures_check_bind (p : Prop) [Decidable p] (f : Unit → Watched ε β) :
    (check p >>= f).Ensures P ↔ p ∧ (f ()).Ensures P :=
  (ensures_bind_of_ok rfl).trans (and_congr_left' decide_eq_true_iff)

@[simp] theorem ensures_lift_bind (x : Except ε α) :
    (lift x >>= f).Ensures P ↔ ∀ a, x = .ok a → (f a).Ensures P :=
  ensures_bind.trans (and_iff_right rfl)

@[simp] theorem ensures_divide_bind (a b : ℕ) (f : ℕ → Watched ε β) :
    (divide a b >>= f).Ensures P ↔ b ≠ 0 ∧ (f (a / b)).Ensures P := by
  rw [divide, bind_assoc, ensures_check_bind, pure_bind]

@[simp] theorem ensures_remainder_bind (a b : ℕ) (f : ℕ → Watched ε β) :
    (remainder a b >>= f).Ensures P ↔ b ≠ 0 ∧ (f (a % b)).Ensures P := by
  rw [remainder, bind_assoc, ensures_check_bind, pure_bind]

@[simp] theorem ensures_add_bind (w a b : ℕ) (f : ℕ → Watched ε β) :
    (add w a b >>= f).Ensures P ↔ a + b < 2 ^ w ∧ (f (a + b)).Ensures P := by
  rw [add, bind_assoc, ensures_check_bind, pure_bind]
  exact and_congr_right fun room => by rw [Nat.mod_eq_of_lt room]

@[simp] theorem ensures_mul_bind (w a b : ℕ) (f : ℕ → Watched ε β) :
    (mul w a b >>= f).Ensures P ↔ a * b < 2 ^ w ∧ (f (a * b)).Ensures P := by
  rw [mul, bind_assoc, ensures_check_bind, pure_bind]
  exact and_congr_right fun room => by rw [Nat.mod_eq_of_lt room]

theorem ensures_sub {P : ℕ → Prop} {w a : ℕ} (room : a < 2 ^ w) (b : ℕ) :
    (sub w a b : Watched ε ℕ).Ensures P ↔ b ≤ a ∧ P (a - b) := by
  rw [sub, ensures_check_bind, ensures_pure]
  refine and_congr_right fun le => ?_
  rw [show a + 2 ^ w - b = a - b + 2 ^ w by omega, Nat.add_mod_right, Nat.mod_eq_of_lt (by omega)]

theorem ensures_sub_bind {w a : ℕ} (room : a < 2 ^ w) (b : ℕ) (f : ℕ → Watched ε β) :
    (sub w a b >>= f).Ensures P ↔ b ≤ a ∧ (f (a - b)).Ensures P := by
  rw [ensures_bind, ensures_sub room]

end

end Watched

end MilkyWay.Foundation
