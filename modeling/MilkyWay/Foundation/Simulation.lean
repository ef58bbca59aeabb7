import Mathlib.Data.List.Basic
import Mathlib.Data.List.Forall2

/-! Forward simulation of computations that may fail to return. `Simulates r x y` asks
that what `x` returns is related to something that `y` returns, and asks nothing where
`x` does not return; the rules follow the operations of the option monad. -/

namespace MilkyWay.Foundation

variable {α β γ δ ι : Type*} {r : α → β → Prop} {s : γ → δ → Prop}

def Simulates (r : α → β → Prop) (x : Option α) (y : Option β) : Prop :=
  ∀ a, x = some a → ∃ b, y = some b ∧ r a b

namespace Simulates

theorem none (y : Option β) : Simulates r none y := by
  intro a run
  cases run

theorem some {a : α} {b : β} (h : r a b) : Simulates r (some a) (some b) := by
  intro a' run
  cases run
  exact ⟨b, rfl, h⟩

theorem refl (x : Option α) : Simulates Eq x x :=
  fun a run => ⟨a, run, rfl⟩

theorem mono {r' : α → β → Prop} {x : Option α} {y : Option β} (h : Simulates r x y)
    (weaker : ∀ a b, r a b → r' a b) : Simulates r' x y := by
  intro a run
  obtain ⟨b, run', hab⟩ := h a run
  exact ⟨b, run', weaker a b hab⟩

theorem bind {x : Option α} {y : Option β} {f : α → Option γ} {g : β → Option δ}
    (h : Simulates r x y) (rest : ∀ a b, r a b → Simulates s (f a) (g b)) :
    Simulates s (x.bind f) (y.bind g) := by
  intro c run
  obtain ⟨a, first, run⟩ := Option.bind_eq_some_iff.mp run
  obtain ⟨b, first', hab⟩ := h a first
  obtain ⟨d, run', hcd⟩ := rest a b hab c run
  exact ⟨d, Option.bind_eq_some_iff.mpr ⟨b, first', run'⟩, hcd⟩

theorem bind_same {x : Option α} {f : α → Option γ} {g : α → Option δ}
    (rest : ∀ a, x = Option.some a → Simulates s (f a) (g a)) :
    Simulates s (x.bind f) (x.bind g) := by
  intro c run
  obtain ⟨a, first, run⟩ := Option.bind_eq_some_iff.mp run
  obtain ⟨d, run', hcd⟩ := rest a first c run
  exact ⟨d, Option.bind_eq_some_iff.mpr ⟨a, first, run'⟩, hcd⟩

theorem map {x : Option α} {y : Option β} {f : α → γ} {g : β → δ} (h : Simulates r x y)
    (rest : ∀ a b, r a b → s (f a) (g b)) : Simulates s (x.map f) (y.map g) := by
  intro c run
  obtain ⟨a, first, rfl⟩ := Option.map_eq_some_iff.mp run
  obtain ⟨b, first', hab⟩ := h a first
  exact ⟨g b, Option.map_eq_some_iff.mpr ⟨b, first', rfl⟩, rest a b hab⟩

theorem guard {p : Prop} [Decidable p] {x : Option α} {y : Option β} (h : Simulates r x y) :
    Simulates r (if p then x else Option.none) (if p then y else Option.none) := by
  by_cases holds : p
  · rw [if_pos holds, if_pos holds]
    exact h
  · rw [if_neg holds, if_neg holds]
    exact none _

theorem foldlM {f : α → ι → Option α} {g : β → ι → Option β} (l : List ι)
    (step : ∀ i ∈ l, ∀ a b, r a b → Simulates r (f a i) (g b i)) {a : α} {b : β} (h : r a b) :
    Simulates r (l.foldlM f a) (l.foldlM g b) := by
  induction l generalizing a b with
  | nil => exact some h
  | cons i l ih =>
      rw [List.foldlM_cons, List.foldlM_cons]
      refine bind (step i (List.mem_cons_self ..) a b h) fun a' b' h' => ?_
      exact ih (fun j hj => step j (List.mem_cons_of_mem i hj)) h'

theorem eq_some {x y : Option α} (h : Simulates Eq x y) {a : α} (run : x = Option.some a) :
    y = Option.some a := by
  obtain ⟨b, run', rfl⟩ := h a run
  exact run'

end Simulates

end MilkyWay.Foundation
