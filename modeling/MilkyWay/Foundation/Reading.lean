import MilkyWay.Foundation.Scanning

/-! Formatted input that goes on where the last one has stopped. Without what is left of a
text it converts what the input from a line converts. Steps of such input can be repeated, and
what holds throughout is what holds at each place that is reached. -/

namespace MilkyWay.Foundation

section
variable {R : Type*} [Field R] (lib : FloatLib R)
  (unmatched : Directive → List Char → List Char)

/-- What is converted of a text, and what is left of it. How much of what is no number is
read is up to the library. -/
def fscanf : List Directive → List Char → List (Scanned R) × List Char
  | [], s => ([], s)
  | .blank :: f, s => fscanf f (s.dropWhile isspace)
  | .literal c :: f, s =>
      match s with
      | [] => ([], [])
      | c' :: s => if c = c' then fscanf f s else ([], c' :: s)
  | .integer :: f, s =>
      match scanInteger (s.dropWhile isspace) with
      | none => ([], unmatched .integer (s.dropWhile isspace))
      | some (z, s) =>
          let (l, s) := fscanf f s
          (.integer z :: l, s)
  | .double :: f, s =>
      match scanDouble lib (s.dropWhile isspace) with
      | none => ([], unmatched .double (s.dropWhile isspace))
      | some (x, s) =>
          let (l, s) := fscanf f s
          (.double x :: l, s)

end

/-! ## Repeated steps -/

section
variable {ε τ α β σ : Type}

theorem ok_bind_iff {x : StateT τ (Except ε) α} {f : α → StateT τ (Except ε) β} {s : τ}
    {r : β × τ} : (x >>= f) s = .ok r ↔ ∃ a t, x s = .ok (a, t) ∧ f a t = .ok r := by
  have bound : (x >>= f) s = x s >>= fun p => f p.1 p.2 := rfl
  rw [bound]
  cases x s with
  | error e => exact ⟨nofun, fun ⟨_, _, found, _⟩ => nomatch found⟩
  | ok p =>
      refine ⟨fun found => ⟨p.1, p.2, rfl, found⟩, ?_⟩
      rintro ⟨a, t, same, found⟩
      obtain rfl := Except.ok.inj same
      exact found

def repeatFrom (step : ℕ → σ → StateT τ (Except ε) σ) : ℕ → ℕ → σ → StateT τ (Except ε) σ
  | 0, _, a => pure a
  | n + 1, i, a => step i a >>= repeatFrom step n (i + 1)

def Throughout (step : ℕ → σ → StateT τ (Except ε) σ) (Fit : ℕ → σ → τ → Prop) (n i : ℕ) (a : σ)
    (s : τ) : Prop :=
  ∀ k < n, ∀ b t, repeatFrom step k i a s = .ok (b, t) → Fit (i + k) b t

variable {step : ℕ → σ → StateT τ (Except ε) σ} {Fit : ℕ → σ → τ → Prop} {n i : ℕ} {a : σ} {s : τ}

theorem throughout_zero : Throughout step Fit 0 i a s := nofun

theorem throughout_succ : Throughout step Fit (n + 1) i a s ↔
    Fit i a s ∧ ∀ b t, step i a s = .ok (b, t) → Throughout step Fit n (i + 1) b t := by
  constructor
  · intro all
    refine ⟨all 0 n.succ_pos a s rfl, fun b t found k less c u reached => ?_⟩
    rw [Nat.add_right_comm]
    exact all (k + 1) (Nat.succ_lt_succ less) c u (ok_bind_iff.mpr ⟨b, t, found, reached⟩)
  · rintro ⟨first, next⟩ k less c u reached
    cases k with
    | zero =>
        obtain ⟨rfl, rfl⟩ := Prod.mk.inj (Except.ok.inj reached)
        exact first
    | succ k =>
        obtain ⟨b, t, found, reached⟩ := ok_bind_iff.mp reached
        have fit := next b t found k (Nat.lt_of_succ_lt_succ less) c u reached
        rwa [Nat.add_right_comm] at fit

theorem throughout_ends_zero {Q : σ → τ → Prop} : (Throughout step Fit 0 i a s ∧
    ∀ c u, repeatFrom step 0 i a s = .ok (c, u) → Q c u) ↔ Q a s := by
  constructor
  · exact fun all => all.2 a s rfl
  · refine fun holds => ⟨throughout_zero, fun c u reached => ?_⟩
    obtain ⟨rfl, rfl⟩ := Prod.mk.inj (Except.ok.inj reached)
    exact holds

theorem throughout_ends_succ {Q : σ → τ → Prop} : (Throughout step Fit (n + 1) i a s ∧
    ∀ c u, repeatFrom step (n + 1) i a s = .ok (c, u) → Q c u) ↔
      Fit i a s ∧ ∀ b t, step i a s = .ok (b, t) → Throughout step Fit n (i + 1) b t ∧
        ∀ c u, repeatFrom step n (i + 1) b t = .ok (c, u) → Q c u := by
  rw [throughout_succ]
  constructor
  · rintro ⟨⟨first, next⟩, ends⟩
    exact ⟨first, fun b t found => ⟨next b t found,
      fun c u reached => ends c u (ok_bind_iff.mpr ⟨b, t, found, reached⟩)⟩⟩
  · rintro ⟨first, next⟩
    refine ⟨⟨first, fun b t found => (next b t found).1⟩, fun c u reached => ?_⟩
    obtain ⟨b, t, found, reached⟩ := ok_bind_iff.mp reached
    exact (next b t found).2 c u reached

end

end MilkyWay.Foundation
