import Mathlib.Data.List.Basic

/-! Loops over a list that can fail: the invariant rule and the number of results. A
computation with two results is known to succeed from one of them. -/

namespace MilkyWay.Foundation

universe u

variable {α β : Type*}

private theorem foldlM_rule (f : β → α → Option β) (I : List α → β → Prop) (l rest : List α) :
    ∀ (done : List α) (b b' : β), done ++ rest = l →
      (∀ done a rest b b', done ++ a :: rest = l → I done b → f b a = some b' →
        I (done ++ [a]) b') →
      I done b → rest.foldlM f b = some b' → I l b' := by
  induction rest with
  | nil =>
      intro done b b' hl _ hI run
      rw [List.foldlM_nil, Option.pure_def, Option.some.injEq] at run
      rw [← hl, ← run, List.append_nil]
      exact hI
  | cons a rest ih =>
      intro done b b' hl step hI run
      rw [List.foldlM_cons, Option.bind_eq_bind, Option.bind_eq_some_iff] at run
      obtain ⟨b₁, first, run⟩ := run
      refine ih (done ++ [a]) b₁ b' (by rw [← hl, List.append_assoc]; rfl) step ?_ run
      exact step done a rest b b₁ hl hI first

theorem foldlM_invariant {f : β → α → Option β} {l : List α} {b b' : β}
    (I : List α → β → Prop) (start : I [] b)
    (step : ∀ done a rest b b', done ++ a :: rest = l → I done b → f b a = some b' →
      I (done ++ [a]) b')
    (run : l.foldlM f b = some b') : I l b' :=
  foldlM_rule f I l l [] b b' (List.nil_append l) step start run

private theorem foldlM_success_rule (f : β → α → Option β) (I : List α → β → Prop)
    (l rest : List α) : ∀ (done : List α) (b : β), done ++ rest = l →
      (∀ done a rest b, done ++ a :: rest = l → I done b → ∃ b', f b a = some b' ∧
        I (done ++ [a]) b') →
      I done b → ∃ b', rest.foldlM f b = some b' ∧ I l b' := by
  induction rest with
  | nil =>
      intro done b hl _ hI
      rw [List.append_nil] at hl
      exact ⟨b, rfl, hl ▸ hI⟩
  | cons a rest ih =>
      intro done b hl step hI
      obtain ⟨b', turn, hI'⟩ := step done a rest b hl hI
      have split : done ++ [a] ++ rest = l := by rw [← hl, List.append_assoc]; rfl
      obtain ⟨b'', run, holds⟩ := ih (done ++ [a]) b' split step hI'
      refine ⟨b'', ?_, holds⟩
      rw [List.foldlM_cons, turn]
      exact run

theorem foldlM_success {f : β → α → Option β} {l : List α} {b : β} (I : List α → β → Prop)
    (start : I [] b)
    (step : ∀ done a rest b, done ++ a :: rest = l → I done b → ∃ b', f b a = some b' ∧
      I (done ++ [a]) b') : ∃ b', l.foldlM f b = some b' ∧ I l b' :=
  foldlM_success_rule f I l l [] b (List.nil_append l) step start

theorem foldlM_range_pure {M : Type u → Type*} [Monad M] [LawfulMonad M] {β : Type u}
    {f : β → ℕ → M β} {n : ℕ} {b : β} (I : ℕ → β → Prop) (start : I 0 b)
    (step : ∀ m b, m < n → I m b → ∃ b', f b m = pure b' ∧ I (m + 1) b') :
    ∃ b', (List.range n).foldlM f b = pure b' ∧ I n b' := by
  induction n with
  | zero => exact ⟨b, rfl, start⟩
  | succ n ih =>
      obtain ⟨b', run, holds⟩ := ih fun m b lt => step m b (Nat.lt_succ_of_lt lt)
      obtain ⟨b'', turn, holds'⟩ := step n b' n.lt_succ_self holds
      refine ⟨b'', ?_, holds'⟩
      rw [List.range_succ, List.foldlM_append, run, pure_bind, List.foldlM_cons, turn, pure_bind,
        List.foldlM_nil]

theorem foldlM_range_some {f : β → ℕ → Option β} {n : ℕ} {b : β} (I : ℕ → β → Prop)
    (start : I 0 b)
    (step : ∀ m b, m < n → I m b → ∃ b', f b m = some b' ∧ I (m + 1) b') :
    ∃ b', (List.range n).foldlM f b = some b' ∧ I n b' :=
  foldlM_range_pure I start step

theorem foldlM_range_none {f : β → ℕ → Option β} {n m : ℕ} (lt : m < n)
    (fails : ∀ b, f b m = none) (b : β) : (List.range n).foldlM f b = none := by
  induction n with
  | zero => exact absurd lt (Nat.not_lt_zero m)
  | succ n ih =>
      rw [List.range_succ, List.foldlM_append]
      rcases Nat.lt_succ_iff_lt_or_eq.mp lt with before | rfl
      · rw [ih before]
        rfl
      · cases (List.range m).foldlM f b with
        | none => rfl
        | some b' =>
            change (List.foldlM f b' [m]) = none
            rw [List.foldlM_cons, fails]
            rfl

theorem foldlM_range_eq {f : β → ℕ → Option β} {g : β → ℕ → β} {n : ℕ}
    (turn : ∀ m < n, ∀ b, f b m = some (g b m)) (b : β) :
    (List.range n).foldlM f b = some ((List.range n).foldl g b) := by
  obtain ⟨b', run, rfl⟩ := foldlM_range_some (n := n) (b := b) (f := f)
    (fun m b' => b' = (List.range m).foldl g b) rfl (by
      rintro m _ lt rfl
      refine ⟨_, turn m lt _, ?_⟩
      rw [List.range_succ, List.foldl_append]
      rfl)
  exact run

theorem mapM_range_eq {f : ℕ → Option β} {g : ℕ → β} {n : ℕ} (turn : ∀ m < n, f m = some (g m)) :
    (List.range n).mapM f = some ((List.range n).map g) := by
  induction n with
  | zero => rfl
  | succ n ih =>
      rw [List.range_succ, List.mapM_append, ih fun m lt => turn m (Nat.lt_succ_of_lt lt),
        List.mapM_cons, turn n n.lt_succ_self, List.map_append]
      rfl

theorem foldlM_range_isSome_iff {f : β → ℕ → Option β} {n : ℕ} {p : ℕ → Prop}
    (turn : ∀ m < n, ∀ b, (f b m).isSome = true ↔ p m) (b : β) :
    ((List.range n).foldlM f b).isSome = true ↔ ∀ m < n, p m := by
  constructor
  · intro run m lt
    by_contra fails
    have none : ∀ b, f b m = none := fun b =>
      Option.not_isSome_iff_eq_none.mp fun success => fails ((turn m lt b).mp success)
    rw [foldlM_range_none lt none] at run
    cases run
  · intro all
    obtain ⟨b', run, -⟩ := foldlM_range_some (fun _ _ => True) trivial (fun m b lt _ => by
      obtain ⟨b', success⟩ := Option.isSome_iff_exists.mp ((turn m lt b).mpr (all m lt))
      exact ⟨b', success, trivial⟩) (n := n) (b := b) (f := f)
    rw [run]
    rfl

theorem length_of_mapM {f : α → Option β} {l : List α} {l' : List β} (run : l.mapM f = some l') :
    l'.length = l.length := by
  induction l generalizing l' with
  | nil =>
      rw [List.mapM_nil, Option.pure_def, Option.some.injEq] at run
      subst run
      rfl
  | cons a l ih =>
      simp only [List.mapM_cons, Option.bind_eq_bind, Option.bind_eq_some_iff, Option.pure_def,
        Option.some.injEq] at run
      obtain ⟨b, -, rest, run, rfl⟩ := run
      rw [List.length_cons, List.length_cons, ih run]

theorem exists_of_fst {x : Option (α × β)} {a : α} (h : x.map Prod.fst = some a) :
    ∃ b, x = some (a, b) := by
  rw [Option.map_eq_some_iff] at h
  obtain ⟨⟨a', b⟩, rfl, rfl⟩ := h
  exact ⟨b, rfl⟩

theorem exists_of_any {x : Option α} {p : α → Bool} (h : x.any p = true) :
    ∃ a, x = some a ∧ p a = true := by
  cases x with
  | none => cases h
  | some a => exact ⟨a, rfl, h⟩

theorem map_of_mapM {γ : Type*} {f : α → Option β} {g : β → γ} {g' : α → γ} {l : List α}
    {l' : List β} (run : l.mapM f = some l') (part : ∀ a ∈ l, ∀ b, f a = some b → g b = g' a) :
    l'.map g = l.map g' := by
  induction l generalizing l' with
  | nil =>
      rw [List.mapM_nil, Option.pure_def, Option.some.injEq] at run
      rw [← run, List.map_nil, List.map_nil]
  | cons a l ih =>
      simp only [List.mapM_cons, Option.bind_eq_bind, Option.bind_eq_some_iff, Option.pure_def,
        Option.some.injEq] at run
      obtain ⟨b, first, rest, run, rfl⟩ := run
      rw [List.map_cons, List.map_cons, part a List.mem_cons_self b first,
        ih run fun a mem => part a (List.mem_cons_of_mem _ mem)]

end MilkyWay.Foundation
