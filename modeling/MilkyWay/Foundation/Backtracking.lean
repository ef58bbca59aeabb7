import MilkyWay.Foundation.Run
import Mathlib.Data.List.Basic

/-! A search that keeps a stack, with the entry added last first. A turn adds the first of
the entries that may follow; where there is none the search goes back to a stack with an
entry left to try. It finds a goal whenever there is one, if the stacks are bounded. -/

namespace MilkyWay.Foundation

variable {κ ρ : Type*}

inductive Stacked (children : List κ → List κ) (root : κ) : List κ → Prop
  | root : Stacked children root [root]
  | push {p : List κ} {k : κ} : Stacked children root p → k ∈ children p →
      Stacked children root (k :: p)

/-- The turns search with backtracking: `back` leaves the last entry of a stack for the
next one that may stand in its place. -/
structure Backtracks (children : List κ → List κ) (root : κ) (goal : List κ → Prop)
    (result : List κ → ρ) (back : List κ → Option (List κ)) (turn : Turn (List κ) ρ) :
    Prop where
  ends : ∀ p, Stacked children root p → goal p → turn p = some (.inr (result p))
  push : ∀ p k rest, Stacked children root p → ¬goal p → children p = k :: rest →
    turn p = some (.inl (k :: p))
  stuck : ∀ p, Stacked children root p → ¬goal p → children p = [] →
    turn p = (back p).map .inl
  next : ∀ p before k rest, Stacked children root p → children p = before ++ k :: rest →
    back (k :: p) = rest.head?.elim (back p) fun k' => some (k' :: p)

variable {children : List κ → List κ} {root : κ} {goal : List κ → Prop} {result : List κ → ρ}
  {back : List κ → Option (List κ)} {turn : Turn (List κ) ρ} {p q : List κ} {k : κ}

theorem Stacked.suffix (stacked : Stacked children root p) : [root] <:+ p := by
  induction stacked with
  | root => exact List.suffix_refl [root]
  | push _ _ ih => exact ih.trans (List.suffix_cons _ _)

theorem Stacked.passes (stacked : Stacked children root q) (nonempty : p ≠ [])
    (suffix : p <:+ q) (longer : q ≠ p) : ∃ k ∈ children p, (k :: p) <:+ q := by
  induction stacked with
  | root =>
      rcases List.suffix_cons_iff.mp suffix with same | shorter
      · exact absurd same.symm longer
      · exact absurd (List.suffix_nil.mp shorter) nonempty
  | @push q k _ mem ih =>
      rcases List.suffix_cons_iff.mp suffix with same | shorter
      · exact absurd same.symm longer
      · by_cases last : q = p
        · subst last
          exact ⟨k, mem, List.suffix_refl _⟩
        · obtain ⟨k', mem', passes⟩ := ih shorter last
          exact ⟨k', mem', passes.trans (List.suffix_cons k q)⟩

def Finds (children : List κ → List κ) (root : κ) (goal : List κ → Prop) (result : List κ → ρ)
    (turn : Turn (List κ) ρ) (p : List κ) : Prop :=
  ∃ q n, Stacked children root q ∧ goal q ∧ turn.run n p = some (result q)

def Barren (children : List κ → List κ) (root : κ) (goal : List κ → Prop) (p : List κ) : Prop :=
  ∀ q, Stacked children root q → p <:+ q → ¬goal q

def Leaves (back : List κ → Option (List κ)) (turn : Turn (List κ) ρ) (p r : List κ) : Prop :=
  ∃ p', turn.Reaches p p' ∧ turn p' = (back r).map .inl

theorem Stacked.barren (stacked : Stacked children root p) (reached : ¬goal p)
    (all : ∀ k ∈ children p, Barren children root goal (k :: p)) :
    Barren children root goal p := by
  have nonempty : p ≠ [] := by
    cases stacked with
    | root => exact List.cons_ne_nil _ _
    | push _ _ => exact List.cons_ne_nil _ _
  intro q later suffix
  by_cases same : q = p
  · rw [same]
    exact reached
  · obtain ⟨k, mem, passes⟩ := later.passes nonempty suffix same
    exact all k mem q later passes

theorem Finds.of_reaches (reaches : turn.Reaches p q)
    (finds : Finds children root goal result turn q) : Finds children root goal result turn p := by
  obtain ⟨r, n, stacked, reached, run⟩ := finds
  obtain ⟨m, run'⟩ := Turn.run_from reaches run
  exact ⟨r, m, stacked, reached, run'⟩

theorem Leaves.of_reaches (reaches : turn.Reaches p q) {r : List κ}
    (leaves : Leaves back turn q r) : Leaves back turn p r := by
  obtain ⟨p', more, turned⟩ := leaves
  exact ⟨p', reaches.trans more, turned⟩

namespace Backtracks

variable (search : Backtracks children root goal result back turn)

include search in
theorem try_children (stacked : Stacked children root p)
    (deeper : ∀ k ∈ children p, Finds children root goal result turn (k :: p) ∨
      Barren children root goal (k :: p) ∧ Leaves back turn (k :: p) (k :: p))
    (before : List κ) (k : κ) (rest : List κ) (split : children p = before ++ k :: rest) :
    Finds children root goal result turn (k :: p) ∨
      (∀ k' ∈ k :: rest, Barren children root goal (k' :: p)) ∧ Leaves back turn (k :: p) p := by
  induction rest generalizing before k with
  | nil =>
      have last := search.next p before k [] stacked split
      rcases deeper k (by simp [split]) with finds | ⟨barren, p', reaches, turned⟩
      · exact .inl finds
      · refine .inr ⟨?_, p', reaches, turned.trans (congrArg _ last)⟩
        intro k' mem
        rw [List.mem_singleton.mp mem]
        exact barren
  | cons k' rest ih =>
      have next := search.next p before k (k' :: rest) stacked split
      rcases deeper k (by simp [split]) with finds | ⟨barren, p', reaches, turned⟩
      · exact .inl finds
      · have step : turn.GoesOn p' (k' :: p) := turned.trans (congrArg _ next)
        have there : turn.Reaches (k :: p) (k' :: p) := reaches.tail step
        rcases ih (before ++ [k]) k' (by simp [split]) with finds | ⟨barrens, leaves⟩
        · exact .inl (finds.of_reaches there)
        · refine .inr ⟨?_, leaves.of_reaches there⟩
          intro k'' mem
          rcases List.mem_cons.mp mem with rfl | mem
          · exact barren
          · exact barrens k'' mem

include search in
theorem explore {bound : ℕ} (bounded : ∀ p, Stacked children root p → p.length ≤ bound)
    (stacked : Stacked children root p) :
    Finds children root goal result turn p ∨
      Barren children root goal p ∧ Leaves back turn p p := by
  obtain ⟨room, enough⟩ : ∃ room, bound < p.length + room :=
    ⟨bound + 1, Nat.lt_add_left p.length (Nat.lt_succ_self bound)⟩
  induction room generalizing p with
  | zero => exact absurd (bounded p stacked) (Nat.not_le_of_lt enough)
  | succ room ih =>
      by_cases reached : goal p
      · exact .inl ⟨p, 1, stacked, reached, Turn.run_ends (search.ends p stacked reached) 0⟩
      · have deeper : ∀ k ∈ children p, Finds children root goal result turn (k :: p) ∨
            Barren children root goal (k :: p) ∧ Leaves back turn (k :: p) (k :: p) := by
          intro k mem
          refine ih (stacked.push mem) ?_
          rw [List.length_cons, Nat.add_assoc, Nat.add_comm 1 room]
          exact enough
        cases all : children p with
        | nil =>
            refine .inr ⟨stacked.barren reached fun k mem => ?_, p, .refl,
              search.stuck p stacked reached all⟩
            rw [all] at mem
            exact absurd mem List.not_mem_nil
        | cons k rest =>
            have step : turn.Reaches p (k :: p) :=
              .single (search.push p k rest stacked reached all)
            rcases search.try_children stacked deeper [] k rest all with finds | ⟨barren, leaves⟩
            · exact .inl (finds.of_reaches step)
            · rw [← all] at barren
              exact .inr ⟨stacked.barren reached barren, leaves.of_reaches step⟩

include search in
theorem finds {bound : ℕ} (bounded : ∀ p, Stacked children root p → p.length ≤ bound)
    (stacked : Stacked children root q) (reached : goal q) :
    Finds children root goal result turn [root] := by
  rcases search.explore bounded .root with found | ⟨barren, -⟩
  · exact found
  · exact absurd reached (barren q stacked stacked.suffix)

end Backtracks

end MilkyWay.Foundation
