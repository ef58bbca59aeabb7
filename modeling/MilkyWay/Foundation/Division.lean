import MilkyWay.Foundation.Insertion

/-! The octree of a list of leaves. A cell stands where two leaves or more share a slot of
the cell above, which is not full; it is made for the second of them. There is one such
tree at most. Descents for the leaves one after another build it, and as long as the
leaves have such a tree no descent gives up. -/

namespace MilkyWay.Foundation

variable {κ κ' β σ : Type*}

namespace Octree

def map (f : κ → κ') : Octree κ β → Octree κ' β
  | .empty => .empty
  | .leaf b => .leaf b
  | .cell c sub => .cell (f c) fun i => (sub i).map f

def isEmpty : Octree κ β → Bool
  | .empty => true
  | _ => false

theorem map_congr {f g : κ → κ'} {T : Octree κ β} (same : ∀ c ∈ T.cells, f c = g c) :
    T.map f = T.map g := by
  induction T with
  | empty => rfl
  | leaf b => rfl
  | cell c sub ih =>
      rw [map, map, same c (by simp [cells])]
      congr 1
      funext i
      exact ih i fun d inside => same d ((mem_cells_cell c sub d).mpr (.inr ⟨i, inside⟩))

@[simp] theorem map_update (f : κ → κ') (c : κ) (sub : Fin 8 → Octree κ β) (i : Fin 8)
    (U : Octree κ β) : (cell c (Function.update sub i U)).map f =
      .cell (f c) (Function.update (fun j => (sub j).map f) i (U.map f)) := by
  rw [map]
  congr 1
  funext j
  by_cases here : j = i
  · rw [here, Function.update_self, Function.update_self]
  · rw [Function.update_of_ne here, Function.update_of_ne here]

@[simp] theorem isCell_map (f : κ → κ') (T : Octree κ β) : (T.map f).isCell = T.isCell := by
  cases T <;> rfl

variable (slot : κ → β → Fin 8) (half : σ → σ) (split : κ → β → σ → κ) (Full : σ → Prop)

def inSlot (c : κ) (l : List β) (i : Fin 8) : List β := l.filter fun b => slot c b = i

def Divides : κ → σ → Octree κ β → List β → Prop
  | _, _, .empty, l => l = []
  | _, _, .leaf b, l => l = [b]
  | p, size, .cell c sub, l => ¬Full size ∧
      (∃ a b rest, l = a :: b :: rest ∧ c = split p b size) ∧
        ∀ i, Divides c (half size) (sub i) (inSlot slot c l i)

def Holds (c : κ) (size : σ) : Octree κ β → List β → Prop
  | .cell d sub, l => d = c ∧ ∀ i, Divides slot half split Full c size (sub i) (inSlot slot c l i)
  | _, _ => False

variable {slot half split Full} {c p : κ} {size : σ} {T U : Octree κ β} {l m : List β} {b : β}
  {sub : Fin 8 → Octree κ β}

theorem divides_cell : Divides slot half split Full p size (.cell c sub) l ↔ ¬Full size ∧
    ∃ a b rest, l = a :: b :: rest ∧
      Holds slot half split Full (split p b size) (half size) (.cell c sub) l := by
  constructor
  · rintro ⟨room, ⟨a, b, rest, rfl, rfl⟩, below⟩
    exact ⟨room, a, b, rest, rfl, rfl, below⟩
  · rintro ⟨room, a, b, rest, rfl, rfl, below⟩
    exact ⟨room, ⟨a, b, rest, rfl, rfl⟩, below⟩

theorem Divides.unique (first : Divides slot half split Full p size T l)
    (second : Divides slot half split Full p size U l) : T = U := by
  induction T generalizing p size U l with
  | empty =>
      cases U with
      | empty => rfl
      | leaf b => cases (show l = [] from first).symm.trans second
      | cell d sub' =>
          obtain ⟨-, ⟨a, b, rest, two, -⟩, -⟩ := second
          cases (show l = [] from first).symm.trans two
  | leaf o =>
      cases U with
      | empty => cases (show l = [o] from first).symm.trans second
      | leaf b =>
          have same := (show l = [o] from first).symm.trans second
          rw [List.cons.injEq] at same
          rw [same.1]
      | cell d sub' =>
          obtain ⟨-, ⟨a, b, rest, two, -⟩, -⟩ := second
          cases (show l = [o] from first).symm.trans two
  | cell c sub ih =>
      obtain ⟨-, ⟨a, b, rest, two, rfl⟩, below⟩ := first
      cases U with
      | empty => cases two.symm.trans (show l = [] from second)
      | leaf o => cases two.symm.trans (show l = [o] from second)
      | cell d sub' =>
          obtain ⟨-, ⟨a', b', rest', two', rfl⟩, below'⟩ := second
          have same := two.symm.trans two'
          rw [List.cons.injEq, List.cons.injEq] at same
          obtain ⟨-, rfl, -⟩ := same
          congr 1
          funext i
          exact ih i (below i) (below' i)

theorem Holds.unique (first : Holds slot half split Full c size T l)
    (second : Holds slot half split Full c size U l) : T = U := by
  cases T with
  | empty => exact first.elim
  | leaf b => exact first.elim
  | cell d sub =>
      cases U with
      | empty => exact second.elim
      | leaf b => exact second.elim
      | cell d' sub' =>
          obtain ⟨rfl, below⟩ := first
          obtain ⟨rfl, below'⟩ := second
          congr 1
          funext i
          exact (below i).unique (below' i)

theorem Divides.isCell (tree : Divides slot half split Full p size T l) (two : 2 ≤ l.length) :
    ∃ a b rest, l = a :: b :: rest ∧ ¬Full size ∧
      Holds slot half split Full (split p b size) (half size) T l := by
  cases T with
  | empty =>
      rw [show l = [] from tree] at two
      cases two
  | leaf o =>
      rw [show l = [o] from tree, List.length_singleton] at two
      exact absurd two (by decide)
  | cell d sub =>
      obtain ⟨room, a, b, rest, two, below⟩ := divides_cell.mp tree
      exact ⟨a, b, rest, two, room, below⟩

theorem Divides.ne_nil (tree : Divides slot half split Full p size T l) (some : T ≠ .empty) :
    l ≠ [] := by
  cases T with
  | empty => exact absurd rfl some
  | leaf o =>
      rw [show l = [o] from tree]
      exact List.cons_ne_nil _ _
  | cell d sub =>
      obtain ⟨-, ⟨a, b, rest, rfl, -⟩, -⟩ := tree
      exact List.cons_ne_nil _ _

theorem exists_holds_alone (alone : ∀ i, (inSlot slot c l i).length ≤ 1) :
    ∃ sub : Fin 8 → Octree κ β, (∀ i, (sub i).isCell = false) ∧
      Holds slot half split Full c size (.cell c sub) l := by
  have each : ∀ i, ∃ U : Octree κ β, U.isCell = false ∧
      Divides slot half split Full c size U (inSlot slot c l i) := by
    intro i
    cases few : inSlot slot c l i with
    | nil => exact ⟨.empty, rfl, rfl⟩
    | cons b rest =>
        have one := alone i
        rw [few, List.length_cons] at one
        rw [List.eq_nil_of_length_eq_zero (l := rest) (by omega)]
        exact ⟨.leaf b, rfl, rfl⟩
  choose sub alone tree using each
  exact ⟨sub, alone, rfl, tree⟩

theorem inSlot_append_self (c : κ) (l : List β) (b : β) :
    inSlot slot c (l ++ [b]) (slot c b) = inSlot slot c l (slot c b) ++ [b] := by
  simp [inSlot, List.filter_append]

theorem inSlot_append_of_ne {i : Fin 8} (other : i ≠ slot c b) :
    inSlot slot c (l ++ [b]) i = inSlot slot c l i := by
  simp [inSlot, List.filter_append, other.symm]

theorem Holds.update (tree : Holds slot half split Full c size (.cell c sub) l)
    (here : Divides slot half split Full c size U (inSlot slot c l (slot c b) ++ [b])) :
    Holds slot half split Full c size (.cell c (Function.update sub (slot c b) U)) (l ++ [b]) := by
  refine ⟨rfl, fun i => ?_⟩
  by_cases own : i = slot c b
  · rw [own, Function.update_self, inSlot_append_self]
    exact here
  · rw [Function.update_of_ne own, inSlot_append_of_ne own]
    exact tree.2 i

theorem Holds.next {G : Octree κ β} (guide : Holds slot half split Full c size G m)
    (next : l ++ [b] <+: m) (taken : inSlot slot c l (slot c b) ≠ []) :
    ∃ V m' a a' rest, m' = a :: a' :: rest ∧ inSlot slot c l (slot c b) ++ [b] <+: m' ∧
      ¬Full size ∧ Holds slot half split Full (split c a' size) (half size) V m' := by
  cases G with
  | empty => exact guide.elim
  | leaf o => exact guide.elim
  | cell d sub =>
      have longer : inSlot slot c l (slot c b) ++ [b] <+: inSlot slot c m (slot c b) := by
        rw [← inSlot_append_self]
        exact next.filter _
      have some := List.length_pos_of_ne_nil taken
      have two := longer.length_le
      rw [List.length_append, List.length_singleton] at two
      obtain ⟨a, a', rest, parts, room, holds⟩ := (guide.2 (slot c b)).isCell (by omega)
      exact ⟨_, _, a, a', rest, parts, longer, room, holds⟩

theorem holds_single (c : κ) (size : σ) (o : β) : Holds slot half split Full c size
    (.cell c (Function.update (fun _ => .empty) (slot c o) (.leaf o))) [o] := by
  have bare : Holds slot half split Full c size (.cell c fun _ => .empty) ([] : List β) :=
    ⟨rfl, fun _ => rfl⟩
  exact bare.update rfl

end Octree

namespace Insertion

open Octree

variable {slot : κ → β → Fin 8} {half : σ → σ} {Full : σ → Prop} {b : β} {size : σ}
  {T U : Octree κ β} {new : List κ} {lev : ℕ} {stored : Bool}

theorem map {slot' : κ' → β → Fin 8} {Split : κ → β → σ → κ → Prop}
    {Split' : κ' → β → σ → κ' → Prop} {f : κ → κ'}
    (h : Insertion slot half Split Full b size T U new lev stored)
    (slots : ∀ c a, slot' (f c) a = slot c a)
    (splits : ∀ c s n, Split c b s n → Split' (f c) b s (f n)) :
    Insertion slot' half Split' Full b size (T.map f) (U.map f) (new.map f) lev stored := by
  induction h with
  | stop size c sub full taken =>
      refine .stop size _ _ full fun none => taken ?_
      rw [slots] at none
      cases child : sub (slot c b) <;> rw [child] at none <;> first | rfl | cases none
  | store size c sub empty =>
      rw [map_update, ← slots]
      refine .store size (f c) _ ?_
      rw [slots, empty]
      rfl
  | descend size c d sub below U new lev stored cell room deeper ih =>
      rw [map_update, ← slots]
      refine .descend size (f c) (f d) _ _ _ _ _ _ ?_ room ih
      rw [slots, cell]
      rfl
  | split size c n o sub U new lev stored leaf room made deeper ih =>
      rw [map_update, ← slots]
      refine .split size (f c) (f n) o _ _ _ _ _ ?_ room (splits c size n made) ?_
      · rw [slots, leaf]
        rfl
      · rw [map_update, ← slots] at ih
        exact ih

theorem new_eq_nil {Split : κ → β → σ → κ → Prop} (full : Full size)
    (h : Insertion slot half Split Full b size T U new lev stored) : new = [] := by
  cases h with
  | stop => rfl
  | store => rfl
  | descend _ _ _ _ _ _ _ _ _ cell room deeper => exact absurd full room
  | split _ _ _ _ _ _ _ _ _ leaf room made deeper => exact absurd full room

variable {split : κ → β → σ → κ} {c : κ} {l m : List β}

theorem holds (h : Insertion slot half (fun p a s n => n = split p a s) Full b size T U new lev
      stored) (kept : stored = true) (tree : Holds slot half split Full c size T l) :
    Holds slot half split Full c size U (l ++ [b]) := by
  induction h generalizing c l with
  | stop size d sub full taken => cases kept
  | store size d sub empty =>
      obtain ⟨rfl, below⟩ := tree
      refine Holds.update ⟨rfl, below⟩ ?_
      have none := below (slot d b)
      rw [empty] at none
      rw [show inSlot slot d l (slot d b) = [] from none]
      rfl
  | descend size d e sub inner U new lev stored cell room deeper ih =>
      obtain ⟨rfl, below⟩ := tree
      have here := below (slot d b)
      rw [cell] at here
      obtain ⟨-, a, a', rest, two, holds⟩ := divides_cell.mp here
      have grown := ih kept holds
      refine Holds.update ⟨rfl, below⟩ ?_
      cases U with
      | empty => exact grown.elim
      | leaf o => exact grown.elim
      | cell n inner' =>
          refine divides_cell.mpr ⟨room, a, a', rest ++ [b], ?_, grown⟩
          rw [two]
          rfl
  | split size d n o sub U new lev stored leaf room made deeper ih =>
      obtain ⟨rfl, below⟩ := tree
      have here := below (slot d b)
      rw [leaf] at here
      have grown := ih kept (holds_single n (half size) o)
      refine Holds.update ⟨rfl, below⟩ ?_
      rw [show inSlot slot d l (slot d b) = [o] from here]
      subst made
      cases U with
      | empty => exact grown.elim
      | leaf o => exact grown.elim
      | cell e inner' => exact divides_cell.mpr ⟨room, o, b, [], rfl, grown⟩

theorem stored_of_holds {G : Octree κ β}
    (h : Insertion slot half (fun p a s n => n = split p a s) Full b size T U new lev stored)
    (tree : Holds slot half split Full c size T l) (guide : Holds slot half split Full c size G m)
    (next : l ++ [b] <+: m) : stored = true := by
  induction h generalizing c l G m with
  | stop size d sub full taken =>
      obtain ⟨rfl, below⟩ := tree
      obtain ⟨_, _, _, _, _, -, -, room, -⟩ := guide.next next ((below _).ne_nil taken)
      exact absurd full room
  | store size d sub empty => rfl
  | descend size d e sub inner U new lev stored cell room deeper ih =>
      obtain ⟨rfl, below⟩ := tree
      have here := below (slot d b)
      obtain ⟨V, m', a, a', rest, rfl, longer, -, guide'⟩ :=
        guide.next next (here.ne_nil (by simp [cell]))
      rw [cell] at here
      obtain ⟨-, o, o', rest', two, holds⟩ := divides_cell.mp here
      have same : o' = a' := by
        rw [two, List.cons_append, List.cons_append, List.cons_prefix_cons,
          List.cons_prefix_cons] at longer
        exact longer.2.1
      subst same
      exact ih holds guide' longer
  | split size d n o sub U new lev stored leaf room made deeper ih =>
      obtain ⟨rfl, below⟩ := tree
      have here := below (slot d b)
      obtain ⟨V, m', a, a', rest, rfl, longer, -, guide'⟩ :=
        guide.next next (here.ne_nil (by simp [leaf]))
      rw [leaf] at here
      rw [show inSlot slot d l (slot d b) = [o] from here] at longer
      have same : b = a' := by
        rw [List.cons_append, List.cons_prefix_cons, List.nil_append,
          List.cons_prefix_cons] at longer
        exact longer.2.1
      subst same
      subst made
      exact ih (holds_single _ _ o) guide' longer

end Insertion

end MilkyWay.Foundation
