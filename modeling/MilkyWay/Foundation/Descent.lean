import MilkyWay.Foundation.Insertion

/-! Descents for a leaf through an octree that is laid out in a memory of slots. `Descends` says
which cell a descent stands at; `Descends.insertion` makes an insertion below that cell one into
the whole tree and leaves the memory of all other cells alone, whoever else has changed the tree
since the descent began. A split is a `Tower` of new cells that is built apart from the tree. -/

namespace MilkyWay.Foundation

namespace Octree

variable {κ β : Type*}

def Laid (view : κ → Fin 8 → Ref κ β) (T : Octree κ β) : Prop :=
  T.Everywhere fun c sub => ∀ i, view c i = (sub i).entry .null

theorem Laid.congr {view view' : κ → Fin 8 → Ref κ β} {T : Octree κ β} (h : Laid view T)
    (same : ∀ c ∈ T.cells, view' c = view c) : Laid view' T :=
  h.imp fun c sub inside laid i => by rw [same c (inside c (by simp [cells])), laid i]

theorem sorts_leaves_congr {slot slot' : κ → β → Fin 8} {T : Octree κ β}
    (h : T.Everywhere (Sorts slot)) (same : ∀ c ∈ T.cells, ∀ b ∈ T.leaves, slot' c b = slot c b) :
    T.Everywhere (Sorts slot') := by
  induction T with
  | empty => trivial
  | leaf b => trivial
  | cell c sub ih =>
      refine ⟨fun i b hb => ?_, fun i => ih i (h.2 i) fun d hd b hb => ?_⟩
      · rw [same c (by simp [cells]) b ((mem_leaves_cell c sub b).mpr ⟨i, hb⟩)]
        exact h.1 i b hb
      · exact same d ((mem_cells_cell c sub d).mpr (.inr ⟨i, hd⟩)) b
          ((mem_leaves_cell c sub b).mpr ⟨i, hb⟩)

/-- The descent for `b` from the root of a tree stands at the cell `n` with the slots `below`,
so many levels down. -/
inductive Descends (slot : κ → β → Fin 8) (b : β) :
    Octree κ β → κ → (Fin 8 → Octree κ β) → ℕ → Prop
  | here (c : κ) (sub : Fin 8 → Octree κ β) : Descends slot b (.cell c sub) c sub 0
  | down (c d : κ) (sub inner : Fin 8 → Octree κ β) (n : κ) (below : Fin 8 → Octree κ β) (lev : ℕ)
      (h : sub (slot c b) = .cell d inner) (deeper : Descends slot b (.cell d inner) n below lev) :
      Descends slot b (.cell c sub) n below (lev + 1)

namespace Descends

variable {slot slot' : κ → β → Fin 8} {b : β} {T : Octree κ β} {n d : κ}
  {below inner : Fin 8 → Octree κ β} {lev : ℕ} {view view' : κ → Fin 8 → Ref κ β}

theorem mem_cells (h : Descends slot b T n below lev) : n ∈ T.cells := by
  induction h with
  | here c sub => simp [cells]
  | down c d sub inner n below lev cell deeper ih =>
      exact (mem_cells_cell c sub n).mpr (.inr ⟨_, by rw [cell]; exact ih⟩)

theorem level_le (h : Descends slot b T n below lev) : lev ≤ T.deepest := by
  induction h with
  | here c sub => exact Nat.zero_le _
  | down c d sub inner n below lev cell deeper ih =>
      have deep := (deepest_le c sub _).mp le_rfl (slot c b)
      rw [cell] at deep
      have := deep rfl
      omega

theorem everywhere {φ : κ → (Fin 8 → Octree κ β) → Prop} (h : Descends slot b T n below lev)
    (all : T.Everywhere φ) : φ n below ∧ ∀ i, (below i).Everywhere φ := by
  induction h with
  | here c sub => exact all
  | down c d sub inner n below lev cell deeper ih => exact ih (by rw [← cell]; exact all.2 _)

theorem next (h : Descends slot b T n below lev) (cell : below (slot n b) = .cell d inner) :
    Descends slot b T d inner (lev + 1) := by
  induction h with
  | here c sub => exact .down c d sub inner d inner 0 cell (.here d inner)
  | down c a sub above n below lev slotCell deeper ih =>
      exact .down c a sub above d inner (lev + 1) slotCell (ih cell)

theorem congr (h : Descends slot b T n below lev)
    (same : ∀ c ∈ T.cells, slot' c b = slot c b) : Descends slot' b T n below lev := by
  induction h with
  | here c sub => exact .here c sub
  | down c d sub inner n below lev cell deeper ih =>
      refine .down c d sub inner n below lev ?_ (ih fun a ha => same a ?_)
      · rw [same c (by simp [cells])]
        exact cell
      · exact (mem_cells_cell c sub a).mpr (.inr ⟨_, by rw [cell]; exact ha⟩)

theorem leaves_sub (h : Descends slot b T n below lev) {i : Fin 8} {a : β}
    (ha : a ∈ (below i).leaves) : a ∈ T.leaves := by
  induction h with
  | here c sub => exact (mem_leaves_cell c sub a).mpr ⟨i, ha⟩
  | down c d sub inner n below lev cell deeper ih =>
      exact (mem_leaves_cell c sub a).mpr ⟨_, by rw [cell]; exact ih ha⟩

theorem nodup (h : Descends slot b T n below lev) (nodup : T.cells.Nodup) :
    (Octree.cell n below).cells.Nodup := by
  induction h with
  | here c sub => exact nodup
  | down c d sub inner n below lev cell deeper ih =>
      exact ih (by rw [← cell]; exact ((nodup_cells_cell c sub).mp nodup).2.1 _)

theorem cells_sub (h : Descends slot b T n below lev) {a : κ} (ha : a ∈ (Octree.cell n below).cells) :
    a ∈ T.cells := by
  induction h with
  | here c sub => exact ha
  | down c d sub inner n below lev cell deeper ih =>
      exact (mem_cells_cell c sub a).mpr (.inr ⟨_, by rw [cell]; exact ih ha⟩)

theorem mem_leaves (h : Descends slot b T n below lev) (sorted : T.Everywhere (Sorts slot))
    (hb : b ∈ T.leaves) : b ∈ (below (slot n b)).leaves := by
  induction h with
  | here c sub =>
      obtain ⟨i, hi⟩ := (mem_leaves_cell c sub b).mp hb
      rw [sorted.1 i b hi]
      exact hi
  | down c d sub inner n below lev cell deeper ih =>
      obtain ⟨i, hi⟩ := (mem_leaves_cell c sub b).mp hb
      have here : i = slot c b := (sorted.1 i b hi).symm
      subst here
      rw [cell] at hi
      exact ih (by rw [← cell]; exact sorted.2 _) hi

theorem view_eq (laid : Laid view T) (h : Descends slot b T n below lev) (i : Fin 8) :
    view n i = (below i).entry .null := (h.everywhere laid).1 i

end Descends

theorem entry_eq_null {T : Octree κ β} (h : T.entry .null = .null) : T = .empty := by
  cases T with
  | empty => rfl
  | leaf b => cases h
  | cell c sub => cases h

theorem entry_eq_leaf {T : Octree κ β} {b : β} (h : T.entry .null = .leaf b) : T = .leaf b := by
  cases T with
  | empty => cases h
  | leaf a =>
      cases h
      rfl
  | cell c sub => cases h

theorem entry_eq_cell {T : Octree κ β} {c : κ} (h : T.entry .null = .cell c) :
    ∃ sub, T = .cell c sub := by
  cases T with
  | empty => cases h
  | leaf a => cases h
  | cell d sub =>
      cases h
      exact ⟨sub, rfl⟩

theorem entry_ne_wild (T : Octree κ β) : T.entry .null ≠ .wild := by
  cases T <;> simp [entry]

end Octree

open Octree

variable {κ β : Type*}

abbrev Stores (slot : κ → β → Fin 8) (b : β) (T U : Octree κ β) (new : List κ) (lev : ℕ) : Prop :=
  Insertion slot id (fun _ _ (_ : Unit) _ => True) (fun _ => False) b () T U new lev true

namespace Stores

variable {slot : κ → β → Fin 8} {b a : β} {T U : Octree κ β} {new : List κ} {lev lev' : ℕ}
  {n : κ} {below : Fin 8 → Octree κ β} {view view' : κ → Fin 8 → Ref κ β}

theorem root {c : κ} {sub : Fin 8 → Octree κ β} (h : Stores slot b (.cell c sub) U new lev) :
    ∃ sub', U = .cell c sub' := by
  cases h with
  | store _ _ _ empty => exact ⟨_, rfl⟩
  | descend _ _ d _ inner V new lev stored cell room deeper => exact ⟨_, rfl⟩
  | split _ _ n o _ V new lev stored leaf room made deeper => exact ⟨_, rfl⟩

theorem descends (h : Stores slot b T U new lev) (stands : Descends slot a T n below lev') :
    ∃ below', Descends slot a U n below' lev' := by
  induction stands generalizing U new lev with
  | here c sub =>
      obtain ⟨sub', rfl⟩ := h.root
      exact ⟨sub', .here c sub'⟩
  | down c d sub inner n below lev' cell deeper ih =>
      have other : ∀ i, i ≠ slot c a → ∀ V, ∃ below',
          Descends slot a (.cell c (Function.update sub i V)) n below' (lev' + 1) := by
        intro i apart V
        refine ⟨below, .down c d _ inner n below lev' ?_ deeper⟩
        rw [Function.update_of_ne apart.symm]
        exact cell
      cases h with
      | store _ _ _ empty =>
          refine other _ (fun same => ?_) _
          rw [same, cell] at empty
          cases empty
      | split _ _ m o _ V new lev stored leaf room made deeper' =>
          refine other _ (fun same => ?_) _
          rw [same, cell] at leaf
          cases leaf
      | descend _ _ d' _ inner' V new lev stored cell' room deeper' =>
          by_cases same : slot c b = slot c a
          · rw [same, cell, Octree.cell.injEq] at cell'
            obtain ⟨rfl, rfl⟩ := cell'
            obtain ⟨below', stands⟩ := ih deeper'
            obtain ⟨inner'', rfl⟩ := root deeper'
            refine ⟨below', .down c d _ inner'' n below' lev' ?_ stands⟩
            rw [same, Function.update_self]
          · exact other _ same _

end Stores

theorem Octree.Descends.stores {slot : κ → β → Fin 8} {b : β} {T V : Octree κ β} {n : κ}
    {below : Fin 8 → Octree κ β} {lev lev' : ℕ} {new : List κ} {view view' : κ → Fin 8 → Ref κ β}
    (h : Descends slot b T n below lev) (nodup : T.cells.Nodup) (laid : Laid view T)
    (same : ∀ c ∈ T.cells, c ≠ n → view' c = view c)
    (stored : Stores slot b (.cell n below) V new lev') (laid' : Laid view' V) :
    ∃ U, Stores slot b T U new (lev + lev') ∧ Laid view' U := by
  induction h with
  | here c sub => exact ⟨V, by rw [Nat.zero_add]; exact stored, laid'⟩
  | down c d sub inner n below lev cell deeper ih =>
      obtain ⟨apart, each, disjoint⟩ := (nodup_cells_cell c sub).mp nodup
      have inside : n ∈ (sub (slot c b)).cells := by
        rw [cell]
        exact deeper.mem_cells
      have sub_mem : ∀ i, ∀ a ∈ (sub i).cells, a ∈ (Octree.cell c sub).cells :=
        fun i a ha => (mem_cells_cell c sub a).mpr (.inr ⟨i, ha⟩)
      obtain ⟨U, stores, laidU⟩ := ih (by rw [← cell]; exact each _)
        (by rw [← cell]; exact laid.2 _)
        (fun a ha => same a (sub_mem _ a (by rw [cell]; exact ha))) stored
      obtain ⟨inner', rfl⟩ := stores.root
      refine ⟨.cell c (Function.update sub (slot c b) (.cell d inner')), ?_, fun i => ?_,
        fun i => ?_⟩
      · rw [Nat.add_right_comm]
        exact .descend () c d sub inner _ new _ true cell id stores
      · have outside : c ≠ n := fun e => apart _ (by rw [e]; exact inside)
        rw [same c (by simp [cells]) outside, laid.1 i]
        by_cases here : i = slot c b
        · subst here
          rw [cell, Function.update_self]
          rfl
        · rw [Function.update_of_ne here]
      · by_cases here : i = slot c b
        · subst here
          rw [Function.update_self]
          exact laidU
        · rw [Function.update_of_ne here]
          refine Laid.congr (laid.2 i) fun a ha => same a (sub_mem i a ha) fun e => ?_
          exact disjoint i _ here ha (by rw [e]; exact inside)

/-! ## What is built below a slot -/

section

variable {slot : κ → β → Fin 8} {b o : β} {n : κ} {below : Fin 8 → Octree κ β}
  {view view' : κ → Fin 8 → Ref κ β}

theorem Octree.Laid.update {i : Fin 8} {V : Octree κ β} (laid : Laid view (.cell n below))
    (laidV : Laid view' V) (here : view' n = Function.update (view n) i (V.entry .null))
    (same : ∀ j, j ≠ i → ∀ a ∈ (below j).cells, view' a = view a) :
    Laid view' (.cell n (Function.update below i V)) := by
  refine ⟨fun j => ?_, fun j => ?_⟩
  · rw [here]
    by_cases own : j = i
    · subst own
      rw [Function.update_self, Function.update_self]
    · rw [Function.update_of_ne own, Function.update_of_ne own]
      exact laid.1 j
  · by_cases own : j = i
    · subst own
      rw [Function.update_self]
      exact laidV
    · rw [Function.update_of_ne own]
      exact Laid.congr (laid.2 j) (same j own)

theorem Octree.Descends.fill {T V : Octree κ β} {new : List κ} {lev lev' : ℕ}
    (h : Descends slot b T n below lev) (nodup : T.cells.Nodup) (laid : Laid view T)
    (stored : Stores slot b (.cell n below) (.cell n (Function.update below (slot n b) V)) new lev')
    (laidV : Laid view' V)
    (here : view' n = Function.update (view n) (slot n b) (V.entry .null))
    (same : ∀ c ∈ T.cells, c ≠ n → view' c = view c) :
    ∃ U, Stores slot b T U new (lev + lev') ∧ Laid view' U := by
  obtain ⟨apart, -, -⟩ := (nodup_cells_cell n below).mp (h.nodup nodup)
  have laidBelow : Laid view (.cell n below) := h.everywhere laid
  refine h.stores nodup laid same stored (laidBelow.update laidV here fun j _ a ha => ?_)
  refine same a (h.cells_sub ((mem_cells_cell n below a).mpr (.inr ⟨j, ha⟩))) fun e => ?_
  exact apart j (by rw [← e]; exact ha)

abbrev Octree.single (slot : κ → β → Fin 8) (c : κ) (o : β) : Octree κ β :=
  .cell c (Function.update (fun _ => .empty) (slot c o) (.leaf o))

theorem Octree.laid_pair {i j : Fin 8} {a b : β} (here : view n =
    Function.update (Function.update (fun _ => .null) i (.leaf a)) j (.leaf b)) :
    Laid view (.cell n (Function.update (Function.update (fun _ => .empty) i (.leaf a)) j
      (.leaf b))) := by
  constructor
  · intro l
    rw [here]
    by_cases second : l = j
    · simp [second, entry]
    · rw [Function.update_of_ne second, Function.update_of_ne second]
      by_cases first : l = i
      · simp [first, entry]
      · simp [first, entry]
  · intro l
    by_cases second : l = j
    · rw [second, Function.update_self]
      trivial
    · rw [Function.update_of_ne second]
      by_cases first : l = i
      · rw [first, Function.update_self]
        trivial
      · rw [Function.update_of_ne first]
        trivial

theorem stores_empty (empty : below (slot n b) = .empty) :
    Stores slot b (.cell n below) (.cell n (Function.update below (slot n b) (.leaf b))) [] 0 :=
  .store () n below empty

theorem stores_leaf {c : κ} {V : Octree κ β} {new : List κ} {lev : ℕ}
    (leaf : below (slot n b) = .leaf o) (stored : Stores slot b (Octree.single slot c o) V new lev) :
    Stores slot b (.cell n below) (.cell n (Function.update below (slot n b) V)) (c :: new)
      (lev + 1) :=
  .split () n c o below V new lev true leaf id trivial stored

/-- The cells above `d`, the nearest first: each refers to the next one and to nothing else, in
the slot that `b` and `o` share. -/
def Tower (view : κ → Fin 8 → Ref κ β) (slot : κ → β → Fin 8) (b o : β) : List κ → κ → Prop
  | [], _ => True
  | c :: l, d => slot c b = slot c o ∧
      view c = Function.update (fun _ => .null) (slot c o) (.cell d) ∧ Tower view slot b o l c

def uppermost : List κ → κ → κ
  | [], d => d
  | c :: l, _ => uppermost l c

theorem uppermost_mem (l : List κ) (d : κ) : uppermost l d ∈ d :: l := by
  induction l generalizing d with
  | nil => simp [uppermost]
  | cons c l ih => exact List.mem_cons_of_mem _ (ih c)

theorem Tower.stores {l : List κ} {d : κ} {W : Octree κ β} {new : List κ} {lev : ℕ}
    (tower : Tower view slot b o l d) (stored : Stores slot b (Octree.single slot d o) W new lev)
    (laid : Laid view W) :
    ∃ V new', Stores slot b (Octree.single slot (uppermost l d) o) V new' (lev + l.length) ∧
      Laid view V ∧ (uppermost l d :: new').Perm (d :: l ++ new) := by
  induction l generalizing d W new lev with
  | nil => exact ⟨W, new, stored, laid, List.Perm.refl _⟩
  | cons c l ih =>
      obtain ⟨together, holds, above⟩ := tower
      obtain ⟨sub, rfl⟩ := stored.root
      have leaf : Function.update (fun _ => (.empty : Octree κ β)) (slot c o) (.leaf o) (slot c b) =
          .leaf o := by rw [together, Function.update_self]
      have next := stores_leaf leaf stored
      have bare : Laid (fun _ _ => .null) (.cell c fun _ => (.empty : Octree κ β)) :=
        ⟨fun _ => rfl, fun _ => trivial⟩
      have laid' : Laid view (.cell c (Function.update (fun _ => .empty) (slot c o)
          (.cell d sub))) := bare.update laid holds fun j _ a ha => absurd ha List.not_mem_nil
      rw [together, Function.update_idem] at next
      obtain ⟨V, new', stores, laidV, perm⟩ := ih above next laid'
      refine ⟨V, new', ?_, laidV, perm.trans ?_⟩
      · rw [List.length_cons, ← Nat.add_assoc, Nat.add_right_comm]
        exact stores
      · have moved : ((c :: l) ++ d :: new).Perm (d :: ((c :: l) ++ new)) := List.perm_middle
        simpa using moved

end

end MilkyWay.Foundation
