import MilkyWay.Foundation.Descent
import MilkyWay.Foundation.Subtree
import MilkyWay.NBody.SummarizationCL

/-! The slots of a cell on the device: the children in them, and how `summarization` moves these to
the front. -/

namespace MilkyWay.NBody

open Foundation Foundation.Octree

def front (row : Fin 8 → SlotCL) (i : ℕ) : List SlotCL :=
  (List.range i).map fun l => row (slotNumber l)

def children (row : Fin 8 → SlotCL) : List SlotCL := (front row 8).filter SlotCL.isNode

variable {row row' row₀ : Fin 8 → SlotCL} {i j : ℕ} {ch : SlotCL}

theorem front_succ (row : Fin 8 → SlotCL) (i : ℕ) :
    front row (i + 1) = front row i ++ [row (slotNumber i)] := by
  rw [front, List.range_succ, List.map_append]
  rfl

theorem front_congr (same : ∀ l < i, row (slotNumber l) = row' (slotNumber l)) :
    front row i = front row' i :=
  List.map_congr_left fun l hl => same l (List.mem_range.mp hl)

theorem slotNumber_ne {l n : ℕ} (hl : l < 8) (hn : n < 8) (ne : l ≠ n) :
    slotNumber l ≠ slotNumber n := by
  intro same
  have vals : l % 8 = n % 8 := congrArg Fin.val same
  omega

theorem slotNumber_val (i : Fin 8) : slotNumber i.val = i := Fin.ext (Nat.mod_eq_of_lt i.isLt)

def Clean (row : Fin 8 → SlotCL) : Prop := ∀ i, (row i).isNode = true ∨ row i = .null

/-- The first `i` slots have been gone through: the `j` children that were in them stand in
front, in their order. -/
structure Packed (row₀ row : Fin 8 → SlotCL) (i j : ℕ) : Prop where
  le : j ≤ i
  small : i ≤ 8
  kept : front row j = (front row₀ i).filter SlotCL.isNode
  gap : ∀ l, j ≤ l → l < i → row (slotNumber l) = .null
  rest : ∀ l, i ≤ l → l < 8 → row (slotNumber l) = row₀ (slotNumber l)

theorem Packed.start (row : Fin 8 → SlotCL) : Packed row row 0 0 :=
  ⟨le_rfl, Nat.zero_le _, rfl, fun _ _ lt => absurd lt (Nat.not_lt_zero _), fun _ _ _ => rfl⟩

theorem Packed.skip (h : Packed row₀ row i j) (clean : Clean row₀) (inside : i < 8)
    (none : (row (slotNumber i)).isNode = false) : Packed row₀ row (i + 1) j := by
  have same := h.rest i le_rfl inside
  have empty : row (slotNumber i) = .null := by
    rw [same] at none ⊢
    exact (clean _).resolve_left (by rw [none]; decide)
  refine ⟨h.le.trans (Nat.le_succ i), inside, ?_, fun l lower upper => ?_,
    fun l lower upper => h.rest l (Nat.le_of_succ_le lower) upper⟩
  · rw [h.kept, front_succ, List.filter_append, ← same, empty]
    simp [SlotCL.isNode]
  · rcases Nat.lt_succ_iff_lt_or_eq.mp upper with before | rfl
    · exact h.gap l lower before
    · exact empty

theorem moveChild_apply {l : ℕ} (le : j ≤ i) (inside : i < 8) (hl : l < 8) :
    moveChild row i j (row (slotNumber i)) (slotNumber l) =
      if l = j then row (slotNumber i) else if l = i then .null else row (slotNumber l) := by
  rw [moveChild]
  by_cases target : l = j
  · subst target
    rw [if_pos rfl]
    split
    · rw [Function.update_self]
    · next same => rw [not_not.mp same]
  · rw [if_neg target]
    split
    · next moved =>
        rw [Function.update_of_ne (slotNumber_ne hl (by omega) target)]
        by_cases source : l = i
        · rw [source, Function.update_self, if_pos rfl]
        · rw [Function.update_of_ne (slotNumber_ne hl inside source), if_neg source]
    · next same => rw [if_neg (by omega)]

theorem Packed.move (h : Packed row₀ row i j) (inside : i < 8)
    (node : (row (slotNumber i)).isNode = true) :
    Packed row₀ (moveChild row i j (row (slotNumber i))) (i + 1) (j + 1) ∧
      moveChild row i j (row (slotNumber i)) (slotNumber j) = row (slotNumber i) ∧
      front (moveChild row i j (row (slotNumber i))) j = front row j := by
  have le := h.le
  have slots : ∀ l < 8, moveChild row i j (row (slotNumber i)) (slotNumber l) =
      if l = j then row (slotNumber i) else if l = i then .null else row (slotNumber l) :=
    fun l hl => moveChild_apply le inside hl
  have same : front (moveChild row i j (row (slotNumber i))) j = front row j := by
    refine front_congr fun l hl => ?_
    rw [slots l (by omega), if_neg (by omega), if_neg (by omega)]
  have here : moveChild row i j (row (slotNumber i)) (slotNumber j) = row (slotNumber i) := by
    rw [slots j (by omega), if_pos rfl]
  refine ⟨⟨Nat.succ_le_succ le, inside, ?_, fun l lower upper => ?_, fun l lower upper => ?_⟩, here,
    same⟩
  · rw [front_succ, front_succ, same, here, h.kept, List.filter_append, ← h.rest i le_rfl inside,
      List.filter_cons_of_pos node, List.filter_nil]
  · rw [slots l (by omega), if_neg (by omega)]
    split
    · rfl
    · exact h.gap l (by omega) (by omega)
  · rw [slots l upper, if_neg (by omega), if_neg (by omega)]
    exact h.rest l (by omega) upper

structure InFront (row : Fin 8 → SlotCL) (j : ℕ) : Prop where
  first : children row = front row j
  le : j ≤ 8
  rest : ∀ l, j ≤ l → l < 8 → row (slotNumber l) = .null

theorem Packed.finish (h : Packed row₀ row 8 j) :
    children row = children row₀ ∧ InFront row j := by
  have nodes : ∀ l < j, (row (slotNumber l)).isNode = true := by
    intro l hl
    have mem : row (slotNumber l) ∈ front row j := List.mem_map_of_mem (List.mem_range.mpr hl)
    rw [h.kept] at mem
    exact (List.mem_filter.mp mem).2
  have all : ∀ n ≤ 8, j ≤ n → (front row n).filter SlotCL.isNode = front row j := by
    intro n small le
    induction n with
    | zero =>
        have zero : j = 0 := by omega
        subst zero
        rfl
    | succ n ih =>
        rw [front_succ, List.filter_append]
        rcases Nat.lt_or_ge n j with last | beyond
        · have here : j = n + 1 := by omega
          subst here
          rw [front_succ, List.filter_cons_of_pos (nodes n last), List.filter_nil,
            List.filter_eq_self.mpr fun ch mem => ?_]
          obtain ⟨l, hl, rfl⟩ := List.mem_map.mp mem
          exact nodes l (by rw [List.mem_range] at hl; omega)
        · rw [ih (by omega) beyond, h.gap n beyond (by omega)]
          simp [SlotCL.isNode]
  have whole := all 8 le_rfl h.le
  exact ⟨whole.trans h.kept, whole, h.le, h.gap⟩

theorem InFront.clean (h : InFront row j) : Clean row := by
  intro i
  rcases Nat.lt_or_ge i.val j with lt | ge
  · have mem : row (slotNumber i.val) ∈ front row j :=
      List.mem_map_of_mem (List.mem_range.mpr lt)
    rw [← h.first, slotNumber_val] at mem
    exact .inl (List.mem_filter.mp mem).2
  · have null := h.rest i.val ge i.isLt
    rw [slotNumber_val] at null
    exact .inr null

theorem mem_children {ch : SlotCL} :
    ch ∈ children row ↔ ch.isNode = true ∧ ∃ i, row i = ch := by
  rw [children, List.mem_filter, and_comm, front, List.mem_map]
  refine and_congr_right fun _ => ⟨?_, ?_⟩
  · rintro ⟨l, -, here⟩
    exact ⟨_, here⟩
  · rintro ⟨i, here⟩
    refine ⟨i.val, List.mem_range.mpr i.isLt, ?_⟩
    rw [slotNumber_val, here]

theorem flatMap_front {α : Type} (f : SlotCL → List α) (row : Fin 8 → SlotCL) :
    (front row 8).flatMap f = (List.finRange 8).flatMap fun i => f (row i) := by
  have range : List.range 8 = (List.finRange 8).map Fin.val := by decide
  rw [front, range, List.map_map, List.flatMap_map]
  exact List.flatMap_congr fun i _ => by rw [Function.comp_apply, slotNumber_val]

def childBodies (T : Octree ℕ ℕ) : SlotCL → List ℕ
  | .body b => [b]
  | .cell c => T.under c
  | _ => []

theorem flatMap_children (T : Octree ℕ ℕ) (row : Fin 8 → SlotCL) :
    (front row 8).flatMap (childBodies T) = (children row).flatMap (childBodies T) := by
  rw [children]
  generalize front row 8 = l
  induction l with
  | nil => rfl
  | cons ch l ih =>
      cases node : ch.isNode with
      | true => rw [List.filter_cons_of_pos node, List.flatMap_cons, List.flatMap_cons, ih]
      | false =>
          have none : childBodies T ch = [] := by
            cases ch <;> first | rfl | cases node
          rw [List.filter_cons_of_neg (by rw [node]; decide), List.flatMap_cons, none,
            List.nil_append, ih]

structure OnDevice (l : PassLaunch) (bottom : ℕ) (rows : ℕ → Fin 8 → SlotCL)
    (T : Octree ℕ ℕ) : Prop where
  root : ∃ sub, T = .cell l.NNODE sub
  laid : Laid (fun c i => (rows c i).ref) T
  cellsNodup : T.cells.Nodup
  bodies : ∀ b ∈ T.leaves, b < l.NBODY
  above : l.NBODY < bottom
  cells : ∀ c, bottom ≤ c ∧ c ≤ l.NNODE ↔ c ∈ T.cells

namespace OnDevice

variable {l : PassLaunch} {bottom : ℕ} {rows : ℕ → Fin 8 → SlotCL} {T : Octree ℕ ℕ} {c : ℕ}

theorem slots (h : OnDevice l bottom rows T) (mem : c ∈ T.cells) : ∃ sub, Within c sub T ∧
    (∀ i, (rows c i).ref = (sub i).entry .null) ∧ T.under c = (Octree.cell c sub).leaves ∧
      ∀ i, childBodies T (rows c i) = (sub i).leaves := by
  obtain ⟨sub, within⟩ := exists_within mem
  have refs : ∀ i, (rows c i).ref = (sub i).entry .null := within.holds h.laid
  have under := under_everywhere h.cellsNodup
  refine ⟨sub, within, refs, within.holds under, fun i => ?_⟩
  have here := refs i
  cases slot : rows c i <;> cases below : sub i <;> rw [slot, below] at here <;> cases here
  · rfl
  · rfl
  · exact (within.down below).holds under

theorem slot_cases (h : OnDevice l bottom rows T) (mem : c ∈ T.cells) (i : Fin 8) :
    rows c i = .null ∨ (∃ b, rows c i = .body b ∧ b ∈ T.leaves) ∨
      ∃ d, rows c i = .cell d ∧ d ∈ T.cells := by
  obtain ⟨sub, within, refs, -, -⟩ := h.slots mem
  have here := refs i
  cases slot : rows c i <;> cases below : sub i <;> rw [slot, below] at here <;> cases here
  · exact .inl rfl
  · next b =>
      refine .inr (.inl ⟨b, rfl, within.leaves_sub ((mem_leaves_cell c sub b).mpr ⟨i, ?_⟩)⟩)
      rw [below]
      simp [leaves]
  · next d inner => exact .inr (.inr ⟨d, rfl, (within.down below).mem⟩)

theorem clean (h : OnDevice l bottom rows T) (mem : c ∈ T.cells) : Clean (rows c) := by
  intro i
  rcases h.slot_cases mem i with null | ⟨b, slot, -⟩ | ⟨d, slot, -⟩
  · exact .inr null
  · rw [slot]
    exact .inl rfl
  · rw [slot]
    exact .inl rfl

theorem child_cases (h : OnDevice l bottom rows T) (mem : c ∈ T.cells) {ch : SlotCL}
    (child : ch ∈ children (rows c)) :
    (∃ b, ch = .body b ∧ b ∈ T.leaves) ∨ ∃ d, ch = .cell d ∧ d ∈ T.cells := by
  obtain ⟨node, i, rfl⟩ := mem_children.mp child
  refine (h.slot_cases mem i).resolve_left fun null => ?_
  rw [null] at node
  cases node

theorem cell_mem (h : OnDevice l bottom rows T) (mem : c ∈ T.cells) {d : ℕ}
    (child : .cell d ∈ children (rows c)) : d ∈ T.cells := by
  rcases h.child_cases mem child with ⟨b, body, -⟩ | ⟨e, cell, there⟩
  · cases body
  · cases cell
    exact there

theorem below (h : OnDevice l bottom rows T) {sub : Fin 8 → Octree ℕ ℕ} (within : Within c sub T)
    {d : ℕ} (child : .cell d ∈ children (rows c)) : ∃ i inner, sub i = .cell d inner := by
  obtain ⟨-, i, slot⟩ := mem_children.mp child
  have laid : (rows c i).ref = (sub i).entry .null := within.holds h.laid i
  rw [slot, SlotCL.ref] at laid
  obtain ⟨inner, cell⟩ := entry_eq_cell laid.symm
  exact ⟨i, inner, cell⟩

theorem child_of_entry (h : OnDevice l bottom rows T) {sub : Fin 8 → Octree ℕ ℕ}
    (within : Within c sub T) (i : Fin 8) {ch : SlotCL} (node : ch.isNode = true)
    (slot : (sub i).entry .null = ch.ref) : ch ∈ children (rows c) := by
  have laid : (rows c i).ref = (sub i).entry .null := within.holds h.laid i
  exact mem_children.mpr ⟨node, i, SlotCL.ref_injective (laid.trans slot)⟩

theorem under_eq (h : OnDevice l bottom rows T) (mem : c ∈ T.cells) :
    T.under c = (children (rows c)).flatMap (childBodies T) := by
  obtain ⟨sub, -, -, under, each⟩ := h.slots mem
  have whole : (front (rows c) 8).flatMap (childBodies T) = T.under c := by
    rw [flatMap_front, under, leaves]
    exact List.flatMap_congr fun i _ => each i
  rw [← whole, flatMap_children]

end OnDevice

end MilkyWay.NBody
