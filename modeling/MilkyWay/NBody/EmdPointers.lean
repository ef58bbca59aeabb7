import MilkyWay.NBody.EmdValues

/-! The search for the values of the rows and columns on the nodes themselves. They stand
in lists of the lines found and of those not found, whose links change while they are
passed. -/

namespace MilkyWay.NBody

open Foundation Function

/-- EMDNode1D is used for lists, representing 1D sparse array; a pointer into the array is
its place. -/
structure EMDNode1D (R : Type) where
  val : R
  next : Option ℕ

/-- The nodes of the rows or of the columns, with the heads of the list of the lines not
found and of the list of the lines found but not yet used. -/
structure EMDLines (R : Type) where
  nodes : ℕ → EMDNode1D R
  head0 : Option ℕ
  head1 : Option ℕ

section
variable {R : Type}

namespace EMDLines

def val (lines : EMDLines R) (a : ℕ) : R := (lines.nodes a).val

def next (lines : EMDLines R) (a : ℕ) : Option ℕ := (lines.nodes a).next

def setVal (lines : EMDLines R) (a : ℕ) (x : R) : EMDLines R :=
  { lines with nodes := update lines.nodes a { lines.nodes a with val := x } }

def setNext (lines : EMDLines R) (a : ℕ) (p : Option ℕ) : EMDLines R :=
  { lines with nodes := update lines.nodes a { lines.nodes a with next := p } }

/-- The link from a previous node, which is the head of the lines not found or an entry. -/
def after (lines : EMDLines R) : Option ℕ → Option ℕ
  | none => lines.head0
  | some prev => lines.next prev

def setAfter (lines : EMDLines R) : Option ℕ → Option ℕ → EMDLines R
  | none, p => { lines with head0 := p }
  | some prev, p => lines.setNext prev p

def mark (lines : EMDLines R) (prev : Option ℕ) (cur : ℕ) (x : R) : EMDLines R :=
  let lines := lines.setVal cur x
  let lines := lines.setAfter prev (lines.next cur)
  { lines.setNext cur lines.head1 with head1 := some cur }

variable (lines : EMDLines R) (a : ℕ)

@[simp] theorem setVal_val (x : R) : (lines.setVal a x).val = update lines.val a x :=
  comp_update EMDNode1D.val lines.nodes a _

@[simp] theorem setVal_next (x : R) : (lines.setVal a x).next = lines.next :=
  (comp_update EMDNode1D.next lines.nodes a _).trans (update_eq_self a _)

@[simp] theorem setNext_val (p : Option ℕ) : (lines.setNext a p).val = lines.val :=
  (comp_update EMDNode1D.val lines.nodes a _).trans (update_eq_self a _)

@[simp] theorem setNext_next (p : Option ℕ) :
    (lines.setNext a p).next = update lines.next a p :=
  comp_update EMDNode1D.next lines.nodes a _

@[simp] theorem mark_val (prev : Option ℕ) (x : R) :
    (lines.mark prev a x).val = update lines.val a x := by
  cases prev with
  | none => exact (setNext_val _ a _).trans (setVal_val lines a x)
  | some b => exact (setNext_val _ a _).trans ((setNext_val _ b _).trans (setVal_val lines a x))

@[simp] theorem mark_head1 (prev : Option ℕ) (x : R) :
    (lines.mark prev a x).head1 = some a := rfl

theorem mark_none_head0 (x : R) : (lines.mark none a x).head0 = lines.next a :=
  congrFun (setVal_next lines a x) a

theorem mark_none_next (x : R) :
    (lines.mark none a x).next = update lines.next a lines.head1 := by
  have links := setVal_next lines a x
  refine (setNext_next _ a _).trans ?_
  exact congrArg (fun next : ℕ → Option ℕ => update next a lines.head1) links

theorem mark_some_head0 (b : ℕ) (x : R) : (lines.mark (some b) a x).head0 = lines.head0 := rfl

theorem mark_some_next (b : ℕ) (x : R) : (lines.mark (some b) a x).next =
    update (update lines.next b (lines.next a)) a lines.head1 := by
  have links : ((lines.setVal a x).setNext b ((lines.setVal a x).next a)).next =
      update lines.next b (lines.next a) := by
    rw [setNext_next, setVal_next]
  refine (setNext_next _ a _).trans ?_
  exact congrArg (fun next : ℕ → Option ℕ => update next a lines.head1) links

end EMDLines

/-! ## The search on the nodes -/

/-- A turn of the loop over the lines not found, at the line `cur` after `prev`. A place
outside the array fails. -/
def emdMarkTurn (size : ℕ) (is_x : ℕ → Bool) (value : ℕ → R) :
    Turn (EMDLines R × Option ℕ × Option ℕ) (EMDLines R)
  | (lines, _, none) => some (.inr lines)
  | (lines, prev, some cur) =>
      if size ≤ cur then none
      else if is_x cur then
        let lines := lines.mark prev cur (value cur)
        some (.inl (lines, prev, lines.after prev))
      else some (.inl (lines, some cur, lines.next cur))

/-- A turn of the loop over the marked lines, at the line `cur`, with the lines of the
other kind and the number of lines used. The previous node stays the head. -/
def emdUseTurn [Sub R] (fuel size size' : ℕ) (is_x : ℕ → ℕ → Bool) (cost : ℕ → ℕ → R) :
    Turn ((EMDLines R × EMDLines R × ℕ) × Option ℕ) (EMDLines R × EMDLines R × ℕ)
  | (search, none) => some (.inr search)
  | ((lines, others, cfound), some cur) =>
      if size ≤ cur then none
      else
        let cur_val := lines.val cur
        let marking := emdMarkTurn size' (is_x cur) fun other => cost cur other - cur_val
        (marking.run fuel (others, none, others.head0)).map fun others =>
          .inl (({ lines with head1 := lines.next cur }, others, cfound + 1), lines.next cur)

/-- The nodes of the rows and columns, and the numbers of those that are used. -/
structure EMDSearch (R : Type) where
  u : EMDLines R
  v : EMDLines R
  u_cfound : ℕ
  v_cfound : ℕ

namespace EMDSearch

section
variable [Sub R] (fuel : ℕ) (cost : ℕ → ℕ → R) (is_x : ℕ → ℕ → Bool) (ssize dsize : ℕ)

def emdFindRows (search : EMDSearch R) : Option (EMDSearch R) :=
  let turn := emdUseTurn fuel dsize ssize (fun j i => is_x i j) fun j i => cost i j
  (turn.run fuel ((search.v, search.u, search.v_cfound), search.v.head1)).map
    fun (v, u, v_cfound) => { search with u, v, v_cfound }

def emdFindCols (search : EMDSearch R) : Option (EMDSearch R) :=
  let turn := emdUseTurn fuel ssize dsize is_x cost
  (turn.run fuel ((search.u, search.v, search.u_cfound), search.u.head1)).map
    fun (u, v, u_cfound) => { search with u, v, u_cfound }

def markedColumns (search : EMDSearch R) : Option (Bool × EMDSearch R) :=
  if search.v_cfound < dsize then
    (emdFindRows fuel cost is_x ssize dsize search).map (search.v.head1.isSome, ·)
  else some (false, search)

def markedRows (found : Bool) (search : EMDSearch R) : Option (Bool × EMDSearch R) :=
  if search.u_cfound < ssize then
    (emdFindCols fuel cost is_x ssize dsize search).map (found || search.u.head1.isSome, ·)
  else some (found, search)

def emdFindTurn : Turn (EMDSearch R) (ℤ × EMDSearch R) := fun search =>
  if search.u_cfound < ssize ∨ search.v_cfound < dsize then
    (markedColumns fuel cost is_x ssize dsize search).bind fun (found, search) =>
      (markedRows fuel cost is_x ssize dsize found search).map fun (found, search) =>
        if found then .inl search else .inr (-1, search)
  else some (.inr (0, search))

end

/-- The lists at the start: all rows are not found, and of the columns all but the first.
There the source asks for the rows where it means the columns. -/
def init [Zero R] (u v : ℕ → EMDNode1D R) (ssize dsize : ℕ) : EMDSearch R :=
  let u_next := update (fun i => if i < ssize then some (i + 1) else (u i).next) (ssize - 1) none
  let v_next := update (fun j => if 1 ≤ j ∧ j < dsize then some (j + 1) else (v j).next)
    (dsize - 1) none
  { u := { nodes := fun i => { u i with next := u_next i }
           head0 := some 0
           head1 := none }
    v := { nodes := update (fun j => { v j with next := v_next j }) 0 { val := 0, next := none }
           head0 := if 1 < ssize then some 1 else none
           head1 := some 0 }
    u_cfound := 0
    v_cfound := 0 }

/-- What is returned, and the nodes of the rows and columns after. -/
def emdFindBasicVariables [Zero R] [Sub R] (fuel : ℕ) (cost : ℕ → ℕ → R) (is_x : ℕ → ℕ → Bool)
    (u v : ℕ → EMDNode1D R) (ssize dsize : ℕ) :
    Option (ℤ × (ℕ → EMDNode1D R) × (ℕ → EMDNode1D R)) :=
  ((emdFindTurn fuel cost is_x ssize dsize).run fuel (init u v ssize dsize)).map
    fun (result, search) => (result, search.u.nodes, search.v.nodes)

end EMDSearch

/-! ## The lists that the links hold -/

/-- The nodes have the values, and the links lead through the lines not found and through
those found, which are different places of the array. -/
structure EMDLines.Holds (size : ℕ) (lines : EMDLines R) (val : ℕ → R) (l0 l1 : List ℕ) :
    Prop where
  value : lines.val = val
  unfound : Foundation.Linked lines.next lines.head0 l0
  found : Foundation.Linked lines.next lines.head1 l1
  nodup : (l0 ++ l1).Nodup
  below : ∀ a ∈ l0 ++ l1, a < size

namespace EMDLines.Holds

variable {size : ℕ} {lines : EMDLines R} {val : ℕ → R} {l0 l1 passed rest : List ℕ} {a : ℕ}

theorem length_le (h : lines.Holds size val l0 l1) : l0.length + l1.length ≤ size := by
  rw [← List.length_append]
  exact length_le_of_below h.nodup h.below

theorem after (h : lines.Holds size val (passed ++ rest) l1) :
    lines.after passed.getLast? = rest.head? := by
  rcases passed.eq_nil_or_concat with rfl | ⟨before, b, rfl⟩
  · exact h.unfound.head
  · rw [List.concat_eq_append, List.getLast?_concat]
    have linked := h.unfound
    rw [List.concat_eq_append, List.append_assoc, List.singleton_append] at linked
    exact linked.after.head

theorem mark (h : lines.Holds size val (passed ++ a :: rest) l1) (x : R) :
    (lines.mark passed.getLast? a x).Holds size (update val a x) (passed ++ rest) (a :: l1) := by
  have perm : (passed ++ rest ++ a :: l1).Perm (passed ++ a :: rest ++ l1) := by
    rw [List.append_assoc, List.append_assoc]
    exact List.Perm.append_left passed List.perm_middle
  have nodup := perm.nodup_iff.mpr h.nodup
  have apart := List.nodup_cons.mp (List.nodup_middle.mp nodup)
  have unlisted : a ∉ passed ++ rest := fun mem => apart.1 (List.mem_append_left l1 mem)
  have unmarked : a ∉ l1 := fun mem => apart.1 (List.mem_append_right (passed ++ rest) mem)
  have value : (lines.mark passed.getLast? a x).val = update val a x := by
    rw [mark_val, h.value]
  have below : ∀ b ∈ passed ++ rest ++ a :: l1, b < size := fun b mem =>
    h.below b (perm.mem_iff.mp mem)
  rcases passed.eq_nil_or_concat with rfl | ⟨before, b, rfl⟩
  · refine ⟨value, ?_, ⟨rfl, ?_⟩, nodup, below⟩
    · rw [List.getLast?_nil, mark_none_head0, mark_none_next]
      exact h.unfound.2.update unlisted _
    · rw [List.getLast?_nil, mark_none_next, update_self]
      exact h.found.update unmarked _
  · have shape : ∀ l, before.concat b ++ l = before ++ b :: l := fun l => by
      rw [List.concat_eq_append, List.append_assoc, List.singleton_append]
    have linked := h.unfound
    have earlier : b ∉ l1 := fun mem =>
      (List.nodup_append.mp h.nodup).2.2 b (by simp) b mem rfl
    have last : (before.concat b).getLast? = some b := by
      rw [List.concat_eq_append, List.getLast?_concat]
    rw [shape] at linked unlisted
    rw [last] at value ⊢
    refine ⟨value, ?_, ⟨rfl, ?_⟩, nodup, below⟩
    · rw [mark_some_head0, mark_some_next, shape]
      exact linked.skip.update unlisted _
    · rw [mark_some_next, update_self]
      exact (h.found.update earlier _).update unmarked _

theorem drop (h : lines.Holds size val l0 (a :: l1)) :
    ({ lines with head1 := lines.next a } : EMDLines R).Holds size val l0 l1 where
  value := h.value
  unfound := h.unfound
  found := h.found.2
  nodup := h.nodup.sublist ((List.sublist_cons_self a l1).append_left l0)
  below b mem := h.below b (((List.sublist_cons_self a l1).append_left l0).subset mem)

end EMDLines.Holds

/-! ## The loops -/

theorem emdMarkTurn_run {size : ℕ} (is_x : ℕ → Bool) (value : ℕ → R) (rest : List ℕ)
    {lines : EMDLines R} {val : ℕ → R} {passed l1 : List ℕ} {fuel : ℕ}
    (h : lines.Holds size val (passed ++ rest) l1) (enough : rest.length < fuel) :
    ∃ lines', (emdMarkTurn size is_x value).run fuel (lines, passed.getLast?, rest.head?) =
        some lines' ∧
      lines'.Holds size (emdMark is_x value rest val l1).1
        (passed ++ (emdMark is_x value rest val l1).2.1) (emdMark is_x value rest val l1).2.2 := by
  induction rest generalizing lines val passed l1 fuel with
  | nil =>
      obtain ⟨fuel, rfl⟩ := Nat.exists_eq_succ_of_ne_zero (Nat.ne_zero_of_lt enough)
      exact ⟨lines, rfl, h⟩
  | cons a rest ih =>
      obtain ⟨fuel, rfl⟩ := Nat.exists_eq_succ_of_ne_zero (Nat.ne_zero_of_lt enough)
      have enough : rest.length < fuel := Nat.lt_of_succ_lt_succ enough
      have inside : ¬size ≤ a := Nat.not_le.mpr (h.below a (by simp))
      rw [emdMark]
      by_cases basic : is_x a = true
      · have marked := h.mark (value a)
        have step : (emdMarkTurn size is_x value).GoesOn (lines, passed.getLast?, some a)
            (lines.mark passed.getLast? a (value a), passed.getLast?, rest.head?) := by
          rw [Turn.GoesOn, emdMarkTurn, if_neg inside, if_pos basic]
          dsimp only
          rw [marked.after]
        obtain ⟨lines', run, holds⟩ := ih marked enough
        rw [if_pos basic]
        exact ⟨lines', (Turn.run_goesOn step fuel).trans run, holds⟩
      · have shape : ∀ l, passed ++ a :: l = passed ++ [a] ++ l := fun l => by simp
        rw [shape] at h
        have step : (emdMarkTurn size is_x value).GoesOn (lines, passed.getLast?, some a)
            (lines, (passed ++ [a]).getLast?, rest.head?) := by
          rw [Turn.GoesOn, emdMarkTurn, if_neg inside, if_neg basic, ← h.after,
            List.getLast?_concat]
          rfl
        obtain ⟨lines', run, holds⟩ := ih h enough
        rw [if_neg basic]
        refine ⟨lines', (Turn.run_goesOn step fuel).trans run, ?_⟩
        dsimp only
        rw [shape]
        exact holds

namespace EMDSearch

structure Holds (ssize dsize : ℕ) (search : EMDSearch R) (f : EMDFind R) : Prop where
  rows : search.u.Holds ssize f.u f.u0 f.u1
  cols : search.v.Holds dsize f.v f.v0 f.v1
  rows_used : search.u_cfound = f.u_cfound
  cols_used : search.v_cfound = f.v_cfound

def swap (search : EMDSearch R) : EMDSearch R :=
  ⟨search.v, search.u, search.v_cfound, search.u_cfound⟩

variable {ssize dsize fuel : ℕ} {search : EMDSearch R} {f : EMDFind R}

theorem Holds.swap (h : search.Holds ssize dsize f) : search.swap.Holds dsize ssize f.swap :=
  ⟨h.cols, h.rows, h.cols_used, h.rows_used⟩

variable [Sub R] {cost : ℕ → ℕ → R} {is_x : ℕ → ℕ → Bool}

theorem emdUseTurn_run (cost : ℕ → ℕ → R) (is_x : ℕ → ℕ → Bool)
    (enough : ssize + dsize < fuel) (marked : List ℕ) {n : ℕ} (turns : marked.length < n)
    (head : f.v1 = marked) (h : search.Holds ssize dsize f) :
    ∃ search' : EMDSearch R,
      (emdUseTurn fuel dsize ssize (fun j i => is_x i j) fun j i => cost i j).run n
          ((search.v, search.u, search.v_cfound), marked.head?) =
        some (search'.v, search'.u, search'.v_cfound) ∧
      search'.u_cfound = search.u_cfound ∧
      search'.Holds ssize dsize (useCols is_x cost marked f) := by
  induction marked generalizing search f n with
  | nil =>
      obtain ⟨n, rfl⟩ := Nat.exists_eq_succ_of_ne_zero (Nat.ne_zero_of_lt turns)
      exact ⟨search, rfl, rfl, h⟩
  | cons j marked ih =>
      obtain ⟨n, rfl⟩ := Nat.exists_eq_succ_of_ne_zero (Nat.ne_zero_of_lt turns)
      have cols := h.cols
      rw [head] at cols
      have inside : ¬dsize ≤ j := Nat.not_le.mpr (cols.below j (by simp))
      have rows : search.u.Holds ssize f.u ([] ++ f.u0) f.u1 := h.rows
      have length := h.rows.length_le
      obtain ⟨u, marking, holds⟩ := emdMarkTurn_run (is_x · j) (fun i => cost i j - f.v j) f.u0
        rows (by omega : f.u0.length < fuel)
      let next : EMDSearch R :=
        ⟨u, { search.v with head1 := search.v.next j }, search.u_cfound, search.v_cfound + 1⟩
      have kept : next.Holds ssize dsize (useCol is_x cost f j marked) :=
        ⟨holds, cols.drop, h.rows_used, congrArg (· + 1) h.cols_used⟩
      have link : search.v.next j = marked.head? := kept.cols.found.head
      obtain ⟨search', run, same, holds'⟩ := ih (Nat.lt_of_succ_lt_succ turns) rfl kept
      refine ⟨search', (Turn.run_goesOn ?_ n).trans run, same, holds'⟩
      rw [Turn.GoesOn, List.head?_cons, emdUseTurn, if_neg inside, cols.value,
        h.rows.unfound.head]
      rw [List.getLast?_nil] at marking
      dsimp only
      rw [marking, ← link]
      rfl

theorem emdFindRows_run {state : EMDState R} (enough : state.ssize + state.dsize < fuel)
    (h : search.Holds state.ssize state.dsize f) :
    ∃ search', search.emdFindRows fuel state.cost state.is_x state.ssize state.dsize =
        some search' ∧
      search'.Holds state.ssize state.dsize (NBody.emdFindRows state f) := by
  have cols := h.cols.length_le
  obtain ⟨search', run, same, holds⟩ := emdUseTurn_run state.cost state.is_x enough f.v1
    (by omega : f.v1.length < fuel) rfl h
  rw [emdFindRows, h.cols.found.head, run, emdFindRows_eq]
  refine ⟨search', ?_, holds⟩
  rw [Option.map_some, ← same]

theorem emdFindCols_run {state : EMDState R} (enough : state.ssize + state.dsize < fuel)
    (h : search.Holds state.ssize state.dsize f) :
    ∃ search', search.emdFindCols fuel state.cost state.is_x state.ssize state.dsize =
        some search' ∧
      search'.Holds state.ssize state.dsize (NBody.emdFindCols state f) := by
  have rows := h.rows.length_le
  obtain ⟨search', run, same, holds⟩ := emdUseTurn_run (fun j i => state.cost i j)
    (fun j i => state.is_x i j) (Nat.add_comm _ _ ▸ enough) f.u1
    (by omega : f.u1.length < fuel) rfl h.swap
  rw [emdFindCols, h.rows.found.head, emdFindCols_eq, emdFindRows_eq]
  refine ⟨search'.swap, ?_, holds.swap⟩
  change Option.map _ ((emdUseTurn fuel state.ssize state.dsize _ _).run fuel
    ((search.swap.v, search.swap.u, search.swap.v_cfound), f.u1.head?)) = _
  rw [run, Option.map_some, swap, same]
  rfl

theorem isSome_head? (l : List ℕ) : l.head?.isSome = !l.isEmpty := by
  cases l <;> rfl

theorem markedColumns_run {state : EMDState R} (enough : state.ssize + state.dsize < fuel)
    (h : search.Holds state.ssize state.dsize f) {found : Bool} {f' : EMDFind R}
    (half : (if f.v_cfound < state.dsize then (!f.v1.isEmpty, NBody.emdFindRows state f)
      else (false, f)) = (found, f')) :
    ∃ search', search.markedColumns fuel state.cost state.is_x state.ssize state.dsize =
        some (found, search') ∧ search'.Holds state.ssize state.dsize f' := by
  rw [markedColumns, h.cols_used, h.cols.found.head, isSome_head?]
  by_cases cols : f.v_cfound < state.dsize
  · obtain ⟨search', run, holds⟩ := emdFindRows_run enough h
    rw [if_pos cols] at half ⊢
    cases half
    rw [run]
    exact ⟨search', rfl, holds⟩
  · rw [if_neg cols] at half ⊢
    cases half
    exact ⟨search, rfl, h⟩

theorem markedRows_run {state : EMDState R} (enough : state.ssize + state.dsize < fuel)
    (h : search.Holds state.ssize state.dsize f) (before : Bool) {found : Bool} {f' : EMDFind R}
    (half : (if f.u_cfound < state.ssize then
      (before || !f.u1.isEmpty, NBody.emdFindCols state f) else (before, f)) = (found, f')) :
    ∃ search', search.markedRows fuel state.cost state.is_x state.ssize state.dsize before =
        some (found, search') ∧ search'.Holds state.ssize state.dsize f' := by
  rw [markedRows, h.rows_used, h.rows.found.head, isSome_head?]
  by_cases rows : f.u_cfound < state.ssize
  · obtain ⟨search', run, holds⟩ := emdFindCols_run enough h
    rw [if_pos rows] at half ⊢
    cases half
    rw [run]
    exact ⟨search', rfl, holds⟩
  · rw [if_neg rows] at half ⊢
    cases half
    exact ⟨search, rfl, h⟩

theorem emdFindTurn_eq {state : EMDState R} (enough : state.ssize + state.dsize < fuel)
    (h : search.Holds state.ssize state.dsize f)
    (more : f.u_cfound < state.ssize ∨ f.v_cfound < state.dsize) :
    ∃ search' : EMDSearch R,
      emdFindTurn fuel state.cost state.is_x state.ssize state.dsize search =
        some (if (emdFindRound state f).1 then .inl search' else .inr (-1, search')) ∧
      search'.Holds state.ssize state.dsize (emdFindRound state f).2 := by
  unfold emdFindRound
  cases columns : (if f.v_cfound < state.dsize then (!f.v1.isEmpty, NBody.emdFindRows state f)
    else (false, f)) with
  | mk found f' =>
      dsimp only
      obtain ⟨⟨found', f''⟩, rows⟩ : ∃ half, (if f'.u_cfound < state.ssize then
        (found || !f'.u1.isEmpty, NBody.emdFindCols state f') else (found, f')) = half :=
        ⟨_, rfl⟩
      obtain ⟨middle, first, held⟩ := markedColumns_run enough h columns
      obtain ⟨search', second, holds⟩ := markedRows_run enough held found rows
      simp only [rows]
      refine ⟨search', ?_, holds⟩
      rw [emdFindTurn, h.rows_used, h.cols_used, if_pos more, first, Option.bind_some]
      dsimp only
      rw [second]
      rfl

theorem emdFindTurn_run {state : EMDState R} {row col : ℕ → Prop} {E : Finset (ℕ × ℕ)}
    (enough : state.ssize + state.dsize < fuel)
    (pass : ∀ i < state.ssize, ∀ j < state.dsize, state.is_x i j = true → (row i ↔ col j))
    (k : ℕ) (turns : state.ssize + state.dsize < k + (f.u_cfound + f.v_cfound))
    (finding : Finding state.ssize state.dsize state.is_x state.cost row col f E)
    (h : search.Holds state.ssize state.dsize f) :
    ∃ search', (emdFindTurn fuel state.cost state.is_x state.ssize state.dsize).run k search =
        some (if (emdFindRounds state k f).1 then 0 else -1, search') ∧
      search'.Holds state.ssize state.dsize (emdFindRounds state k f).2 := by
  induction k generalizing search f E with
  | zero =>
      have rows := finding.rows_used
      have cols := finding.cols_used
      omega
  | succ k ih =>
      rw [emdFindRounds, Turn.run]
      by_cases more : f.u_cfound < state.ssize ∨ f.v_cfound < state.dsize
      · obtain ⟨E', finding', progress, -⟩ := emdFindRound_spec pass finding
        obtain ⟨search', turn, holds⟩ := emdFindTurn_eq enough h more
        rw [if_pos more, turn]
        cases round : emdFindRound state f with
        | mk found f' =>
            rw [round] at finding' progress holds
            cases found with
            | true =>
                have less := progress rfl
                dsimp only at less
                exact ih (by omega) finding' holds
            | false => exact ⟨search', rfl, holds⟩
      · rw [if_neg more, emdFindTurn, h.rows_used, h.cols_used, if_neg more]
        exact ⟨search, rfl, h⟩

variable [Zero R]

def stateOf (cost : ℕ → ℕ → R) (is_x : ℕ → ℕ → Bool) (u v : ℕ → EMDNode1D R)
    (ssize dsize : ℕ) : EMDState R :=
  { emdStart ⟨ssize, dsize, cost, fun _ => none, fun _ => none, 0, 0⟩ (fun _ => 0) fun _ => 0
    with is_x, u := fun i => (u i).val, v := fun j => (v j).val }

theorem init_holds (u v : ℕ → EMDNode1D R) (rows : 1 < ssize) (cols : 1 < dsize) :
    (init u v ssize dsize).Holds ssize dsize (.start (stateOf cost is_x u v ssize dsize)) := by
  obtain ⟨m, rfl⟩ := Nat.exists_eq_add_of_le' rows
  obtain ⟨n, rfl⟩ := Nat.exists_eq_add_of_le' cols
  have u_next : ∀ i, (init u v (m + 2) (n + 2)).u.next i =
      if i = m + 1 then none else if i < m + 2 then some (i + 1) else (u i).next := by
    intro i
    simp [init, EMDLines.next, update_apply]
  have v_next : ∀ j, j ≠ 0 → (init u v (m + 2) (n + 2)).v.next j =
      if j = n + 1 then none
      else if 1 ≤ j ∧ j < n + 2 then some (j + 1) else (v j).next := by
    intro j zero
    simp [init, EMDLines.next, update_apply, zero]
  have rows_linked : Foundation.Linked (init u v (m + 2) (n + 2)).u.next (some 0)
      (List.range (m + 2)) := by
    rw [List.range_eq_range']
    refine linked_range' (fun i _ lt => ?_) ?_
    · rw [u_next, if_neg (by omega), if_pos (by omega)]
    · rw [u_next, if_pos (by omega)]
  have cols_linked : Foundation.Linked (init u v (m + 2) (n + 2)).v.next (some 1)
      (List.range' 1 (n + 1)) := by
    refine linked_range' (fun j le lt => ?_) ?_
    · rw [v_next j (by omega), if_neg (by omega), if_pos (by omega)]
    · rw [v_next _ (by omega), if_pos (by omega)]
  have finding : Finding _ _ _ _ _ _ (.start (stateOf cost is_x u v (m + 2) (n + 2))) ∅ :=
    .start (Nat.succ_pos (n + 1))
  have value : (init u v (m + 2) (n + 2)).v.val = update (fun j => (v j).val) 0 0 := by
    funext j
    by_cases zero : j = 0
    · subst zero
      simp [init, EMDLines.val]
    · simp [init, EMDLines.val, zero]
  refine ⟨⟨rfl, rows_linked, rfl, finding.rows_nodup, finding.rows_lt⟩,
    ⟨value, ?_, ⟨rfl, rfl⟩, finding.cols_nodup, finding.cols_lt⟩, rfl, rfl⟩
  have head : (init u v (m + 2) (n + 2)).v.head0 = some 1 := by
    rw [init]
    dsimp only
    rw [if_pos rows]
  rw [head]
  exact cols_linked

theorem emdFindBasicVariables_run {state : EMDState R} {u v : ℕ → EMDNode1D R}
    (same : state = stateOf cost is_x u v ssize dsize) (rows : 1 < ssize) (cols : 1 < dsize)
    (enough : ssize + dsize < fuel) :
    ∃ u' v', emdFindBasicVariables fuel cost is_x u v ssize dsize =
        some (if (NBody.emdFindBasicVariables state).1 then 0 else -1, u', v') ∧
      (∀ i, (u' i).val = (NBody.emdFindBasicVariables state).2.u i) ∧
      ∀ j, (v' j).val = (NBody.emdFindBasicVariables state).2.v j := by
  subst same
  have some_col : 0 < (stateOf cost is_x u v ssize dsize).dsize := Nat.zero_lt_of_lt cols
  obtain ⟨search, run, holds⟩ := emdFindTurn_run enough (joined_iff some_col)
    (ssize + dsize + 1) (Nat.lt_add_right _ (Nat.lt_succ_self _)) (Finding.start some_col)
    (init_holds u v rows cols)
  refine ⟨search.u.nodes, search.v.nodes, ?_, congrFun holds.rows.value,
    congrFun holds.cols.value⟩
  have longer := Turn.run_mono run (Nat.succ_le_of_lt enough)
  rw [emdFindBasicVariables]
  exact congrArg (Option.map _) longer

end EMDSearch

end

/-- With more than one row and column the search ends on every matrix, within its arrays,
with all values found where the basic cells connect the rows and columns and with a failure
elsewhere. The values of a spanning tree add up to the costs of its cells. -/
theorem emdFindBasicVariables_correct {F : Type} [AddCommGroup F] (cost : ℕ → ℕ → F)
    (is_x : ℕ → ℕ → Bool) (u v : ℕ → EMDNode1D F) {ssize dsize : ℕ} (rows : 1 < ssize)
    (cols : 1 < dsize) {fuel : ℕ} (enough : ssize + dsize < fuel) :
    ∃ result u' v', EMDSearch.emdFindBasicVariables fuel cost is_x u v ssize dsize =
        some (result, u', v') ∧
      (result = 0 ∨ result = -1) ∧
      (result = -1 ↔ ¬(cellGraph ssize dsize is_x).Connected) ∧
      ((cellGraph ssize dsize is_x).IsTree → result = 0 ∧
        ∀ i < ssize, ∀ j < dsize, is_x i j = true → (u' i).val + (v' j).val = cost i j) := by
  let state := EMDSearch.stateOf cost is_x u v ssize dsize
  have some_col : 0 < state.dsize := Nat.zero_lt_of_lt cols
  have all := emdFindBasicVariables_iff some_col
  obtain ⟨u', v', run, u_val, v_val⟩ :=
    EMDSearch.emdFindBasicVariables_run (rfl : state = _) rows cols enough
  refine ⟨_, u', v', run, ?_, ?_, ?_⟩
  · cases (emdFindBasicVariables state).1 with
    | true => exact .inl rfl
    | false => exact .inr rfl
  · change _ ↔ ¬(cellGraph state.ssize state.dsize state.is_x).Connected
    rw [← all]
    cases (emdFindBasicVariables state).1 with
    | true => decide
    | false => decide
  · intro tree
    obtain ⟨connected, card⟩ := cellGraph_isTree_iff.mp tree
    have found : (emdFindBasicVariables state).1 = true := all.mpr connected
    refine ⟨if_pos found, fun i hi j hj basic => ?_⟩
    rw [u_val, v_val]
    exact (emdFindBasicVariables_cost some_col found card hi hj basic).symm

/-- A tree of two rows and columns. -/
theorem emdFindBasicVariables_corner :
    ∃ u' v', EMDSearch.emdFindBasicVariables 5 (fun i j => (2 * i + 3 * j + 7 : ℤ))
        (fun i j => i == 0 || j == 0) (fun _ => ⟨0, none⟩) (fun _ => ⟨0, none⟩) 2 2 =
        some (0, u', v') ∧
      ∀ i < 2, ∀ j < 2, (i == 0 || j == 0) = true →
        (u' i).val + (v' j).val = (2 * i + 3 * j + 7 : ℤ) := by
  obtain ⟨result, u', v', run, -, connected, tree⟩ := emdFindBasicVariables_correct
    (fun i j => (2 * i + 3 * j + 7 : ℤ)) (fun i j => i == 0 || j == 0) (fun _ => ⟨0, none⟩)
    (fun _ => ⟨0, none⟩) (by decide : 1 < 2) (by decide : 1 < 2) (by decide : 2 + 2 < 5)
  have returned : (EMDSearch.emdFindBasicVariables 5 (fun i j => (2 * i + 3 * j + 7 : ℤ))
      (fun i j => i == 0 || j == 0) (fun _ => ⟨0, none⟩) (fun _ => ⟨0, none⟩) 2 2).map
      Prod.fst = some 0 := by decide
  rw [run, Option.map_some, Option.some.injEq] at returned
  dsimp only at returned
  have joined : (cellGraph 2 2 fun i j => i == 0 || j == 0).Connected := by
    by_contra apart
    have failed := connected.mpr apart
    omega
  have count : (markedCells 2 2 fun i j => i == 0 || j == 0).card + 1 = 2 + 2 := by decide
  rw [returned] at run
  exact ⟨u', v', run, (tree (cellGraph_isTree_iff.mpr ⟨joined, count⟩)).2⟩

end MilkyWay.NBody
