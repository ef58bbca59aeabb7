import MilkyWay.Foundation.Linked
import MilkyWay.Foundation.Run
import MilkyWay.NBody.Histogram
import Mathlib.Logic.Function.Basic

/-! The earth mover's distance of two lists of weights: a first basis by Russel's method,
and the simplex steps from it until no cell has a reduced cost below the tolerance. -/

namespace MilkyWay.NBody

open Foundation Function

section
variable {R : Type} [Zero R] [Add R] [Neg R] [Sub R] [Mul R] [Div R] [OfScientific R] [BEq R]
  [LT R] [DecidableLT R] [LE R] [DecidableLE R]

def MAX_ITERATIONS : ℕ := 2500

def EMD_INF : R := 1.0e20

def EMD_EPS : R := 1.0e-5

structure EMDNode2D (R : Type) where
  val : R
  next : Fin 2 → Option ℕ
  i : ℕ
  j : ℕ

/-- What is fixed once the costs are known; `none` stands for the dummy cluster. -/
structure EMDProblem (R : Type) where
  ssize : ℕ
  dsize : ℕ
  cost : ℕ → ℕ → R
  idx1 : ℕ → Option ℕ
  idx2 : ℕ → Option ℕ
  weight : R
  max_cost : R

/-- The state; pointers into the nodes `x` are their places. -/
structure EMDState (R : Type) extends EMDProblem R where
  x : ℕ → EMDNode2D R
  end_x : ℕ
  enter_x : ℕ
  is_x : ℕ → ℕ → Bool
  rows_x : ℕ → Option ℕ
  cols_x : ℕ → Option ℕ
  u : ℕ → R
  v : ℕ → R
  s : ℕ → R
  d : ℕ → R
  delta : ℕ → ℕ → R

def setEntry {α : Type} (m : ℕ → ℕ → α) (i j : ℕ) (a : α) : ℕ → ℕ → α :=
  fun i' j' => if i' = i ∧ j' = j then a else m i' j'

def cellsOf (rows cols : List ℕ) : List (ℕ × ℕ) := rows.flatMap fun i => cols.map (i, ·)

/-- A loop that looks for the smallest value, with the first entry that has it; the value
starts at `EMD_INF`. -/
def smallest {ι : Type} (f : ι → R) (l : List ι) : Option ι × R :=
  l.foldl (fun least a => if f a < least.2 then (some a, f a) else least) (none, EMD_INF)

def largest {ι : Type} (f : ι → R) (start : R) (l : List ι) : R :=
  l.foldl (fun most a => if most < f a then f a else most) start

def mw_fabs (x : R) : R := if x < 0 then -x else x

/-! ## The first basis -/

def emdAddBasicVariable (state : EMDState R) (rows cols : List ℕ) (min_i min_j : ℕ) :
    EMDState R × List ℕ × List ℕ :=
  let taken : R × (ℕ → R) × (ℕ → R) :=
    if state.s min_i < state.d min_j + state.weight * EMD_EPS then
      (state.s min_i, update state.s min_i 0,
        update state.d min_j (state.d min_j - state.s min_i))
    else
      (state.d min_j, update state.s min_i (state.s min_i - state.d min_j),
        update state.d min_j 0)
  let state := { state with
    s := taken.2.1
    d := taken.2.2
    is_x := setEntry state.is_x min_i min_j true
    x := update state.x state.end_x
      ⟨taken.1, ![state.rows_x min_i, state.cols_x min_j], min_i, min_j⟩
    rows_x := update state.rows_x min_i (some state.end_x)
    cols_x := update state.cols_x min_j (some state.end_x)
    end_x := state.end_x + 1 }
  -- delete the supply row only if it is empty and not the last one
  if state.s min_i == 0 && decide (1 < rows.length) then (state, rows.erase min_i, cols)
  else (state, rows, cols.erase min_j)

/-- Renew the largest cost of the line `a` where that was the cost at `b`, and the
differences of that line where it has hardly changed. -/
def emdRenew (eps : R) (cost : ℕ → ℕ → R) (b : ℕ) (others : List ℕ)
    (lines : (ℕ → R) × (ℕ → ℕ → R)) (a : ℕ) : (ℕ → R) × (ℕ → ℕ → R) :=
  if lines.1 a == cost a b then
    let max_val := largest (cost a) (-EMD_INF) others
    let diff := max_val - lines.1 a
    (update lines.1 a max_val,
      if mw_fabs diff < eps then
        fun a' b' => if a' = a ∧ b' ∈ others then lines.2 a' b' + diff else lines.2 a' b'
      else lines.2)
  else lines

/-- The loop over the basic variables. Each turn takes a row or a column from the lists,
so `ssize + dsize` turns empty them. -/
def emdRusselLoop (eps : R) : ℕ → EMDState R → List ℕ → List ℕ → EMDState R
  | 0, state, _, _ => state
  | n + 1, state, rows, cols =>
      match (smallest (fun c => state.delta c.1 c.2) (cellsOf rows cols)).1 with
      | none => state
      | some (min_i, min_j) =>
          let (next, rows', cols') := emdAddBasicVariable state rows cols min_i min_j
          -- The link to the row is the same where the column was deleted.
          let next :=
            if min_i ∈ rows' then
              let lines := cols'.foldl (emdRenew eps (fun j i => next.cost i j) min_i rows')
                (next.v, fun j i => next.delta i j)
              { next with v := lines.1, delta := fun i j => lines.2 j i }
            else
              let lines := rows'.foldl (emdRenew eps next.cost min_j cols') (next.u, next.delta)
              { next with u := lines.1, delta := lines.2 }
          if rows' = [] ∧ cols' = [] then next else emdRusselLoop eps n next rows' cols'

def emdRussel (state : EMDState R) : EMDState R :=
  let eps := EMD_EPS * state.max_cost
  let rows := List.range state.ssize
  let cols := List.range state.dsize
  let u := fun i => largest (state.cost i) (-EMD_INF) cols
  let v := fun j => largest (state.cost · j) (-EMD_INF) rows
  let delta := fun i j => state.cost i j - u i - v j
  emdRusselLoop eps (state.ssize + state.dsize) { state with u, v, delta } rows cols

/-! ## Initialization -/

/-- The distance of two points, each with its weight before it. -/
def emdDistL2 (mw_sqrt : R → R) (x y : WeightPos R) : R :=
  let t₀ := x.lambda - y.lambda
  let t₁ := x.beta - y.beta
  mw_sqrt (0 + t₀ * t₀ + t₁ * t₁)

/-- The sum of the weights, and the positive ones with their places; nothing where one is
negative. -/
def emdWeights (signature : List (WeightPos R)) : Option (R × List (R × Option ℕ)) :=
  signature.zipIdx.foldlM (fun sums entry =>
    if 0 < entry.1.weight then
      some (sums.1 + entry.1.weight, sums.2 ++ [(entry.1.weight, some entry.2)])
    else if entry.1.weight < 0 then none
    else some sums) (0, [])

def emdProblem (mw_sqrt : R → R) (signature1 signature2 : List (WeightPos R)) :
    Option (EMDProblem R × (ℕ → R) × (ℕ → R)) := do
  let (s_sum, rows) ← emdWeights signature1
  let (d_sum, cols) ← emdWeights signature2
  if rows = [] ∨ cols = [] then none
  else
    let diff := s_sum - d_sum
    let differ := EMD_EPS * s_sum ≤ mw_fabs diff
    let rows := if differ ∧ diff < 0 then rows ++ [(-diff, none)] else rows
    let cols := if differ ∧ ¬diff < 0 then cols ++ [(diff, none)] else cols
    let idx1 := fun i => rows[i]?.bind Prod.snd
    let idx2 := fun j => cols[j]?.bind Prod.snd
    let cost := fun i j => match (idx1 i).bind (signature1[·]?), (idx2 j).bind (signature2[·]?) with
      | some p, some q => emdDistL2 mw_sqrt p q
      | _, _ => 0
    let cells := cellsOf (List.range rows.length) (List.range cols.length)
    some ({ ssize := rows.length, dsize := cols.length, cost, idx1, idx2
            weight := if d_sum < s_sum then s_sum else d_sum
            max_cost := largest (fun c => cost c.1 c.2) 0 cells },
      fun i => (rows[i]?.map Prod.fst).getD 0, fun j => (cols[j]?.map Prod.fst).getD 0)

/-- The state before the first basis: the lists are empty and no cell is basic. -/
def emdStart (problem : EMDProblem R) (s d : ℕ → R) : EMDState R where
  toEMDProblem := problem
  x := fun _ => ⟨0, fun _ => none, 0, 0⟩
  end_x := 0
  enter_x := 0
  is_x := fun _ _ => false
  rows_x := fun _ => none
  cols_x := fun _ => none
  u := fun _ => 0
  v := fun _ => 0
  s := s
  d := d
  delta := fun _ _ => 0

def emdInitEMD (mw_sqrt : R → R) (signature1 signature2 : List (WeightPos R)) :
    Option (EMDState R) :=
  (emdProblem mw_sqrt signature1 signature2).map fun (problem, s, d) =>
    let state := emdRussel (emdStart problem s d)
    { state with enter_x := state.end_x, end_x := state.end_x + 1 }

/-! ## The optimality test -/

/-- The values of the rows and columns, with the lists of those that are found but not
yet used and of those that are not found, and the numbers of those that are used. -/
structure EMDFind (R : Type) where
  u : ℕ → R
  v : ℕ → R
  u0 : List ℕ
  u1 : List ℕ
  v0 : List ℕ
  v1 : List ℕ
  u_cfound : ℕ
  v_cfound : ℕ

/-- Look along the lines not found for those that have a basic cell with the current
one; they get their values and are marked. -/
def emdMark (is_x : ℕ → Bool) (value : ℕ → R) :
    List ℕ → (ℕ → R) → List ℕ → (ℕ → R) × List ℕ × List ℕ
  | [], val, marked => (val, [], marked)
  | a :: rest, val, marked =>
      if is_x a then emdMark is_x value rest (update val a (value a)) (a :: marked)
      else
        let (val, rest, marked) := emdMark is_x value rest val marked
        (val, a :: rest, marked)

def emdFindRows (state : EMDState R) (f : EMDFind R) : EMDFind R :=
  let found := f.v1.foldl (fun (lines : (ℕ → R) × List ℕ × List ℕ) j =>
    emdMark (state.is_x · j) (fun i => state.cost i j - f.v j) lines.2.1 lines.1 lines.2.2)
    (f.u, f.u0, f.u1)
  { f with u := found.1, u0 := found.2.1, u1 := found.2.2, v1 := []
           v_cfound := f.v_cfound + f.v1.length }

def emdFindCols (state : EMDState R) (f : EMDFind R) : EMDFind R :=
  let found := f.u1.foldl (fun (lines : (ℕ → R) × List ℕ × List ℕ) i =>
    emdMark (state.is_x i) (fun j => state.cost i j - f.u i) lines.2.1 lines.1 lines.2.2)
    (f.v, f.v0, f.v1)
  { f with v := found.1, v0 := found.2.1, v1 := found.2.2, u1 := []
           u_cfound := f.u_cfound + f.u1.length }

def emdFindRound (state : EMDState R) (f : EMDFind R) : Bool × EMDFind R :=
  let (found, f) :=
    if f.v_cfound < state.dsize then (!f.v1.isEmpty, emdFindRows state f) else (false, f)
  if f.u_cfound < state.ssize then (found || !f.u1.isEmpty, emdFindCols state f) else (found, f)

def emdFindRounds (state : EMDState R) : ℕ → EMDFind R → Bool × EMDFind R
  | 0, f => (false, f)
  | n + 1, f =>
      if f.u_cfound < state.ssize ∨ f.v_cfound < state.dsize then
        let (found, f) := emdFindRound state f
        if found then emdFindRounds state n f else (false, f)
      else (true, f)

/-- The state with the values of the rows and columns, and whether all were found. It is
called with at least two rows and columns. -/
def emdFindBasicVariables (state : EMDState R) : Bool × EMDState R :=
  let (found, f) := emdFindRounds state (state.ssize + state.dsize + 1)
    { u := state.u
      v := update state.v 0 0
      u0 := List.range state.ssize
      u1 := []
      v0 := List.range' 1 (state.dsize - 1)
      v1 := [0]
      u_cfound := 0
      v_cfound := 0 }
  (found, { state with u := f.u, v := f.v })

/-- The smallest reduced cost off the basis, and the state with its cell as the next one
to enter. -/
def emdIsOptimal (state : EMDState R) : R × EMDState R :=
  let cells := (cellsOf (List.range state.ssize) (List.range state.dsize)).filter fun c =>
    !state.is_x c.1 c.2
  let least := smallest (fun c => state.cost c.1 c.2 - state.u c.1 - state.v c.2) cells
  let (min_i, min_j) := least.1.getD (0, 0)
  (least.2, { state with
    x := update state.x state.enter_x { state.x state.enter_x with i := min_i, j := min_j } })

/-! ## The step to a new basis -/

/-- Leave the last nodes of the loop for the next ones of their lists, back to one that
has another one. The loop is kept with its last node first; the nodes used are those on
it. Without any node left the source reads before the start of its array. -/
def emdBacktrack (fuel : ℕ) (x : ℕ → EMDNode2D R) : List ℕ → Option (List ℕ)
  | [] => none
  | k :: loop =>
      let i : Fin 2 := if (loop.length + 1) % 2 = 1 then 1 else 0
      match firstUnpassed (fun a => (x a).next i) (fun a => (k :: loop).contains a) fuel
        ((x k).next i) with
      | none => none
      | some (some k') => some (k' :: loop)
      | some none => emdBacktrack fuel x loop

/-- A turn of the search for the loop: along the row of the last node from an odd number
of steps, else along its column, where the entering node closes the loop. -/
def emdFindLoopTurn (fuel : ℕ) (state : EMDState R) : Turn (List ℕ) (List ℕ)
  | [] => none
  | k :: loop =>
      let used := fun a => (k :: loop).contains a
      if (loop.length + 1) % 2 = 1 then
        match firstUnpassed (fun a => (state.x a).next 0) used fuel
          (state.rows_x (state.x k).i) with
        | none => none
        | some (some k') => some (.inl (k' :: k :: loop))
        | some none => (emdBacktrack fuel state.x (k :: loop)).map .inl
      else
        match firstUnpassed (fun a => (state.x a).next 1)
          (fun a => used a && a != state.enter_x) fuel (state.cols_x (state.x k).j) with
        | none => none
        | some (some k') =>
            if k' = state.enter_x then some (.inr (k :: loop).reverse)
            else some (.inl (k' :: k :: loop))
        | some none => (emdBacktrack fuel state.x (k :: loop)).map .inl

/-- The loop of nodes from the entering one. -/
def emdFindLoop (fuel : ℕ) (state : EMDState R) : Option (List ℕ) :=
  (emdFindLoopTurn fuel state).run fuel [state.enter_x]

/-- Enter the new basic variable. -/
def emdEnter (state : EMDState R) : EMDState R :=
  let i := (state.x state.enter_x).i
  let j := (state.x state.enter_x).j
  { state with
    is_x := setEntry state.is_x i j true
    x := update state.x state.enter_x ⟨0, ![state.rows_x i, state.cols_x j], i, j⟩
    rows_x := update state.rows_x i (some state.enter_x)
    cols_x := update state.cols_x j (some state.enter_x) }

/-- The entries at the odd places of a loop. -/
def oddPlaces : List ℕ → List ℕ
  | _ :: b :: rest => b :: oddPlaces rest
  | _ => []

def emdShift (min_val : R) : List ℕ → (ℕ → EMDNode2D R) → ℕ → EMDNode2D R
  | a :: b :: rest, x =>
      let temp0 := (x a).val + min_val
      let temp1 := (x b).val - min_val
      let x := update x a { x a with val := temp0 }
      emdShift min_val rest (update x b { x b with val := temp1 })
  | _, x => x

def emdUnlink (fuel : ℕ) (x : ℕ → EMDNode2D R) (k : Fin 2) (head : Option ℕ) (leave_x : ℕ) :
    Option ((ℕ → EMDNode2D R) × Option ℕ) :=
  (predecessor (fun a => (x a).next k) head leave_x fuel none).map fun
    | none => (x, (x leave_x).next k)
    | some cur =>
        (update x cur { x cur with next := update (x cur).next k ((x leave_x).next k) }, head)

def emdLeave (fuel : ℕ) (state : EMDState R) (leave_x : ℕ) : Option (EMDState R) := do
  let i := (state.x leave_x).i
  let j := (state.x leave_x).j
  let (x, row) ← emdUnlink fuel state.x 0 (state.rows_x i) leave_x
  let (x, col) ← emdUnlink fuel x 1 (state.cols_x j) leave_x
  some { state with
    is_x := setEntry state.is_x i j false
    x
    rows_x := update state.rows_x i row
    cols_x := update state.cols_x j col
    enter_x := leave_x }

/-- The state after the step, and whether it was made. The search for the loop does not
return without one. -/
def emdNewSolution (fuel : ℕ) (state : EMDState R) : Option (Bool × EMDState R) := do
  let state := emdEnter state
  let loop ← emdFindLoop fuel state
  match smallest (fun k => (state.x k).val) (oddPlaces loop) with
  | (none, _) => some (false, state)
  | (some leave_x, min_val) =>
      let state ← emdLeave fuel { state with x := emdShift min_val loop state.x } leave_x
      some (true, state)

/-! ## The distance -/

/-- How a search stops: there is only one row or column, the basic cells do not give all
values of the rows and columns, no cell can enter, the test for the optimum succeeds, the
step fails, or there are too many steps. -/
inductive EMDStop
  | single
  | noBasicVariables
  | noEntering
  | optimal
  | failedStep
  | limit
deriving DecidableEq

/-- What `emdIterateSolution` returns where it stops so. -/
def EMDStop.result : EMDStop → ℕ
  | .single => 0
  | .noBasicVariables => 0
  | .noEntering => 1
  | .optimal => 0
  | .failedStep => 1
  | .limit => 0

def emdIterateTurn (fuel : ℕ) (state : EMDState R) :
    Option (EMDState R ⊕ EMDState R × EMDStop) :=
  let eps := EMD_EPS * state.max_cost
  let (found, state) := emdFindBasicVariables state
  if found then
    let (min_delta, state) := emdIsOptimal state
    if min_delta == EMD_INF then some (.inr (state, .noEntering))
    else if -eps ≤ min_delta then some (.inr (state, .optimal))
    else
      (emdNewSolution fuel state).map fun (made, state) =>
        if made then .inl state else .inr (state, .failedStep)
  else some (.inr (state, .noBasicVariables))

def emdIterate (fuel : ℕ) : ℕ → EMDState R → Option (EMDState R × EMDStop)
  | 0, state => some (state, .limit)
  | n + 1, state => match emdIterateTurn fuel state with
      | none => none
      | some (.inl state) => emdIterate fuel n state
      | some (.inr stopped) => some stopped

/-- The state and the way in which the search stops. -/
def emdIterateSolution (fuel : ℕ) (state : EMDState R) : Option (EMDState R × EMDStop) :=
  if 1 < state.ssize ∧ 1 < state.dsize then emdIterate fuel (MAX_ITERATIONS - 1) state
  else some (state, .single)

def emdComputeTotalFlow (state : EMDState R) : R :=
  (List.range state.end_x).foldl (fun totalCost k =>
    let xp := state.x k
    if k = state.enter_x then totalCost
    else if (state.idx1 xp.i).isSome && (state.idx2 xp.j).isSome then
      totalCost + xp.val * state.cost xp.i xp.j
    else totalCost) 0

/-- The distance, and the way in which the search for it stops where there is one. -/
def emdCalcStop (fuel : ℕ) (mw_sqrt : R → R) (EMD_INVALID : R)
    (signature1 signature2 : List (WeightPos R)) : Option (R × Option EMDStop) :=
  match emdInitEMD mw_sqrt signature1 signature2 with
  | none => some (EMD_INVALID, none)
  | some state =>
      (emdIterateSolution fuel state).map fun (state, stop) =>
        (if stop.result = 0 then emdComputeTotalFlow state / state.weight else EMD_INVALID,
          some stop)

def emdCalc (fuel : ℕ) (mw_sqrt : R → R) (EMD_INVALID : R)
    (signature1 signature2 : List (WeightPos R)) : Option R :=
  (emdCalcStop fuel mw_sqrt EMD_INVALID signature1 signature2).map Prod.fst

end

end MilkyWay.NBody
