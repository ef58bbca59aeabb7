import MilkyWay.Foundation.Scanning

/-! The order of the arguments. What follows the server's parameters is moved in front of all
others, by a count that is read from an argument. A count that an `int` does not keep passes
the checks and the arguments are read outside of their array: `mwFixArgv_iff`. -/

namespace MilkyWay.Util

open Foundation

/-! ## The C library -/

def strtoul (s : List Char) : ℕ × List Char :=
  match scanInteger (s.dropWhile isspace) with
  | none => (0, s)
  | some (z, rest) => (if 2 ^ 64 ≤ z.natAbs then 2 ^ 64 - 1 else (z % 2 ^ 64).toNat, rest)

def toInt (value : ℕ) : ℤ := Int.bmod value (2 ^ 32)

inductive OutOfBounds where
  | read (i : ℤ)
  | write (i : ℕ)
deriving DecidableEq

/-- The arguments from a place on. The null pointer behind the last one can be read, nothing
before the first and nothing beyond. -/
def argvFrom (argv : List (List Char)) (i : ℤ) : Except OutOfBounds (List (List Char)) :=
  if i < 0 ∨ argv.length < i then .error (.read i) else .ok (argv.drop i.toNat)

@[simp] theorem ok_bind {α β : Type} (a : α) (f : α → Except OutOfBounds β) :
    (.ok a >>= f) = f a := rfl

abbrev Copy := List (Option (List Char))

def store (argvCopy : Copy) (i : ℕ) (arg : List Char) : Except OutOfBounds Copy :=
  if i < argvCopy.length then .ok (argvCopy.set i (some arg)) else .error (.write i)

/-! ## The copy -/

def isNp (arg : List Char) : Bool := "-np".toList.isPrefixOf arg

def isP (arg : List Char) : Bool := "-p".toList.isPrefixOf arg

def copyAppended (appendedCount : ℤ) :
    List (List Char) → ℕ → Copy → Except OutOfBounds (ℕ × Copy)
  | [], i, argvCopy => .ok (i, argvCopy)
  | arg :: p, i, argvCopy =>
      if i ≤ appendedCount then
        store argvCopy i arg >>= copyAppended appendedCount p (i + 1)
      else .ok (i, argvCopy)

def copyRest : List (List Char) → ℕ → Copy → Except OutOfBounds Copy
  | [], _, argvCopy => .ok argvCopy
  | arg :: rest, i, argvCopy =>
      if i < argvCopy.length then store argvCopy i arg >>= copyRest rest (i + 1)
      else .ok argvCopy

def copyArgv (argv : List (List Char)) (p appendedCount : ℤ) : Except OutOfBounds (Option Copy) :=
  match argv with
  | [] => .error (.read 0)
  | program :: rest => do
      let argvCopy ← store (List.replicate argv.length none) 0 program
      let p ← argvFrom argv p
      let (i, argvCopy) ← copyAppended appendedCount p 1 argvCopy
      let argvCopy ← copyRest rest i argvCopy
      return some argvCopy

def moveAppended (argv : List (List Char)) (npCheck : ℕ) (np : ℤ) :
    Except OutOfBounds (Option Copy) :=
  let remaining : ℤ := argv.length - 3 - npCheck
  if remaining < np ∨ argv.length ≤ np then .ok none
  else do
    let p ← argvFrom argv (npCheck + 2 : ℕ)
    if p.head?.any (fun arg => !isP arg) then return none
    else
      let p ← argvFrom argv (npCheck + 3 : ℕ)
      if p = [] then return none
      else copyArgv argv (npCheck + 3 + np) (remaining - np)

/-- The arguments in another order, or nothing where there are no parameters of the server or
they are not as expected. -/
def mwFixArgv (argv : List (List Char)) : Except OutOfBounds (Option Copy) :=
  match argv.findIdx? isNp with
  | none => .ok none
  | some npCheck => do
      match ← argvFrom argv (npCheck + 1 : ℕ) with
      | [] => return none
      | number :: _ =>
        let (value, endP) := strtoul number
        if endP ≠ [] then return none
        else moveAppended argv npCheck (toInt value)

example : mwFixArgv ["mw".toList, "-np".toList, "1".toList, "-p".toList, "7".toList,
    "-x".toList] = .ok (some [some "mw".toList, some "-x".toList, some "-np".toList,
      some "1".toList, some "-p".toList, some "7".toList]) := by decide

/-! ## What the loops copy -/

def filled (n : ℕ) (args : List (List Char)) : Copy :=
  args.map some ++ List.replicate (n - args.length) none

theorem length_filled {n : ℕ} {args : List (List Char)} (le : args.length ≤ n) :
    (filled n args).length = n := by
  simp [filled, le]

theorem store_filled {n : ℕ} {args : List (List Char)} (less : args.length < n)
    (arg : List Char) : store (filled n args) args.length arg = .ok (filled n (args ++ [arg])) := by
  obtain ⟨room, rfl⟩ := Nat.exists_eq_add_of_lt less
  have rest : args.length + room + 1 - args.length = room + 1 := by omega
  have rest' : args.length + room + 1 - (args.length + 1) = room := by omega
  rw [store, if_pos (by rw [length_filled less.le]; exact less)]
  simp [filled, rest, rest', List.replicate_succ]

theorem copyAppended_eq {n : ℕ} {appendedCount : ℤ} (p args : List (List Char))
    (room : args.length + p.length ≤ n) (all : (args.length + p.length : ℤ) ≤ appendedCount + 1) :
    copyAppended appendedCount p args.length (filled n args) =
      .ok ((args ++ p).length, filled n (args ++ p)) := by
  induction p generalizing args with
  | nil => simp [copyAppended]
  | cons arg p ih =>
      rw [List.length_cons] at room all
      push_cast at all
      have next := ih (args ++ [arg]) (by simp; omega) (by simp; omega)
      rw [copyAppended, if_pos (by omega), store_filled (by omega)]
      rw [List.length_append, List.length_singleton] at next
      rw [ok_bind, next, List.append_assoc]
      rfl

theorem copyRest_eq {n : ℕ} (rest args : List (List Char)) (le : args.length ≤ n)
    (enough : n ≤ args.length + rest.length) :
    copyRest rest args.length (filled n args) =
      .ok ((args ++ rest.take (n - args.length)).map some) := by
  induction rest generalizing args with
  | nil =>
      have full : n - args.length = 0 := Nat.sub_eq_zero_of_le enough
      simp [copyRest, filled, full]
  | cons arg rest ih =>
      rw [copyRest, length_filled le]
      split
      · rename_i less
        rw [List.length_cons] at enough
        have next := ih (args ++ [arg]) (by simp; omega) (by simp; omega)
        rw [List.length_append, List.length_singleton] at next
        obtain ⟨room, rest_eq⟩ : ∃ room, n - args.length = room + 1 :=
          ⟨n - args.length - 1, by omega⟩
        have rest_eq' : n - (args.length + 1) = room := by omega
        rw [store_filled less]
        rw [ok_bind, next, rest_eq, rest_eq', List.take_succ_cons, List.append_assoc]
        rfl
      · rename_i last
        have full : n - args.length = 0 := by omega
        simp [filled, full]

def reordered (argv : List (List Char)) (m : ℕ) : List (List Char) :=
  argv.take 1 ++ argv.drop m ++ (argv.take m).drop 1

theorem reordered_perm (argv : List (List Char)) {m : ℕ} (some : 1 ≤ m) :
    (reordered argv m).Perm argv := by
  have split : argv.take 1 ++ (argv.take m).drop 1 = argv.take m := by
    have first : (argv.take m).take 1 = argv.take 1 := by
      rw [List.take_take, Nat.min_eq_left some]
    rw [← first, List.take_append_drop]
  calc (reordered argv m).Perm (argv.take 1 ++ ((argv.take m).drop 1 ++ argv.drop m)) := by
        rw [reordered, List.append_assoc]
        exact List.perm_append_comm.append_left _
    _ = argv := by rw [← List.append_assoc, split, List.take_append_drop]

theorem argvFrom_eq {argv : List (List Char)} {i : ℕ} (le : i ≤ argv.length) :
    argvFrom argv i = .ok (argv.drop i) := by
  rw [argvFrom, if_neg (by omega), Int.toNat_natCast]

theorem copyArgv_eq {argv : List (List Char)} {m : ℕ} (some : 1 ≤ m) (le : m ≤ argv.length) :
    copyArgv argv m (argv.length - m) = .ok (.some ((reordered argv m).map .some)) := by
  obtain ⟨k, rfl⟩ := Nat.exists_eq_add_of_le' some
  cases argv with
  | nil => simp at le
  | cons program rest =>
      rw [List.length_cons] at le
      have start : store (List.replicate (rest.length + 1) none) 0 program =
          .ok (filled (rest.length + 1) [program]) :=
        @store_filled (rest.length + 1) [] (Nat.succ_pos _) program
      have appended : copyAppended ((program :: rest).length - (k + 1 : ℕ)) (rest.drop k) 1
          (filled (rest.length + 1) [program]) =
            .ok (([program] ++ rest.drop k).length, filled _ ([program] ++ rest.drop k)) :=
        copyAppended_eq (rest.drop k) [program] (by simp; omega) (by simp; omega)
      have others := @copyRest_eq (rest.length + 1) rest ([program] ++ rest.drop k)
        (by simp) (by simp only [List.length_append, List.length_singleton]; omega)
      have left : rest.length + 1 - ([program] ++ rest.drop k).length = k := by
        simp only [List.length_append, List.length_singleton, List.length_drop]
        omega
      have order : reordered (program :: rest) (k + 1) =
          [program] ++ rest.drop k ++ rest.take k := by simp [reordered]
      have place : argvFrom (program :: rest) (k + 1 : ℕ) = .ok (rest.drop k) := argvFrom_eq le
      rw [left] at others
      unfold copyArgv
      simp only [List.length_cons] at appended ⊢
      rw [start, ok_bind, place, ok_bind, appended, ok_bind, others, order]
      rfl

/-! ## The arguments that are given -/

/-- The place of the first argument for a count, and the value of the count. -/
structure Count (argv : List (List Char)) (npCheck value : ℕ) : Prop where
  found : argv.findIdx? isNp = some npCheck
  number : ∃ number, argv[npCheck + 1]? = some number ∧ strtoul number = (value, [])

/-- Nothing lies outside of the array, and the result is a null pointer or the name of the
program, the arguments behind so many parameters as are counted, and the other ones. -/
def Orders (argv : List (List Char)) : Except OutOfBounds (Option Copy) → Prop
  | .error _ => False
  | .ok none => True
  | .ok (some argvCopy) => ∃ npCheck value args, Count argv npCheck value ∧
      npCheck + 3 + value ≤ argv.length ∧ args.Perm argv ∧
      args = argv.take 1 ++ argv.drop (npCheck + 3 + value) ++
        (argv.take (npCheck + 3 + value)).drop 1 ∧
      argvCopy = args.map some

/-- A count that does not pass the checks, whatever it is made. -/
def Refused (argv : List (List Char)) (npCheck value : ℕ) : Prop :=
  (argv.length - 3 - npCheck : ℤ) < toInt value ∨
    (∃ arg, argv[npCheck + 2]? = some arg ∧ isP arg = false) ∨ argv.length = npCheck + 3

section
variable {argv : List (List Char)} {npCheck value : ℕ}

theorem Count.lt_length (count : Count argv npCheck value) : npCheck + 1 < argv.length := by
  obtain ⟨number, here, -⟩ := count.number
  exact (List.getElem?_eq_some_iff.mp here).1

theorem Count.unique {npCheck' value' : ℕ} (count : Count argv npCheck value)
    (count' : Count argv npCheck' value') : npCheck = npCheck' ∧ value = value' := by
  obtain rfl : npCheck = npCheck' := Option.some.inj (count.found.symm.trans count'.found)
  obtain ⟨number, here, read⟩ := count.number
  obtain ⟨number', here', read'⟩ := count'.number
  obtain rfl : number = number' := Option.some.inj (here.symm.trans here')
  exact ⟨rfl, congrArg Prod.fst (read.symm.trans read')⟩

theorem mwFixArgv_of_count (count : Count argv npCheck value) :
    mwFixArgv argv = moveAppended argv npCheck (toInt value) := by
  obtain ⟨number, here, read⟩ := count.number
  have le := count.lt_length
  have rest : argv.drop (npCheck + 1) = number :: argv.drop (npCheck + 2) := by
    rw [List.drop_eq_getElem_cons le, (List.getElem?_eq_some_iff.mp here).2]
  simp only [mwFixArgv, count.found, argvFrom_eq le.le, ok_bind, rest, read]
  exact if_neg fun ne => ne rfl

theorem mwFixArgv_of_not_count (none : ∀ npCheck value, ¬Count argv npCheck value) :
    mwFixArgv argv = .ok .none := by
  unfold mwFixArgv
  split
  · rfl
  · rename_i npCheck found
    have le : npCheck + 1 ≤ argv.length := (List.findIdx?_eq_some_iff_getElem.mp found).1
    rw [argvFrom_eq le, ok_bind]
    split
    · rfl
    · rename_i number rest drop
      split
      rename_i value endP read
      split
      · rfl
      · rename_i empty
        rw [not_not] at empty
        subst empty
        have here : argv[npCheck + 1]? = some number := by
          rw [← List.head?_drop, drop, List.head?_cons]
        exact absurd ⟨found, number, here, read⟩ (none npCheck value)

theorem toInt_of_lt (small : value < 2 ^ 31) : toInt value = value := by
  exact Int.bmod_eq_of_le (by omega) (by omega)

theorem moveAppended_of_refused (le : npCheck + 1 < argv.length)
    (refused : Refused argv npCheck value) :
    moveAppended argv npCheck (toInt value) = .ok none := by
  unfold moveAppended
  dsimp only
  split
  · rfl
  · rename_i passes
    rw [argvFrom_eq le, ok_bind, List.head?_drop]
    split
    · rfl
    · rename_i word
      obtain many | ⟨arg, here, other⟩ | last := refused
      · exact absurd (.inl many) passes
      · simp [here, other] at word
      · rw [argvFrom_eq last.ge, ok_bind, if_pos (List.drop_eq_nil_of_le last.le)]
        rfl

theorem copyArgv_ne_none (p appendedCount : ℤ) : copyArgv argv p appendedCount ≠ .ok none := by
  intro null
  unfold copyArgv at null
  cases argv with
  | nil => cases null
  | cons program rest =>
      dsimp only at null
      cases first : store (List.replicate (program :: rest).length none) 0 program with
      | error e => rw [first] at null; cases null
      | ok argvCopy =>
          rw [first, ok_bind] at null
          cases place : argvFrom (program :: rest) p with
          | error e => rw [place] at null; cases null
          | ok p =>
              rw [place, ok_bind] at null
              cases appended : copyAppended appendedCount p 1 argvCopy with
              | error e => rw [appended] at null; cases null
              | ok copied =>
                  rw [appended, ok_bind] at null
                  cases others : copyRest rest copied.1 copied.2 with
                  | error e => rw [others] at null; cases null
                  | ok argvCopy => rw [others] at null; cases null

theorem moveAppended_ne_none (le : npCheck + 1 < argv.length)
    (passes : ¬Refused argv npCheck value) :
    moveAppended argv npCheck (toInt value) ≠ .ok none := by
  intro null
  rw [Refused, not_or, not_or, not_lt] at passes
  obtain ⟨few, word, next⟩ := passes
  unfold moveAppended at null
  rw [if_neg (by omega), argvFrom_eq le, ok_bind, List.head?_drop, if_neg] at null
  · by_cases last : argv.length = npCheck + 2
    · rw [argvFrom, if_pos (by omega)] at null
      cases null
    · rw [argvFrom_eq (by omega), ok_bind, if_neg] at null
      · exact copyArgv_ne_none _ _ null
      · rw [List.drop_eq_nil_iff]
        omega
  · intro other
    obtain ⟨arg, here, other⟩ := (Option.any_eq_true _ _).mp other
    exact word ⟨arg, here, by simpa using other⟩

theorem moveAppended_eq (le : npCheck + 1 < argv.length) (small : value < 2 ^ 31)
    (passes : ¬Refused argv npCheck value) :
    npCheck + 3 + value ≤ argv.length ∧ moveAppended argv npCheck (toInt value) =
      .ok (some ((reordered argv (npCheck + 3 + value)).map some)) := by
  rw [Refused, not_or, not_or, not_lt, toInt_of_lt small] at passes
  obtain ⟨few, word, next⟩ := passes
  have inside : npCheck + 3 + value ≤ argv.length := by omega
  refine ⟨inside, ?_⟩
  rw [← copyArgv_eq (by omega) inside]
  unfold moveAppended
  rw [toInt_of_lt small, if_neg (by omega), argvFrom_eq le, ok_bind, List.head?_drop, if_neg,
    argvFrom_eq (by omega), ok_bind, if_neg]
  · push_cast
    congr 1
    omega
  · rw [List.drop_eq_nil_iff]
    omega
  · intro other
    obtain ⟨arg, here, other⟩ := (Option.any_eq_true _ _).mp other
    exact word ⟨arg, here, by simpa using other⟩

end

/-- The arguments are put in order just where the count, if there is one, is kept by an int or
does not pass the checks. -/
theorem mwFixArgv_iff {argv : List (List Char)} (fits : argv.length < 2 ^ 31) :
    Orders argv (mwFixArgv argv) ↔
      ∀ npCheck value, Count argv npCheck value → value < 2 ^ 31 ∨ Refused argv npCheck value := by
  constructor
  · intro orders npCheck value count
    by_contra wrong
    obtain ⟨large, passes⟩ := not_or.mp wrong
    rw [mwFixArgv_of_count count] at orders
    have copies := moveAppended_ne_none count.lt_length passes
    cases ended : moveAppended argv npCheck (toInt value) with
    | error e => rw [ended] at orders; exact orders
    | ok result =>
        cases result with
        | none => exact copies ended
        | some argvCopy =>
            rw [ended] at orders
            obtain ⟨npCheck', value', args, count', inside, -⟩ := orders
            obtain ⟨rfl, rfl⟩ := count.unique count'
            omega
  · intro kept
    by_cases counted : ∃ npCheck value, Count argv npCheck value
    · obtain ⟨npCheck, value, count⟩ := counted
      have whole := mwFixArgv_of_count count
      by_cases refused : Refused argv npCheck value
      · rw [whole, moveAppended_of_refused count.lt_length refused]
        exact True.intro
      · have small := (kept npCheck value count).resolve_right refused
        obtain ⟨inside, moved⟩ := moveAppended_eq count.lt_length small refused
        rw [whole, moved]
        exact ⟨npCheck, value, _, count, inside, reordered_perm argv (by omega), rfl, rfl⟩
    · rw [mwFixArgv_of_not_count fun npCheck value count => counted ⟨npCheck, value, count⟩]
      exact True.intro

/-- A parameter of the server and an appended argument. -/
theorem mwFixArgv_iff_appended :
    let argv := ["mw".toList, "-np".toList, "1".toList, "-p".toList, "7".toList, "-x".toList]
    argv.length < 2 ^ 31 ∧ (Orders argv (mwFixArgv argv) ↔
      ∀ npCheck value, Count argv npCheck value →
        value < 2 ^ 31 ∨ Refused argv npCheck value) :=
  ⟨by decide, mwFixArgv_iff (by decide)⟩

/-- A count of minus five: the place behind the parameters is before the first argument. -/
theorem mwFixArgv_negative :
    mwFixArgv ["mw".toList, "-np".toList, "-5".toList, "-p".toList, "7".toList] =
        .error (.read (-1)) ∧
      ¬Orders ["mw".toList, "-np".toList, "-5".toList, "-p".toList, "7".toList]
        (mwFixArgv ["mw".toList, "-np".toList, "-5".toList, "-p".toList, "7".toList]) := by
  have fault : mwFixArgv ["mw".toList, "-np".toList, "-5".toList, "-p".toList, "7".toList] =
      .error (.read (-1)) := by decide
  rw [fault]
  exact ⟨rfl, id⟩

end MilkyWay.Util
