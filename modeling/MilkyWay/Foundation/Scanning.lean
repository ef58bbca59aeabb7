import Mathlib.Algebra.Order.Floor.Ring
import Mathlib.Algebra.Order.Floor.Semiring
import Mathlib.Algebra.Order.Archimedean.Basic
import Mathlib.Data.List.DropRight
import Mathlib.Data.List.TakeWhile
import Mathlib.Tactic.FieldSimp
import Mathlib.Tactic.Linarith
import MilkyWay.Foundation.Cube

/-! Formatted input and output on lists of characters. A format is matched directive by
directive up to the first that fails; what was converted until then is the result. A
number that is printed and followed by a blank is read back. -/

namespace MilkyWay.Foundation

def isspace (c : Char) : Bool := c == ' ' || (9 ≤ c.toNat && c.toNat ≤ 13)

inductive Directive where
  | blank
  | literal (c : Char)
  | integer
  | double
deriving DecidableEq

def format : List Char → List Directive
  | '%' :: 'u' :: f => .integer :: format f
  | '%' :: 'd' :: f => .integer :: format f
  | '%' :: 'l' :: 'f' :: f => .double :: format f
  | c :: f => (if isspace c then .blank else .literal c) :: format f
  | [] => []

inductive Scanned (R : Type*) where
  | integer (z : ℤ)
  | double (x : R)

/-- The values that are read from words. -/
structure FloatLib (R : Type*) where
  INFINITY : R
  NAN : R

/-! ## Numbers -/

def scanSign : List Char → Bool × List Char
  | '-' :: s => (true, s)
  | '+' :: s => (false, s)
  | s => (false, s)

def scanInteger (s : List Char) : Option (ℤ × List Char) :=
  let (negative, s) := scanSign s
  let digits := s.takeWhile Char.isDigit
  if digits = [] then none
  else
    let n : ℤ := Nat.ofDigitChars 10 digits 0
    some (if negative then -n else n, s.dropWhile Char.isDigit)

structure Radix where
  base : ℕ
  isDigit : Char → Bool
  digit : Char → ℕ
  mark : Char
  scale : ℕ

def Radix.value (r : Radix) (digits : List Char) : ℕ :=
  digits.foldl (fun v c => r.base * v + r.digit c) 0

def decimal : Radix := ⟨10, Char.isDigit, fun c => c.toNat - '0'.toNat, 'e', 10⟩

def hexadecimal : Radix where
  base := 16
  isDigit c := c.isDigit || ('a' ≤ c.toLower && c.toLower ≤ 'f')
  digit c := if c.isDigit then c.toNat - '0'.toNat else c.toLower.toNat - 'a'.toNat + 10
  mark := 'p'
  scale := 2

section
variable {R : Type*} [Field R]

def Radix.scan (r : Radix) (s : List Char) : Option (R × List Char) :=
  let whole := s.takeWhile r.isDigit
  let s := s.dropWhile r.isDigit
  let fraction := match s with
    | '.' :: s => s.takeWhile r.isDigit
    | _ => []
  let s := match s with
    | '.' :: s => s.dropWhile r.isDigit
    | s => s
  if whole ++ fraction = [] then none
  else
    let x : R := (r.value (whole ++ fraction) : R) / (r.base : R) ^ fraction.length
    match s with
    | [] => some (x, [])
    | c :: rest =>
        if c.toLower = r.mark then
          (scanInteger rest).map fun (e, rest) => (x * (r.scale : R) ^ e, rest)
        else some (x, c :: rest)

def scanWord (word s : List Char) : Option (List Char) :=
  if (s.take word.length).map Char.toLower = word then some (s.drop word.length) else none

variable (lib : FloatLib R)

def scanMagnitude (s : List Char) : Option (R × List Char) :=
  match scanWord "inf".toList s with
  | some s =>
      if s.head?.map Char.toLower = some 'i' then
        (scanWord "inity".toList s).map fun s => (lib.INFINITY, s)
      else some (lib.INFINITY, s)
  | none =>
      match scanWord "nan".toList s with
      | some ('(' :: s) =>
          match s.dropWhile fun c => c.isAlphanum || c == '_' with
          | ')' :: s => some (lib.NAN, s)
          | _ => none
      | some s => some (lib.NAN, s)
      | none =>
          match scanWord "0x".toList s with
          | some s => hexadecimal.scan s
          | none => decimal.scan s

def scanDouble (s : List Char) : Option (R × List Char) :=
  let (negative, s) := scanSign s
  (scanMagnitude lib s).map fun (x, s) => (if negative then -x else x, s)

def sscanf : List Directive → List Char → List (Scanned R)
  | [], _ => []
  | .blank :: f, s => sscanf f (s.dropWhile isspace)
  | .literal c :: f, s =>
      match s with
      | [] => []
      | c' :: s => if c = c' then sscanf f s else []
  | .integer :: f, s =>
      match scanInteger (s.dropWhile isspace) with
      | none => []
      | some (z, s) => .integer z :: sscanf f s
  | .double :: f, s =>
      match scanDouble lib (s.dropWhile isspace) with
      | none => []
      | some (x, s) => .double x :: sscanf f s

end

/-! ## Printing -/

def zeroPad (width n : ℕ) : List Char := (Nat.toDigits 10 n).leftpad width '0'

section
variable {R : Type*} [Field R] [LinearOrder R] [IsStrictOrderedRing R] [FloorRing R]

open Numerals in
def roundEven (x : R) : ℕ :=
  let n := ⌊x⌋₊
  if x - n < 1 / 2 then n
  else if 1 / 2 < x - n then n + 1
  else if n % 2 = 0 then n else n + 1

def fixedPoint (x : R) : ℕ := roundEven (|x| * 10 ^ 15)

def printFixed (x : R) : List Char :=
  ((if x < 0 then ['-'] else []) ++ Nat.toDigits 10 (fixedPoint x / 10 ^ 15) ++
    '.' :: zeroPad 15 (fixedPoint x % 10 ^ 15)).leftpad 12 ' '

def printedValue (x : R) : R :=
  if x < 0 then -((fixedPoint x : R) / 10 ^ 15) else (fixedPoint x : R) / 10 ^ 15

end

/-! ## Reading back -/

def BlankAhead (s : List Char) : Prop := ∀ c ∈ s.head?, isspace c = true

theorem toLower_eq {c : Char} (below : c.toNat < 65) : c.toLower = c := by
  unfold Char.toLower
  rw [dif_neg]
  rintro ⟨low, -⟩
  have letter : 65 ≤ c.toNat := low
  omega

theorem toNat_of_digit {c : Char} (digit : c.isDigit = true) : 48 ≤ c.toNat ∧ c.toNat ≤ 57 := by
  rw [Char.isDigit, Bool.and_eq_true, decide_eq_true_eq, decide_eq_true_eq] at digit
  exact digit

theorem toNat_of_blank {c : Char} (blank : isspace c = true) : c.toNat ≤ 32 := by
  simp only [isspace, Bool.or_eq_true, beq_iff_eq, Bool.and_eq_true, decide_eq_true_eq] at blank
  rcases blank with rfl | ⟨-, high⟩
  · decide
  · omega

theorem isDigit_of_blank {c : Char} (blank : isspace c = true) : c.isDigit = false := by
  refine Bool.eq_false_iff.mpr ?_
  intro digit
  have low := (toNat_of_digit digit).1
  have high := toNat_of_blank blank
  omega

theorem takeWhile_ahead {p : Char → Bool} {digits rest : List Char} (all : ∀ c ∈ digits, p c = true)
    (ends : ∀ c ∈ rest.head?, p c = false) :
    (digits ++ rest).takeWhile p = digits ∧ (digits ++ rest).dropWhile p = rest := by
  induction digits with
  | nil =>
      cases rest with
      | nil => exact ⟨rfl, rfl⟩
      | cons c rest =>
          have stops : ¬p c = true := Bool.eq_false_iff.mp (ends c rfl)
          exact ⟨List.takeWhile_cons_of_neg stops, List.dropWhile_cons_of_neg stops⟩
  | cons c digits ih =>
      have goes : p c = true := all c List.mem_cons_self
      obtain ⟨take, drop⟩ := ih fun c mem => all c (List.mem_cons_of_mem _ mem)
      rw [List.cons_append, List.takeWhile_cons_of_pos goes, List.dropWhile_cons_of_pos goes]
      exact ⟨congrArg (c :: ·) take, drop⟩

theorem toDigits_isDigit (n : ℕ) : ∀ c ∈ Nat.toDigits 10 n, c.isDigit = true :=
  fun _ mem => Nat.isDigit_of_mem_toDigits (by decide) (by decide) mem

theorem toDigits_cons (n : ℕ) : ∃ c digits, Nat.toDigits 10 n = c :: digits ∧ c.isDigit = true := by
  obtain ⟨c, digits, eq⟩ := List.exists_cons_of_ne_nil (@Nat.toDigits_ne_nil n 10)
  exact ⟨c, digits, eq, toDigits_isDigit n c (by rw [eq]; exact List.mem_cons_self)⟩

theorem scanWord_head {w c : Char} {word s : List Char} (ne : c.toLower ≠ w) :
    scanWord (w :: word) (c :: s) = none := by
  refine if_neg ?_
  intro same
  exact ne (List.cons.inj same).1

theorem scanWord_second {v w c d : Char} {word s : List Char} (ne : d.toLower ≠ w) :
    scanWord (v :: w :: word) (c :: d :: s) = none := by
  refine if_neg ?_
  intro same
  exact ne (List.cons.inj (List.cons.inj same).2).1

theorem scanSign_digit {c : Char} (digit : c.isDigit = true) (s : List Char) :
    scanSign (c :: s) = (false, c :: s) := by
  unfold scanSign
  split
  · rename_i eq
    obtain ⟨rfl, -⟩ := List.cons.inj eq
    cases digit
  · rename_i eq
    obtain ⟨rfl, -⟩ := List.cons.inj eq
    cases digit
  · rfl

theorem scanInteger_toDigits (n : ℕ) {rest : List Char}
    (ends : ∀ c ∈ rest.head?, c.isDigit = false) :
    scanInteger (Nat.toDigits 10 n ++ rest) = some ((n : ℤ), rest) := by
  obtain ⟨c, digits, eq, digit⟩ := toDigits_cons n
  obtain ⟨take, drop⟩ := takeWhile_ahead (toDigits_isDigit n) ends
  have sign : scanSign (Nat.toDigits 10 n ++ rest) = (false, Nat.toDigits 10 n ++ rest) := by
    rw [eq]
    exact scanSign_digit digit _
  unfold scanInteger
  simp only [sign, take, drop, if_neg (@Nat.toDigits_ne_nil n 10), Nat.ofDigitChars_ten_toDigits,
    Bool.false_eq_true, if_false]

theorem zeroPad_isDigit (width n : ℕ) : ∀ c ∈ zeroPad width n, c.isDigit = true := by
  intro c mem
  rw [zeroPad, List.leftpad, List.mem_append] at mem
  rcases mem with zero | digit
  · rw [List.eq_of_mem_replicate zero]
    rfl
  · exact toDigits_isDigit n c digit

theorem length_zeroPad {width n : ℕ} (positive : 0 < width) (lt : n < 10 ^ width) :
    (zeroPad width n).length = width := by
  rw [zeroPad, List.length_leftpad]
  exact max_eq_left ((Nat.length_toDigits_le_iff (by decide) positive).mpr lt)

theorem ofDigitChars_zeroPad (width n : ℕ) : Nat.ofDigitChars 10 (zeroPad width n) 0 = n := by
  rw [zeroPad, List.leftpad, Nat.ofDigitChars_append, Nat.ofDigitChars_replicate_zero, Nat.mul_zero,
    Nat.ofDigitChars_ten_toDigits]

theorem decimal_value (n : ℕ) :
    decimal.value (Nat.toDigits 10 (n / 10 ^ 15) ++ zeroPad 15 (n % 10 ^ 15)) = n := by
  change Nat.ofDigitChars 10 _ 0 = n
  rw [Nat.ofDigitChars_append, Nat.ofDigitChars_ten_toDigits,
    Nat.ofDigitChars_eq_ofDigitChars_zero, ofDigitChars_zeroPad,
    length_zeroPad (by decide) (Nat.mod_lt _ (by decide))]
  exact Nat.div_add_mod n (10 ^ 15)

section
variable {R : Type*} [Field R] [LinearOrder R] [IsStrictOrderedRing R] [FloorRing R]

omit [LinearOrder R] [IsStrictOrderedRing R] [FloorRing R] in
theorem Radix.scan_fraction (r : Radix) {whole fraction rest : List Char}
    (digits : ∀ c ∈ whole, r.isDigit c = true) (digits' : ∀ c ∈ fraction, r.isDigit c = true)
    (point : r.isDigit '.' = false) (some_digit : whole ++ fraction ≠ [])
    (ends : ∀ c ∈ rest.head?, r.isDigit c = false ∧ c.toLower ≠ r.mark) :
    (r.scan (whole ++ '.' :: (fraction ++ rest)) : Option (R × List Char)) =
      some ((r.value (whole ++ fraction) : R) / (r.base : R) ^ fraction.length, rest) := by
  have stops : ∀ c ∈ ('.' :: (fraction ++ rest)).head?, r.isDigit c = false := by
    rintro c ⟨⟩
    exact point
  obtain ⟨take, drop⟩ := takeWhile_ahead digits stops
  obtain ⟨take', drop'⟩ := takeWhile_ahead digits' fun c mem => (ends c mem).1
  unfold Radix.scan
  simp only [take, drop, take', drop', if_neg some_digit]
  cases rest with
  | nil => rfl
  | cons c rest => exact if_neg (ends c rfl).2

omit [LinearOrder R] [IsStrictOrderedRing R] [FloorRing R] in
theorem decimal_scan (n : ℕ) {rest : List Char} (blank : BlankAhead rest) :
    (decimal.scan (Nat.toDigits 10 (n / 10 ^ 15) ++ '.' :: (zeroPad 15 (n % 10 ^ 15) ++ rest)) :
      Option (R × List Char)) = some ((n : R) / 10 ^ 15, rest) := by
  have length : (zeroPad 15 (n % 10 ^ 15)).length = 15 :=
    length_zeroPad (by decide) (Nat.mod_lt _ (by decide))
  rw [decimal.scan_fraction (toDigits_isDigit _) (zeroPad_isDigit _ _) rfl
    (fun none => Nat.toDigits_ne_nil (List.append_eq_nil_iff.mp none).1) ?_, decimal_value, length]
  · exact congrArg (fun base : R => some ((n : R) / base ^ 15, rest)) Nat.cast_ofNat
  · intro c mem
    refine ⟨isDigit_of_blank (blank c mem), ?_⟩
    intro mark
    have below := toNat_of_blank (blank c mem)
    rw [toLower_eq (by omega)] at mark
    subst mark
    cases blank _ mem

omit [LinearOrder R] [IsStrictOrderedRing R] [FloorRing R] in
theorem scanMagnitude_fraction (lib : FloatLib R) (n : ℕ) (s : List Char) :
    scanMagnitude lib (Nat.toDigits 10 n ++ '.' :: s) =
      decimal.scan (Nat.toDigits 10 n ++ '.' :: s) := by
  obtain ⟨c, digits, eq, digit⟩ := toDigits_cons n
  have all := toDigits_isDigit n
  obtain ⟨d, rest, next, before⟩ : ∃ d rest, digits ++ '.' :: s = d :: rest ∧ d.toNat < 65 := by
    cases digits with
    | nil => exact ⟨'.', s, rfl, by decide⟩
    | cons d digits =>
        have second : d.isDigit = true := all d (by simp [eq])
        have high := (toNat_of_digit second).2
        exact ⟨d, digits ++ '.' :: s, rfl, by omega⟩
  have high := (toNat_of_digit digit).2
  have first : c.toLower = c := toLower_eq (by omega)
  have inf : scanWord "inf".toList (c :: d :: rest) = none :=
    scanWord_head (by rw [first]; rintro rfl; cases digit)
  have nan : scanWord "nan".toList (c :: d :: rest) = none :=
    scanWord_head (by rw [first]; rintro rfl; cases digit)
  have hex : scanWord "0x".toList (c :: d :: rest) = none :=
    scanWord_second (by rw [toLower_eq before]; rintro rfl; exact absurd before (by decide))
  rw [eq, List.cons_append, next, scanMagnitude, inf]
  dsimp only
  rw [nan]
  dsimp only
  rw [hex]

omit [IsStrictOrderedRing R] in
theorem scanDouble_printFixed (lib : FloatLib R) (x : R) {rest : List Char}
    (blank : BlankAhead rest) :
    scanDouble lib ((printFixed x ++ rest).dropWhile isspace) = some (printedValue x, rest) := by
  obtain ⟨c, digits, eq, digit⟩ := toDigits_cons (fixedPoint x / 10 ^ 15)
  have low := (toNat_of_digit digit).1
  have length : (zeroPad 15 (fixedPoint x % 10 ^ 15)).length = 15 :=
    length_zeroPad (by decide) (Nat.mod_lt _ (by decide))
  have scanned : scanMagnitude lib (Nat.toDigits 10 (fixedPoint x / 10 ^ 15) ++
      '.' :: (zeroPad 15 (fixedPoint x % 10 ^ 15) ++ rest)) =
        some ((fixedPoint x : R) / 10 ^ 15, rest) := by
    rw [scanMagnitude_fraction, decimal_scan _ blank]
  have printed : printFixed x ++ rest = (if x < 0 then ['-'] else []) ++
      (Nat.toDigits 10 (fixedPoint x / 10 ^ 15) ++
        '.' :: (zeroPad 15 (fixedPoint x % 10 ^ 15) ++ rest)) := by
    rw [printFixed, List.leftpad, Nat.sub_eq_zero_of_le]
    · simp
    · simp only [List.length_append, List.length_cons, length]
      omega
  rw [printed, printedValue]
  by_cases negative : x < 0
  · simp only [if_pos negative, List.cons_append, List.nil_append]
    rw [List.dropWhile_cons_of_neg (by decide)]
    simp only [scanDouble, scanSign, scanned]
    rfl
  · simp only [if_neg negative, List.nil_append]
    have no_blank : ¬isspace c = true := fun blank => by
      have high := toNat_of_blank blank
      omega
    rw [eq] at scanned ⊢
    rw [List.cons_append, List.dropWhile_cons_of_neg no_blank]
    simp only [scanDouble, scanSign_digit digit]
    rw [← List.cons_append, scanned]
    rfl

omit [LinearOrder R] [IsStrictOrderedRing R] [FloorRing R] in
theorem sscanf_blank (lib : FloatLib R) {c : Char} (visible : isspace c = false)
    (f : List Directive) (s : List Char) :
    sscanf lib (.blank :: f) (c :: s) = sscanf lib f (c :: s) := by
  rw [sscanf, List.dropWhile_cons_of_neg (Bool.eq_false_iff.mp visible)]

omit [LinearOrder R] [IsStrictOrderedRing R] [FloorRing R] in
theorem sscanf_word (lib : FloatLib R) (word : List Char) (f : List Directive) (s : List Char) :
    sscanf lib (word.map .literal ++ f) (word ++ s) = sscanf lib f s := by
  induction word with
  | nil => rfl
  | cons c word ih => exact (if_pos rfl).trans ih

omit [LinearOrder R] [IsStrictOrderedRing R] [FloorRing R] in
theorem sscanf_toDigits (lib : FloatLib R) (n : ℕ) {rest : List Char}
    (ends : ∀ c ∈ rest.head?, c.isDigit = false) (f : List Directive) :
    sscanf lib (.integer :: f) (Nat.toDigits 10 n ++ rest) = .integer n :: sscanf lib f rest := by
  obtain ⟨c, digits, eq, digit⟩ := toDigits_cons n
  have visible : ¬isspace c = true := fun blank => by
    have low := (toNat_of_digit digit).1
    have high := toNat_of_blank blank
    omega
  have start : (Nat.toDigits 10 n ++ rest).dropWhile isspace = Nat.toDigits 10 n ++ rest := by
    rw [eq, List.cons_append, List.dropWhile_cons_of_neg visible]
  rw [sscanf, start, scanInteger_toDigits n ends]

omit [IsStrictOrderedRing R] in
theorem sscanf_printFixed (lib : FloatLib R) (x : R) {rest : List Char} (blank : BlankAhead rest)
    (f : List Directive) :
    sscanf lib (.blank :: .double :: f) (' ' :: (printFixed x ++ rest)) =
      .double (printedValue x) :: sscanf lib f rest := by
  have space : (' ' :: (printFixed x ++ rest)).dropWhile isspace =
      (printFixed x ++ rest).dropWhile isspace := List.dropWhile_cons_of_pos rfl
  rw [sscanf, space, sscanf, List.dropWhile_idempotent, scanDouble_printFixed lib x blank]

theorem toDigits_printable (n : ℕ) : ∀ c ∈ Nat.toDigits 10 n, 32 ≤ c.toNat := by
  intro c mem
  have low := (toNat_of_digit (toDigits_isDigit n c mem)).1
  omega

omit [IsStrictOrderedRing R] in
theorem printFixed_printable (x : R) : ∀ c ∈ printFixed x, 32 ≤ c.toNat := by
  intro c mem
  simp only [printFixed, List.leftpad, List.mem_append, List.mem_cons] at mem
  rcases mem with pad | (sign | digit) | rfl | digit
  · rw [List.eq_of_mem_replicate pad]
    decide
  · split at sign
    · rw [List.mem_singleton.mp sign]
      decide
    · cases sign
  · exact toDigits_printable _ c digit
  · decide
  · have low := (toNat_of_digit (zeroPad_isDigit _ _ c digit)).1
    omega

theorem roundEven_near {x : R} (nonneg : 0 ≤ x) : |(roundEven x : R) - x| ≤ 1 / 2 := by
  have below := Nat.floor_le nonneg
  have above := Nat.lt_floor_add_one x
  have next : |((⌊x⌋₊ + 1 : ℕ) : R) - x| = ⌊x⌋₊ + 1 - x := by
    push_cast
    exact abs_of_nonneg (by linarith)
  have this_ : |(⌊x⌋₊ : R) - x| = x - ⌊x⌋₊ := by
    rw [abs_sub_comm]
    exact abs_of_nonneg (by linarith)
  unfold roundEven
  dsimp only
  split
  · rw [this_]
    linarith
  · split
    · rw [next]
      linarith
    · split
      · rw [this_]
        linarith
      · rw [next]
        linarith

theorem printedValue_near (x : R) : |printedValue x - x| ≤ 1 / (2 * 10 ^ 15) := by
  have near := roundEven_near (x := |x| * 10 ^ 15) (by positivity)
  have size : |(fixedPoint x : R) / 10 ^ 15 - (|x|)| ≤ 1 / (2 * 10 ^ 15) := by
    have scaled : (fixedPoint x : R) / 10 ^ 15 - |x| =
        ((fixedPoint x : R) - |x| * 10 ^ 15) / 10 ^ 15 := by
      field_simp
    calc |(fixedPoint x : R) / 10 ^ 15 - (|x|)|
        = |(fixedPoint x : R) - |x| * 10 ^ 15| / 10 ^ 15 := by
          rw [scaled, abs_div, abs_of_pos (by positivity : (0 : R) < 10 ^ 15)]
      _ ≤ 1 / 2 / 10 ^ 15 := div_le_div_of_nonneg_right near (by positivity)
      _ = 1 / (2 * 10 ^ 15) := div_div 1 2 _
  unfold printedValue
  split
  · rename_i negative
    rw [abs_of_neg negative] at size
    rw [← abs_neg]
    refine le_of_eq_of_le (congrArg _ ?_) size
    ring
  · rename_i nonneg
    rwa [abs_of_nonneg (not_lt.mp nonneg)] at size

end

end MilkyWay.Foundation
