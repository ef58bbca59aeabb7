import Mathlib.Algebra.Order.Group.Nat
import Mathlib.Data.List.Basic
import Mathlib.Tactic.Linarith

/-! Data of fixed size as bytes, and pointers into a buffer. A pointer that reads is the
rest of the buffer, one that writes also has what is before it; both fail at the end. -/

namespace MilkyWay.Foundation

abbrev Bytes := List UInt8

structure Image {α β : Type*} (view : α → β) where
  size : ℕ
  fits : α → Prop
  encode : α → Bytes
  decode : Bytes → β
  length_encode : ∀ a, (encode a).length = size
  decode_encode : ∀ a, fits a → decode (encode a) = view a

abbrev Codec (α : Type*) := Image (id : α → α)

namespace Image

variable {α β : Type*} {view : α → β} (C : Image view)

def encodeArray (l : List α) : Bytes := l.flatMap C.encode

def decodeArray : ℕ → Bytes → List β
  | 0, _ => []
  | n + 1, bytes => C.decode (bytes.take C.size) :: decodeArray n (bytes.drop C.size)

@[simp] theorem length_encodeArray (l : List α) : (C.encodeArray l).length = l.length * C.size := by
  induction l with
  | nil => simp [encodeArray]
  | cons a l ih =>
      rw [encodeArray, List.flatMap_cons, List.length_append, C.length_encode, List.length_cons,
        Nat.succ_mul, Nat.add_comm]
      exact congrArg (· + C.size) ih

@[simp] theorem length_decodeArray (n : ℕ) (bytes : Bytes) :
    (C.decodeArray n bytes).length = n := by
  induction n generalizing bytes with
  | zero => rfl
  | succ n ih => rw [decodeArray, List.length_cons, ih]

theorem decodeArray_encodeArray (l : List α) (fits : ∀ a ∈ l, C.fits a) :
    C.decodeArray l.length (C.encodeArray l) = l.map view := by
  induction l with
  | nil => rfl
  | cons a l ih =>
      have rest_fit : ∀ b ∈ l, C.fits b := fun b hb => fits b (List.mem_cons_of_mem a hb)
      have first : (C.encodeArray (a :: l)).take C.size = C.encode a := by
        rw [encodeArray, List.flatMap_cons, ← C.length_encode a, List.take_left]
      have rest : (C.encodeArray (a :: l)).drop C.size = C.encodeArray l := by
        rw [encodeArray, List.flatMap_cons, ← C.length_encode a, List.drop_left]
        rfl
      rw [List.length_cons, decodeArray, first, rest, ih rest_fit,
        C.decode_encode a (fits a List.mem_cons_self), List.map_cons]

end Image

/-- The image of a type with one value that fits. -/
def Image.only {α β : Type*} {view : α → β} (size : ℕ) (a : α) : Image view where
  size
  fits x := x = a
  encode _ := List.replicate size 0
  decode _ := view a
  length_encode _ := List.length_replicate
  decode_encode _ h := congrArg view h.symm

/-- The places at which a value stands in a list. -/
def places {α : Type*} [DecidableEq α] (l : List α) (a : α) : Bytes :=
  l.map fun b => if b = a then 1 else 0

theorem places_inj {α : Type*} [DecidableEq α] {l : List α} {a b : α} (h : a ∈ l)
    (same : places l b = places l a) : b = a := by
  have at_ := List.map_inj_left.mp same a h
  rw [if_pos rfl] at at_
  split at at_
  · rename_i place
    exact place.symm
  · exact absurd at_ (by decide)

def Image.table {α β : Type*} [DecidableEq α] {view : α → β} (other : β) (l : List α) :
    Image view where
  size := l.length
  fits a := a ∈ l
  encode := places l
  decode bytes := (l.find? fun a => places l a == bytes).elim other view
  length_encode _ := List.length_map _
  decode_encode a h := by
    cases first : l.find? fun b => places l b == places l a with
    | none => exact absurd BEq.rfl (List.find?_eq_none.mp first a h)
    | some b =>
        have same : (places l b == places l a) = true :=
          List.find?_some (p := fun b => places l b == places l a) first
        rw [places_inj h (eq_of_beq same)]
        rfl

def get (n : ℕ) (p : Bytes) : Option (Bytes × Bytes) :=
  if n ≤ p.length then some (p.take n, p.drop n) else none

def put (p : Bytes × Bytes) (bytes : Bytes) : Option (Bytes × Bytes) :=
  if bytes.length ≤ p.2.length then some (p.1 ++ bytes, p.2.drop bytes.length) else none

theorem get_append (bytes p : Bytes) : get bytes.length (bytes ++ p) = some (bytes, p) := by
  rw [get, if_pos (by rw [List.length_append]; exact Nat.le_add_right _ _), List.take_left,
    List.drop_left]

theorem get_eq_some {n : ℕ} {p bytes p' : Bytes} (h : get n p = some (bytes, p')) :
    p = bytes ++ p' ∧ bytes.length = n := by
  unfold get at h
  split at h
  · rename_i le
    cases h
    exact ⟨(List.take_append_drop n p).symm, List.length_take_of_le le⟩
  · cases h

namespace Image

variable {α β : Type*} {view : α → β} (C : Image view)

theorem get_encode (a : α) (p : Bytes) :
    get C.size (C.encode a ++ p) = some (C.encode a, p) := by
  rw [← C.length_encode a]
  exact get_append _ _

theorem get_encodeArray (l : List α) (p : Bytes) :
    get (l.length * C.size) (C.encodeArray l ++ p) = some (C.encodeArray l, p) := by
  rw [← C.length_encodeArray l]
  exact get_append _ _

end Image

theorem foldlM_put (pieces : List Bytes) (done rest : Bytes) :
    pieces.foldlM put (done, rest) = if pieces.flatten.length ≤ rest.length then
      some (done ++ pieces.flatten, rest.drop pieces.flatten.length) else none := by
  induction pieces generalizing done rest with
  | nil => simp
  | cons bytes pieces ih =>
      rw [List.foldlM_cons, put, List.flatten_cons, List.length_append]
      by_cases fits : bytes.length ≤ rest.length
      · simp only [fits, if_true, Option.bind_eq_bind, Option.bind_some, ih, List.length_drop]
        by_cases all : bytes.length + pieces.flatten.length ≤ rest.length
        · rw [if_pos all, if_pos (by omega), List.append_assoc, List.drop_drop]
        · rw [if_neg all, if_neg (by omega)]
      · rw [if_neg fits, if_neg (by omega)]
        rfl

/-- Compare with a string up to its end; a string that ends before that is not read
further, and one that does not fails. -/
def strncmp : Bytes → Bytes → Option Bool
  | _, [] => some true
  | [], _ => none
  | a :: p, b :: s => if a ≠ b then some false else if a = 0 then some true else strncmp p s

theorem strncmp_append (s p : Bytes) : strncmp (s ++ p) s = some true := by
  induction s with
  | nil => cases p <;> rfl
  | cons a s ih =>
      rw [List.cons_append, strncmp, if_neg (not_not.mpr rfl), ih, ite_self]

end MilkyWay.Foundation
