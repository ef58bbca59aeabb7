import MilkyWay.Foundation.Buffer

/-! Files that are read in turn over what is in memory. What a file lacks stays as it was. -/

namespace MilkyWay.Foundation

namespace Image

variable {α : Type*} (C : Codec α)

def fread (old : α) (f : Bytes) : α × Bytes :=
  (C.decode (f.take C.size ++ (C.encode old).drop f.length), f.drop C.size)

def freadArray : List α → Bytes → List α × Bytes
  | [], f => ([], f)
  | old :: olds, f =>
    let (x, f) := C.fread old f
    let (xs, f) := freadArray olds f
    (x :: xs, f)

theorem fread_encode {x : α} (fits : C.fits x) (old : α) (f : Bytes) :
    C.fread old (C.encode x ++ f) = (x, f) := by
  have length := C.length_encode x
  have past : (C.encode old).drop (C.encode x ++ f).length = [] := by
    rw [List.drop_eq_nil_iff, C.length_encode, List.length_append, length]
    exact Nat.le_add_right _ _
  rw [fread, past, List.append_nil, ← length, List.take_left, List.drop_left,
    C.decode_encode x fits]
  rfl

theorem freadArray_encodeArray {xs : List α} (fits : ∀ x ∈ xs, C.fits x) {olds : List α}
    (length : olds.length = xs.length) (f : Bytes) :
    C.freadArray olds (C.encodeArray xs ++ f) = (xs, f) := by
  induction xs generalizing olds with
  | nil =>
      obtain rfl := List.length_eq_zero_iff.mp length
      rfl
  | cons x xs ih =>
      obtain ⟨old, olds, rfl⟩ := List.exists_cons_of_length_eq_add_one length
      rw [encodeArray, List.flatMap_cons, List.append_assoc, freadArray,
        C.fread_encode (fits x List.mem_cons_self)]
      have rest := ih (fun y mem => fits y (List.mem_cons_of_mem x mem)) (Nat.succ.inj length)
      rw [encodeArray] at rest
      dsimp only
      rw [rest]

@[simp] theorem fread_rest (old : α) (f : Bytes) : (C.fread old f).2 = f.drop C.size := rfl

theorem freadArray_rest (olds : List α) (f : Bytes) :
    (C.freadArray olds f).2 = f.drop (olds.length * C.size) ∧
      (C.freadArray olds f).1.length = olds.length := by
  induction olds generalizing f with
  | nil => simp [freadArray]
  | cons old olds ih =>
      obtain ⟨rest, length⟩ := ih (f.drop C.size)
      refine ⟨?_, congrArg (· + 1) length⟩
      rw [List.length_cons, Nat.succ_mul, Nat.add_comm, ← List.drop_drop]
      exact rest

end Image

def freadBytes (n : ℕ) (old f : Bytes) : Bytes × Bytes :=
  (f.take n ++ old.drop (min n f.length), f.drop n)

theorem strncmp_iff {s p : Bytes} (nonzero : ∀ a ∈ s, a ≠ 0) :
    strncmp p (s ++ [0]) = some true ↔ s ++ [0] <+: p := by
  induction s generalizing p with
  | nil =>
      cases p with
      | nil => simp [strncmp]
      | cons a p =>
          rw [List.nil_append, strncmp, List.cons_prefix_cons]
          by_cases zero : a = 0
          · simp [zero]
          · simp [zero, Ne.symm zero]
  | cons b s ih =>
      obtain ⟨this, later⟩ := List.forall_mem_cons.mp nonzero
      cases p with
      | nil => simp [strncmp]
      | cons a p =>
          rw [List.cons_append, strncmp, List.cons_prefix_cons]
          by_cases same : a = b
          · subst same
            rw [if_neg (not_not.mpr rfl), if_neg this, ih later, and_iff_right rfl]
          · rw [if_pos same]
            exact iff_of_false (by simp) fun both => absurd both.1.symm same

end MilkyWay.Foundation
