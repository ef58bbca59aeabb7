import Mathlib.Algebra.Order.Group.Nat
import Mathlib.Data.List.Basic
import Mathlib.Data.List.Count

/-! Texts by lines, each with the newline that ends it, and lines by the pieces in which they
come through a buffer. -/

namespace MilkyWay.Foundation

def textLines : List Char → List (List Char)
  | [] => []
  | c :: text =>
      if c = '\n' then [c] :: textLines text
      else match textLines text with
        | [] => [[c]]
        | line :: lines => (c :: line) :: lines

theorem textLines_eq_nil {text : List Char} : textLines text = [] ↔ text = [] := by
  cases text with
  | nil => exact ⟨fun _ => rfl, fun _ => rfl⟩
  | cons c text =>
      refine iff_of_false ?_ nofun
      rw [textLines]
      split
      · nofun
      · split <;> nofun

@[simp] theorem flatten_textLines (text : List Char) : (textLines text).flatten = text := by
  induction text with
  | nil => rfl
  | cons c text ih =>
      rw [textLines]
      split
      · rw [List.flatten_cons, ih]
        rfl
      · cases lines : textLines text with
        | nil =>
            rw [lines] at ih
            rw [← ih]
            rfl
        | cons line rest =>
            rw [lines] at ih
            rw [← ih]
            rfl

theorem ne_nil_of_mem_textLines {text line : List Char} (mem : line ∈ textLines text) :
    line ≠ [] := by
  induction text generalizing line with
  | nil => cases mem
  | cons c text ih =>
      rw [textLines] at mem
      split at mem
      · obtain rfl | mem := List.mem_cons.mp mem
        · nofun
        · exact ih mem
      · split at mem
        · rw [List.mem_singleton.mp mem]
          nofun
        · rename_i first lines split_
          obtain rfl | mem := List.mem_cons.mp mem
          · nofun
          · exact ih (by rw [split_]; exact List.mem_cons_of_mem _ mem)

theorem textLines_line {body : List Char} (inner : '\n' ∉ body) (text : List Char) :
    textLines (body ++ '\n' :: text) = (body ++ ['\n']) :: textLines text := by
  induction body with
  | nil => rw [List.nil_append, textLines, if_pos rfl, List.nil_append]
  | cons c body ih =>
      rw [List.mem_cons, not_or] at inner
      rw [List.cons_append, textLines, if_neg (Ne.symm inner.1), ih inner.2]
      rfl

theorem textLines_append {body : List Char} (inner : '\n' ∉ body) (some : body ≠ [])
    (text : List Char) : textLines (body ++ text) = match textLines text with
      | [] => [body]
      | line :: lines => (body ++ line) :: lines := by
  induction body with
  | nil => exact absurd rfl some
  | cons c body ih =>
      rw [List.mem_cons, not_or] at inner
      rw [List.cons_append, textLines, if_neg (Ne.symm inner.1)]
      by_cases last : body = []
      · subst last
        rfl
      · rw [ih inner.2 last]
        cases textLines text with
        | nil => rfl
        | cons line lines => rfl

theorem count_newline {text : List Char} (some : text ≠ []) :
    text.count '\n' + (if text.getLast? = .some '\n' then 0 else 1) =
      (textLines text).length := by
  induction text with
  | nil => exact absurd rfl some
  | cons c text ih =>
      by_cases last : text = []
      · subst last
        by_cases newline : c = '\n'
        · simp [textLines, newline]
        · simp [textLines, newline]
      · have rest := ih last
        have ending : (c :: text).getLast? = text.getLast? := by
          rw [List.getLast?_cons, List.getLast?_eq_some_getLast last, Option.getD_some]
        rw [ending, textLines]
        by_cases newline : c = '\n'
        · rw [if_pos newline, newline, List.count_cons_self, List.length_cons, ← rest]
          omega
        · rw [if_neg newline, List.count_cons_of_ne newline, rest]
          cases lines : textLines text with
          | nil => exact absurd (textLines_eq_nil.mp lines) last
          | cons line lines => rfl

/-! ## Pieces -/

def pieces (room : ℕ) (line : List Char) : List (List Char) :=
  if line.length ≤ room ∨ room = 0 then [line]
  else line.take room :: pieces room (line.drop room)
termination_by line.length
decreasing_by
  rename_i long
  rw [List.length_drop]
  omega

variable {room : ℕ} {line : List Char}

theorem pieces_short (short : line.length ≤ room) : pieces room line = [line] := by
  rw [pieces, if_pos (.inl short)]

theorem pieces_append {start rest : List Char} (full : start.length = room) (some : 0 < room)
    (more : rest ≠ []) : pieces room (start ++ rest) = start :: pieces room rest := by
  have long : ¬((start ++ rest).length ≤ room ∨ room = 0) := by
    have length := List.length_pos_iff.mpr more
    rw [List.length_append]
    omega
  rw [pieces, if_neg long, ← full, List.take_left, List.drop_left]

theorem pieces_cons (some : 0 < room) :
    ∃ piece, pieces room line = piece :: (pieces room line).tail ∧ piece.head? = line.head? ∧
      piece.length = min room line.length := by
  rw [pieces]
  split
  · rename_i short
    have le : line.length ≤ room := short.resolve_right some.ne'
    exact ⟨line, rfl, rfl, (Nat.min_eq_right le).symm⟩
  · refine ⟨line.take room, rfl, ?_, List.length_take⟩
    rw [List.head?_take, if_neg some.ne']

theorem length_pieces (some : 0 < room) (nonempty : line ≠ []) :
    (pieces room line).length ≤ line.length := by
  induction h : line.length using Nat.strong_induction_on generalizing line with
  | _ n ih =>
      subst h
      have positive := List.length_pos_iff.mpr nonempty
      rw [pieces]
      split
      · exact positive
      · rename_i long
        have rest : (line.drop room).length = line.length - room := List.length_drop
        have more : line.drop room ≠ [] := by
          intro none
          rw [none, List.length_nil] at rest
          omega
        have next := ih (line.drop room).length (by omega) more rfl
        rw [List.length_cons]
        omega

theorem length_flatMap_pieces (some : 0 < room) {lines : List (List Char)}
    (nonempty : ∀ line ∈ lines, line ≠ []) :
    (lines.flatMap (pieces room)).length ≤ lines.flatten.length := by
  induction lines with
  | nil => exact le_rfl
  | cons line lines ih =>
      have first := length_pieces some (nonempty line List.mem_cons_self)
      have rest := ih fun l mem => nonempty l (List.mem_cons_of_mem _ mem)
      rw [List.flatMap_cons, List.length_append, List.flatten_cons, List.length_append]
      omega

end MilkyWay.Foundation
