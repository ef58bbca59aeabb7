import MilkyWay.Foundation.Lines
import MilkyWay.NBody.ReadHistogram

/-! The bodies of a file with one of them on each line. The arrays are allocated by counting
newlines and taking away what looks like a comment or a blank line; they are filled from pieces
of 1023 characters, up to the first that has no room for more. The two agree for files as
`nbGenerateManualBodiescore_iff` says. -/

namespace MilkyWay.NBody

open Foundation

inductive ManualFault where
  | outOfRange
  | overflow
deriving DecidableEq

/-- How a number is made a short one and an unsigned one. -/
structure Casts (R : Type) where
  short : R → ℤ
  unsigned : R → ℕ

section
variable {R : Type} [Field R] (lib : FloatLib R) (casts : Casts R)

/-! ## The reader -/

def skipped (line : List Char) : Bool := line.head? == some '#' || line.head? == some '\n'

def bodyFields (line : List Char) : List (Scanned R) :=
  sscanf lib (format "%lf %lf %lf %lf %lf %lf %lf %lf %lf \n".toList) line

def rowOf (line : List Char) : Fin 9 → R := fun k => realField (bodyFields lib line) k

def bodyOf (row : Fin 9 → R) : Body R where
  pos := ⟨row 2, row 3, row 4⟩
  mass := row 8
  type := casts.short (row 0)
  id := casts.unsigned (row 1)
  vel := ⟨row 5, row 6, row 7⟩

/-- The arrays of `fsize` elements after the pieces of a file. The reading ends with a piece
that fills the buffer. -/
def readBodies (fsize : ℕ) :
    List (List Char) → ℕ → (ℕ → Fin 9 → R) → Except ManualFault (ℕ → Fin 9 → R)
  | [], _, rows => .ok rows
  | line :: lines, counter, rows =>
      if tooLong line then .ok rows
      else if skipped line then readBodies fsize lines counter rows
      else if fsize ≤ counter then .error .outOfRange
      else if 2 ^ 31 ≤ counter + 1 then .error .overflow
      else readBodies fsize lines (counter + 1) (Function.update rows counter (rowOf lib line))

/-- The bodies of a file that could be opened. No bodies and no fault is a reported error: a
file without newlines, or arrays that cannot be allocated. That a line is too long is noted but
not asked again. -/
def nbGenerateManualBodiescore (file : List Char) : Except ManualFault (Option (List (Body R))) :=
  let lineCount := file.count '\n'
  if lineCount = 0 then .ok none
  else
    let lines := fgetsLines 1024 1023 [] file
    let fsize := (lineCount + (2 ^ 64 - lines.countP skipped % 2 ^ 64)) % 2 ^ 64
    if 2 ^ 64 ≤ fsize * 8 then .ok none
    else
      match readBodies lib fsize lines 0 (fun _ _ => 0) with
      | .error fault => .error fault
      | .ok rows =>
          let nbody := fsize % 2 ^ 32
          if 2 ^ 31 ≤ nbody then .error .overflow
          else .ok (some ((List.range nbody).map fun i => bodyOf casts (rows i)))

/-! ## What is in a file -/

def dataLines (lines : List (List Char)) : List (List Char) :=
  lines.filter fun line => !skipped line

def bodyOfLine (line : List Char) : Option (Body R) :=
  if (bodyFields lib line).length = 9 then some (bodyOf casts (rowOf lib line)) else none

/-- An error is reported, or there is one body for each line of data, with its values. -/
def ReadsBodies (file : List Char) : Except ManualFault (Option (List (Body R))) → Prop
  | .error _ => False
  | .ok none => True
  | .ok (some bodies) =>
      bodies.map some = (dataLines (textLines file)).map (bodyOfLine lib casts)

def skips (lines : List (List Char)) : ℕ := (lines.flatMap (pieces 1023)).countP skipped

/-- No newlines, more to skip than newlines, or more left than can be allocated. -/
def ReportedFile (file : List Char) : Prop :=
  file.count '\n' = 0 ∨ file.count '\n' < skips (textLines file) ∨
    2 ^ 61 ≤ file.count '\n' - skips (textLines file)

def shortLine (line : List Char) : Bool := line.length ≤ 1022

/-- The file ends with a newline, no piece of a line but the first looks like a comment or a
blank line, each line of data has its nine numbers, and those from the first on that is too
long make the body of zeros. -/
structure Regular (file : List Char) : Prop where
  terminated : file.getLast? = some '\n'
  pieces : ∀ line ∈ textLines file, ∀ piece ∈ (pieces 1023 line).tail, skipped piece = false
  few : (dataLines (textLines file)).length < 2 ^ 31
  complete : ∀ line ∈ dataLines (textLines file), (bodyFields lib line).length = 9
  rest : ∀ line ∈ dataLines ((textLines file).dropWhile shortLine),
    bodyOf casts (rowOf lib line) = bodyOf casts (fun _ => 0)

end

/-! ## Lines and pieces -/

theorem takeWhile_text {text : List Char} (plain : '\x00' ∉ text) :
    text.takeWhile (· ≠ '\x00') = text := by
  rw [List.takeWhile_eq_self_iff]
  intro c mem
  refine decide_eq_true ?_
  rintro rfl
  exact plain mem

theorem fgetsLines_eq {size room : ℕ} {file start : List Char} (plain : '\x00' ∉ start ++ file)
    (inner : '\n' ∉ start) (full : start.length + room = size - 1) (some : 0 < room) :
    fgetsLines size room start.reverse file =
      (textLines (start ++ file)).flatMap (pieces (size - 1)) := by
  induction file generalizing room start with
  | nil =>
      rw [List.append_nil] at plain ⊢
      by_cases none : start = []
      · subst none
        rfl
      · have one : textLines start = [start] := by
          have alone := textLines_append inner none []
          rw [List.append_nil] at alone
          exact alone
        have last : fgetsLines size room start.reverse [] =
            [start.reverse.reverse.takeWhile (· ≠ '\x00')] := by
          rw [fgetsLines]
          intro empty
          exact none (List.reverse_eq_nil_iff.mp empty)
        rw [one, List.flatMap_singleton, pieces_short (by omega), last, List.reverse_reverse,
          takeWhile_text plain]
  | cons c file ih =>
      have before : '\x00' ∉ start ++ [c] := fun mem => plain (by
        obtain mem | mem := List.mem_append.mp mem
        · exact List.mem_append_left _ mem
        · rw [List.mem_singleton.mp mem]
          exact List.mem_append_right _ List.mem_cons_self)
      have after : '\x00' ∉ [] ++ file := fun mem =>
        plain (List.mem_append_right _ (List.mem_cons_of_mem _ mem))
      have piece : (c :: start.reverse).reverse.takeWhile (· ≠ '\x00') = start ++ [c] := by
        rw [List.reverse_cons, List.reverse_reverse, takeWhile_text before]
      have fresh := @ih (size - 1) [] after List.not_mem_nil (Nat.zero_add _) (by omega)
      rw [List.reverse_nil, List.nil_append] at fresh
      rw [fgetsLines]
      by_cases newline : c = '\n'
      · subst newline
        rw [if_pos (.inl rfl), piece, fresh, textLines_line inner, List.flatMap_cons,
          pieces_short (by rw [List.length_append, List.length_singleton]; omega)]
        rfl
      · have inner' : '\n' ∉ start ++ [c] := by
          simpa [Ne.symm newline] using inner
        have whole : start ++ c :: file = start ++ [c] ++ file := by simp
        by_cases last : room ≤ 1
        · rw [if_pos (.inr last), piece, fresh, whole, textLines_append inner' (by simp)]
          cases lines : textLines file with
          | nil =>
              rw [List.flatMap_singleton, pieces_short (by simp; omega)]
              rfl
          | cons line lines' =>
              have mem : line ∈ textLines file := by
                rw [lines]
                exact List.mem_cons_self
              have more : line ≠ [] := ne_nil_of_mem_textLines mem
              rw [List.flatMap_cons, List.flatMap_cons,
                pieces_append (by simp; omega) (by omega) more]
              rfl
        · rw [if_neg (not_or.mpr ⟨newline, last⟩), whole]
          have rest := @ih (room - 1) (start ++ [c]) (by rwa [← whole]) inner'
            (by simp; omega) (by omega)
          rw [List.reverse_append] at rest
          exact rest

theorem fgetsLines_file {file : List Char} (plain : '\x00' ∉ file) :
    fgetsLines 1024 1023 [] file = (textLines file).flatMap (pieces 1023) :=
  @fgetsLines_eq 1024 1023 file [] plain List.not_mem_nil rfl (by decide)

theorem skips_eq (lines : List (List Char)) :
    skips lines = lines.countP skipped +
      (lines.map fun line => (pieces 1023 line).tail.countP skipped).sum := by
  induction lines with
  | nil => rfl
  | cons line lines ih =>
      obtain ⟨piece, first, head, -⟩ := @pieces_cons 1023 line (by decide)
      have same : skipped piece = skipped line := by rw [skipped, skipped, head]
      unfold skips at ih ⊢
      rw [List.flatMap_cons, List.countP_append, ih, first, List.countP_cons, same,
        List.map_cons, List.sum_cons, List.countP_cons]
      omega

theorem length_dataLines (lines : List (List Char)) :
    (dataLines lines).length + lines.countP skipped = lines.length := by
  have whole := @List.length_eq_countP_add_countP _ skipped lines
  simp only [Bool.not_eq_true, Bool.decide_eq_false] at whole
  rw [whole, dataLines, ← List.countP_eq_length_filter, Nat.add_comm]

theorem recounted_eq_zero {lines : List (List Char)} :
    (lines.map fun line => (pieces 1023 line).tail.countP skipped).sum = 0 ↔
      ∀ line ∈ lines, ∀ piece ∈ (pieces 1023 line).tail, skipped piece = false := by
  simp [List.sum_eq_zero_iff, List.countP_eq_zero]

/-! ## The second reading -/

section
variable {R : Type} [Field R] {lib : FloatLib R}

def storeRows (lib : FloatLib R) (counter : ℕ) (rows : ℕ → Fin 9 → R) :
    List (List Char) → ℕ → Fin 9 → R
  | [] => rows
  | line :: lines =>
      storeRows lib (counter + 1) (Function.update rows counter (rowOf lib line)) lines

theorem storeRows_of_not_mem {counter i : ℕ} {rows : ℕ → Fin 9 → R} {lines : List (List Char)}
    (outside : i < counter ∨ counter + lines.length ≤ i) :
    storeRows lib counter rows lines i = rows i := by
  induction lines generalizing counter rows with
  | nil => rfl
  | cons line lines ih =>
      rw [List.length_cons] at outside
      rw [storeRows, ih (by omega), Function.update_of_ne (by omega)]

theorem storeRows_of_lt {counter n : ℕ} {rows : ℕ → Fin 9 → R} {lines : List (List Char)}
    (lt : n < lines.length) :
    storeRows lib counter rows lines (counter + n) = rowOf lib lines[n] := by
  induction lines generalizing counter rows n with
  | nil => exact absurd lt n.not_lt_zero
  | cons line lines ih =>
      rw [storeRows]
      cases n with
      | zero =>
          rw [storeRows_of_not_mem (.inl (by omega)), Nat.add_zero, Function.update_self]
          rfl
      | succ n =>
          rw [show counter + (n + 1) = counter + 1 + n by omega]
          exact ih (Nat.lt_of_succ_lt_succ lt)

theorem map_storeRows {β : Type} (f : (Fin 9 → R) → β) {lines : List (List Char)} {n : ℕ}
    (le : lines.length ≤ n) :
    (List.range n).map (fun i => f (storeRows lib 0 (fun _ _ => 0) lines i)) =
      lines.map (fun line => f (rowOf lib line)) ++
        List.replicate (n - lines.length) (f fun _ => 0) := by
  apply List.ext_getElem
  · simp [le]
  · intro i lt _
    rw [List.length_map, List.length_range] at lt
    rw [List.getElem_map, List.getElem_range]
    by_cases stored : i < lines.length
    · have row := @storeRows_of_lt _ _ lib 0 i (fun _ _ => 0) lines stored
      rw [Nat.zero_add] at row
      rw [row, List.getElem_append_left (by simpa using stored), List.getElem_map]
    · rw [storeRows_of_not_mem (.inr (by omega)), List.getElem_append_right (by simpa using stored),
        List.getElem_replicate]

def storedLines (lines : List (List Char)) : List (List Char) :=
  dataLines (lines.takeWhile shortLine)

theorem readBodies_eq {fsize counter : ℕ} (rows : ℕ → Fin 9 → R) (lines : List (List Char))
    (room : counter ≤ fsize) (small : counter < 2 ^ 31) :
    if counter + (storedLines lines).length ≤ fsize ∧
        counter + (storedLines lines).length < 2 ^ 31 then
      readBodies lib fsize (lines.flatMap (pieces 1023)) counter rows =
        .ok (storeRows lib counter rows (storedLines lines))
    else ∃ fault, readBodies lib fsize (lines.flatMap (pieces 1023)) counter rows =
      .error fault := by
  induction lines generalizing counter rows with
  | nil =>
      rw [if_pos ⟨room, small⟩]
      rfl
  | cons line lines ih =>
      by_cases short : shortLine line = true
      · have le : line.length ≤ 1022 := of_decide_eq_true short
        have fits : ¬tooLong line := by
          unfold tooLong
          omega
        rw [List.flatMap_cons, pieces_short (by omega), List.singleton_append, readBodies,
          if_neg fits]
        cases skip : skipped line with
        | true =>
            have same : storedLines (line :: lines) = storedLines lines := by
              simp [storedLines, dataLines, short, skip]
            rw [same, if_pos rfl]
            exact ih rows room small
        | false =>
            have next : storedLines (line :: lines) = line :: storedLines lines := by
              simp [storedLines, dataLines, short, skip]
            simp only [next, List.length_cons, Bool.false_eq_true, if_false]
            by_cases full : fsize ≤ counter
            · rw [if_neg (by omega), if_pos full]
              exact ⟨_, rfl⟩
            · by_cases many : 2 ^ 31 ≤ counter + 1
              · rw [if_neg (by omega), if_neg full, if_pos many]
                exact ⟨_, rfl⟩
              · rw [if_neg full, if_neg many, storeRows]
                have rest := @ih (counter + 1) (Function.update rows counter (rowOf lib line))
                  (by omega) (by omega)
                rw [Nat.add_right_comm] at rest
                exact rest
      · obtain ⟨piece, first, -, length⟩ := @pieces_cons 1023 line (by decide)
        have long : ¬line.length ≤ 1022 := fun le => short (decide_eq_true le)
        have full : tooLong piece := by
          unfold tooLong
          omega
        have none : storedLines (line :: lines) = [] := by
          simp [storedLines, dataLines, short]
        rw [none, if_pos ⟨room, small⟩, List.flatMap_cons, first, List.cons_append, readBodies,
          if_pos full]
        rfl

end

/-! ## When the bodies are those of the lines -/

theorem map_some_append_iff {α β : Type} {f : α → β} {g : α → Option β} {stored rest : List α}
    {k : ℕ} {b : β} :
    (stored.map f ++ List.replicate k b).map some = (stored ++ rest).map g ↔
      k = rest.length ∧ (∀ a ∈ stored, g a = some (f a)) ∧ ∀ a ∈ rest, g a = some b := by
  rw [List.map_append, List.map_append, List.map_map, List.map_replicate]
  constructor
  · intro same
    obtain ⟨first, last⟩ := List.append_inj same (by simp)
    have length := congrArg List.length last
    rw [List.length_replicate, List.length_map] at length
    refine ⟨length, fun a mem => (List.map_inj_left.mp first a mem).symm, fun a mem => ?_⟩
    exact (List.eq_of_mem_replicate (last ▸ List.mem_map_of_mem mem))
  · rintro ⟨rfl, first, last⟩
    congr 1
    · exact List.map_congr_left fun a mem => (first a mem).symm
    · symm
      rw [List.eq_replicate_iff]
      simpa using last

section
variable {R : Type} [Field R] {lib : FloatLib R} {casts : Casts R} {file : List Char}

theorem bodyOfLine_eq_some {line : List Char} {b : Body R} :
    bodyOfLine lib casts line = some b ↔
      (bodyFields lib line).length = 9 ∧ bodyOf casts (rowOf lib line) = b := by
  unfold bodyOfLine
  split
  · rename_i complete
    simp [complete]
  · rename_i short
    simp [short]

theorem dataLines_eq (lines : List (List Char)) :
    dataLines lines = storedLines lines ++ dataLines (lines.dropWhile shortLine) := by
  rw [storedLines, dataLines, dataLines, dataLines, ← List.filter_append,
    List.takeWhile_append_dropWhile]

theorem newlines_counted {file : List Char} (some : file.count '\n' ≠ 0) :
    file.count '\n' + (if file.getLast? = .some '\n' then 0 else 1) +
        ((textLines file).map fun line => (pieces 1023 line).tail.countP skipped).sum =
      skips (textLines file) + (dataLines (textLines file)).length := by
  have nonempty : file ≠ [] := by
    rintro rfl
    exact some rfl
  have lines := count_newline nonempty
  have data := length_dataLines (textLines file)
  have skip := skips_eq (textLines file)
  omega

theorem skips_le (file : List Char) : skips (textLines file) ≤ file.length := by
  have lines : ∀ line ∈ textLines file, line ≠ [] := fun line mem => ne_nil_of_mem_textLines mem
  have all := length_flatMap_pieces (by decide : 0 < 1023) lines
  rw [flatten_textLines] at all
  exact List.countP_le_length.trans all

theorem nbGenerateManualBodiescore_reported (plain : '\x00' ∉ file)
    (fits : file.length < 2 ^ 63) (reported : ReportedFile file) :
    nbGenerateManualBodiescore lib casts file = .ok none := by
  have newlines : file.count '\n' < 2 ^ 63 := List.count_le_length.trans_lt fits
  have skip := (skips_le file).trans_lt fits
  have lines := fgetsLines_file plain
  unfold nbGenerateManualBodiescore
  dsimp only
  rw [lines]
  split
  · rfl
  · rename_i some
    refine if_pos ?_
    obtain none | more | many := reported
    · exact absurd none some
    · change 2 ^ 64 ≤ (file.count '\n' + (2 ^ 64 - skips (textLines file) % 2 ^ 64)) % 2 ^ 64 * 8
      omega
    · change 2 ^ 64 ≤ (file.count '\n' + (2 ^ 64 - skips (textLines file) % 2 ^ 64)) % 2 ^ 64 * 8
      omega

theorem nbGenerateManualBodiescore_read (plain : '\x00' ∉ file)
    (fits : file.length < 2 ^ 63) (reported : ¬ReportedFile file) :
    let fsize := file.count '\n' - skips (textLines file)
    let stored := storedLines (textLines file)
    if stored.length ≤ fsize ∧ stored.length < 2 ^ 31 ∧ fsize % 2 ^ 32 < 2 ^ 31 then
      nbGenerateManualBodiescore lib casts file =
        .ok (some ((List.range (fsize % 2 ^ 32)).map fun i =>
          bodyOf casts (storeRows lib 0 (fun _ _ => 0) stored i)))
    else ∃ fault, nbGenerateManualBodiescore lib casts file = .error fault := by
  have newlines : file.count '\n' < 2 ^ 63 := List.count_le_length.trans_lt fits
  have skip := (skips_le file).trans_lt fits
  have lines := fgetsLines_file plain
  rw [ReportedFile, not_or, not_or] at reported
  obtain ⟨some, enough, few⟩ := reported
  have allocated : (file.count '\n' + (2 ^ 64 -
      ((textLines file).flatMap (pieces 1023)).countP skipped % 2 ^ 64)) % 2 ^ 64 =
        file.count '\n' - skips (textLines file) := by
    change (file.count '\n' + (2 ^ 64 - skips (textLines file) % 2 ^ 64)) % 2 ^ 64 = _
    omega
  have read := @readBodies_eq _ _ lib (file.count '\n' - skips (textLines file)) 0 (fun _ _ => 0)
    (textLines file) (Nat.zero_le _) (by decide)
  rw [Nat.zero_add] at read
  have whole : nbGenerateManualBodiescore lib casts file =
      match readBodies lib (file.count '\n' - skips (textLines file))
        ((textLines file).flatMap (pieces 1023)) 0 (fun _ _ => 0) with
      | .error fault => .error fault
      | .ok rows =>
          let nbody := (file.count '\n' - skips (textLines file)) % 2 ^ 32
          if 2 ^ 31 ≤ nbody then .error .overflow
          else .ok (.some ((List.range nbody).map fun i => bodyOf casts (rows i))) := by
    unfold nbGenerateManualBodiescore
    dsimp only
    rw [lines, if_neg some]
    rw [allocated, if_neg (by omega)]
  dsimp only
  rw [whole]
  by_cases room : (storedLines (textLines file)).length ≤
      file.count '\n' - skips (textLines file) ∧ (storedLines (textLines file)).length < 2 ^ 31
  · rw [if_pos room] at read
    rw [read]
    dsimp only
    by_cases many : 2 ^ 31 ≤ (file.count '\n' - skips (textLines file)) % 2 ^ 32
    · rw [if_neg (by omega), if_pos many]
      exact ⟨_, rfl⟩
    · rw [if_pos ⟨room.1, room.2, by omega⟩, if_neg many]
  · rw [if_neg room] at read
    obtain ⟨fault, read⟩ := read
    rw [read, if_neg (by tauto)]
    exact ⟨fault, rfl⟩

theorem readsBodies_iff (plain : '\x00' ∉ file) (fits : file.length < 2 ^ 63)
    (reported : ¬ReportedFile file) :
    ReadsBodies lib casts file (nbGenerateManualBodiescore lib casts file) ↔
      Regular lib casts file := by
  have read := @nbGenerateManualBodiescore_read _ _ lib casts file plain fits reported
  rw [ReportedFile, not_or, not_or] at reported
  obtain ⟨some, enough, few⟩ := reported
  have total := newlines_counted some
  have data := dataLines_eq (textLines file)
  have length := congrArg List.length data
  rw [List.length_append] at length
  dsimp only at read
  constructor
  · intro reads
    by_cases room : (storedLines (textLines file)).length ≤
        file.count '\n' - skips (textLines file) ∧
          (storedLines (textLines file)).length < 2 ^ 31 ∧
            (file.count '\n' - skips (textLines file)) % 2 ^ 32 < 2 ^ 31
    · rw [if_pos room] at read
      rw [read] at reads
      change List.map _ _ = List.map _ _ at reads
      have count := congrArg List.length reads
      simp only [List.length_map, List.length_range] at count
      have le := Nat.mod_le (file.count '\n' - skips (textLines file)) (2 ^ 32)
      have same : file.count '\n' - skips (textLines file) =
          (dataLines (textLines file)).length := by omega
      have terminated : (if file.getLast? = .some '\n' then 0 else 1) = 0 := by omega
      have recounted : ((textLines file).map fun line =>
          (pieces 1023 line).tail.countP skipped).sum = 0 := by omega
      rw [map_storeRows (bodyOf casts) (by omega), data, map_some_append_iff] at reads
      obtain ⟨-, stored, rest⟩ := reads
      refine ⟨by_contra fun other => by simp [other] at terminated,
        recounted_eq_zero.mp recounted, by omega, fun line mem => ?_, fun line mem => ?_⟩
      · rw [data] at mem
        obtain mem | mem := List.mem_append.mp mem
        · exact (bodyOfLine_eq_some.mp (stored line mem)).1
        · exact (bodyOfLine_eq_some.mp (rest line mem)).1
      · exact (bodyOfLine_eq_some.mp (rest line mem)).2
    · rw [if_neg room] at read
      obtain ⟨fault, read⟩ := read
      rw [read] at reads
      exact reads.elim
  · intro regular
    have small := regular.few
    have recounted := recounted_eq_zero.mpr regular.pieces
    rw [if_pos regular.terminated, recounted] at total
    have same : file.count '\n' - skips (textLines file) =
        (dataLines (textLines file)).length := by omega
    rw [same, if_pos (by omega), Nat.mod_eq_of_lt (by omega)] at read
    rw [read]
    change List.map _ _ = List.map _ _
    rw [map_storeRows (bodyOf casts) (by omega), data, map_some_append_iff]
    refine ⟨by rw [List.length_append]; omega, fun line mem => ?_, fun line mem => ?_⟩
    · have inside : line ∈ dataLines (textLines file) := by
        rw [data]
        exact List.mem_append_left _ mem
      exact bodyOfLine_eq_some.mpr ⟨regular.complete line inside, rfl⟩
    · have inside : line ∈ dataLines (textLines file) := by
        rw [data]
        exact List.mem_append_right _ mem
      exact bodyOfLine_eq_some.mpr ⟨regular.complete line inside, regular.rest line mem⟩

/-- The reader reports an error or returns the bodies of a text file just where it finds
nothing to allocate or too much, or the file is regular. -/
theorem nbGenerateManualBodiescore_iff (lib : FloatLib R) (casts : Casts R) {file : List Char}
    (plain : '\x00' ∉ file) (fits : file.length < 2 ^ 63) :
    ReadsBodies lib casts file (nbGenerateManualBodiescore lib casts file) ↔
      ReportedFile file ∨ Regular lib casts file := by
  by_cases reported : ReportedFile file
  · rw [nbGenerateManualBodiescore_reported plain fits reported]
    exact ⟨fun _ => .inl reported, fun _ => True.intro⟩
  · rw [readsBodies_iff plain fits reported]
    exact (or_iff_right reported).symm

end

/-- The library for a file without words. -/
def zeroLib : FloatLib ℚ := ⟨0, 0⟩

def floorCasts : Casts ℚ := ⟨fun x => ⌊x⌋, fun x => ⌊x⌋.toNat⟩

/-- A comment and a body. -/
theorem nbGenerateManualBodiescore_iff_one :
    let file := "# bodies\n1 2 3 4 5 6 7 8 9\n".toList
    '\x00' ∉ file ∧ file.length < 2 ^ 63 ∧
      (ReadsBodies zeroLib floorCasts file
          (nbGenerateManualBodiescore zeroLib floorCasts file) ↔
        ReportedFile file ∨ Regular zeroLib floorCasts file) :=
  ⟨by decide, by decide, nbGenerateManualBodiescore_iff zeroLib floorCasts (by decide) (by decide)⟩

/-- A second body without a newline behind it is stored beyond the arrays. -/
theorem nbGenerateManualBodiescore_unterminated :
    nbGenerateManualBodiescore zeroLib floorCasts
        "1 2 3 4 5 6 7 8 9\n1 2 3 4 5 6 7 8 9".toList = .error .outOfRange ∧
      ¬ReadsBodies zeroLib floorCasts "1 2 3 4 5 6 7 8 9\n1 2 3 4 5 6 7 8 9".toList
        (nbGenerateManualBodiescore zeroLib floorCasts
          "1 2 3 4 5 6 7 8 9\n1 2 3 4 5 6 7 8 9".toList) := by
  have fault : nbGenerateManualBodiescore zeroLib floorCasts
      "1 2 3 4 5 6 7 8 9\n1 2 3 4 5 6 7 8 9".toList = .error .outOfRange := by decide +kernel
  rw [fault]
  exact ⟨rfl, id⟩

end MilkyWay.NBody
