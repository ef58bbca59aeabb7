import MilkyWay.NBody.NormalizedHistogram
import MilkyWay.NBody.ReadHistogram

/-! The file of a set of histograms as it is written. Every line that is written is one
that the reader knows; the bins get the centres of the first histogram. -/

namespace MilkyWay.NBody

open Foundation

section
variable {R : Type} [Field R] [LinearOrder R] [IsStrictOrderedRing R] [FloorRing R]

def outputOf (all : CountedMain R) (i : ℕ) (j : Fin 6) : R × R :=
  match all j with
  | some h => ((h.data i).variable_, (h.data i).err)
  | none => (0, 0)

open Foundation.Numerals in
/-- The numbers of a bin after its use: if the fourth histogram has been used, all were
calculated. -/
def binColumns (all : CountedMain R) (first : CountedHistogram R) (i : ℕ) : List R :=
  let storedData := first.data i
  let output := outputOf all i
  if (all 3).isSome then
    [storedData.lambda, storedData.beta, (output 0).1, (output 0).2, (output 1).1, (output 1).2,
      (output 2).1, (output 2).2, (output 3).1, (output 3).2, (output 4).1, (output 4).2,
      (output 5).1, (output 5).2]
  else
    [storedData.lambda, storedData.beta, (output 0).1, (output 0).2, (output 1).1, (output 1).2,
      (output 2).1, (output 2).2]

def binLine (all : CountedMain R) (first : CountedHistogram R) (i : ℕ) : List Char :=
  Nat.toDigits 10 (if (first.data i).useBin then 1 else 0) ++
    (binColumns all first i).flatMap (fun x => ' ' :: printFixed x) ++ "\n".toList

def binLines (all : CountedMain R) (first : CountedHistogram R) (i : ℕ) : List (List Char) :=
  binLine all first i :: if i % first.betaBins = first.betaBins - 1 then ["\n".toList] else []

def numberLine (name : String) (n : ℕ) : List Char :=
  name.toList ++ Nat.toDigits 10 n ++ "\n".toList

open Foundation.Numerals in
def headerLines (all : CountedMain R) (first : CountedHistogram R) : List (List Char) :=
  ["<histogram>\n".toList, numberLine "n = " first.totalNum,
    "massPerParticle = ".toList ++ printFixed first.massPerParticle ++ "\n".toList,
    numberLine "totalSimulated = " first.totalSimulated,
    numberLine "lambdaBins = " first.lambdaBins, numberLine "betaBins = " first.betaBins] ++
  if (all 3).isSome then ["!\n".toList] else []

def printLines (all : CountedMain R) (first : CountedHistogram R) : List (List Char) :=
  headerLines all first ++
    (List.range (first.lambdaBins * first.betaBins % 2 ^ 32)).flatMap (binLines all first) ++
    ["</histogram>\n".toList]

open Foundation.Numerals in
/-- Print the histograms without a header. -/
def nbPrintHistogram (all : CountedMain R) : Option (List Char) :=
  (all 0).map fun first => (printLines all first).flatten

/-! ## Lines -/

def PlainLine (line : List Char) : Prop :=
  ∃ body, line = body ++ "\n".toList ∧ ∀ c ∈ body, 32 ≤ c.toNat

theorem fgetsLines_line {size room : ℕ} {body line rest : List Char}
    (plain : ∀ c ∈ body, 32 ≤ c.toNat) (started : ∀ c ∈ line, 32 ≤ c.toNat)
    (fits : body.length + 1 ≤ room) :
    fgetsLines size room line (body ++ '\n' :: rest) =
      (line.reverse ++ body ++ "\n".toList) :: fgetsLines size (size - 1) [] rest := by
  induction body generalizing room line with
  | nil =>
      have whole : ∀ c ∈ ('\n' :: line).reverse, decide (c ≠ '\x00') = true := by
        intro c mem
        rcases List.mem_cons.mp (List.mem_reverse.mp mem) with rfl | mem
        · rfl
        · refine decide_eq_true ?_
          rintro rfl
          exact absurd (started _ mem) (by decide)
      rw [List.nil_append, fgetsLines, if_pos (.inl rfl), List.takeWhile_eq_self_iff.mpr whole]
      rw [List.reverse_cons, List.append_nil]
      rfl
  | cons c body ih =>
      have printable := plain c List.mem_cons_self
      have goes : ¬(c = '\n' ∨ room ≤ 1) := by
        rintro (rfl | full)
        · exact absurd printable (by decide)
        · rw [List.length_cons] at fits
          omega
      have rest := @ih (room - 1) (c :: line) (fun d mem => plain d (List.mem_cons_of_mem c mem))
        (by
          intro d mem
          rcases List.mem_cons.mp mem with rfl | mem
          · exact printable
          · exact started d mem)
        (by rw [List.length_cons] at fits; omega)
      rw [List.cons_append, fgetsLines, if_neg goes, rest, List.reverse_cons]
      simp only [List.append_assoc, List.cons_append, List.nil_append]

theorem fgetsLines_flatten {lines : List (List Char)} (plain : ∀ line ∈ lines, PlainLine line)
    (short : ∀ line ∈ lines, ¬tooLong line) : fgetsLines 1024 1023 [] lines.flatten = lines := by
  induction lines with
  | nil => rfl
  | cons line lines ih =>
      obtain ⟨body, rfl, printable⟩ := plain line List.mem_cons_self
      have fits : ¬tooLong (body ++ "\n".toList) := short _ List.mem_cons_self
      rw [tooLong, List.length_append] at fits
      have turn := @fgetsLines_line 1024 1023 body [] lines.flatten printable
        (fun c mem => absurd mem List.not_mem_nil) (by
          change ¬1024 ≤ body.length + 1 + 1 at fits
          omega)
      have rest := ih (fun l mem => plain l (List.mem_cons_of_mem _ mem))
        fun l mem => short l (List.mem_cons_of_mem _ mem)
      rw [List.flatten_cons, List.append_assoc]
      exact turn.trans (congrArg (_ :: ·) rest)

theorem printable_of_all {text : List Char} (all : text.all (32 ≤ ·.toNat) = true) :
    ∀ c ∈ text, 32 ≤ c.toNat := fun c mem => of_decide_eq_true (List.all_eq_true.mp all c mem)

theorem numberLine_plain {name : String} (printable : ∀ c ∈ name.toList, 32 ≤ c.toNat) (n : ℕ) :
    PlainLine (numberLine name n) := by
  refine ⟨_, rfl, ?_⟩
  intro c mem
  rcases List.mem_append.mp mem with name | digit
  · exact printable c name
  · exact toDigits_printable n c digit

omit [IsStrictOrderedRing R] in
theorem binLine_plain (all : CountedMain R) (first : CountedHistogram R) (i : ℕ) :
    PlainLine (binLine all first i) := by
  refine ⟨_, rfl, ?_⟩
  intro c mem
  rcases List.mem_append.mp mem with digit | column
  · exact toDigits_printable _ c digit
  · obtain ⟨x, -, mem⟩ := List.mem_flatMap.mp column
    rcases List.mem_cons.mp mem with rfl | mem
    · decide
    · exact printFixed_printable x c mem

omit [IsStrictOrderedRing R] in
theorem printLines_plain (all : CountedMain R) (first : CountedHistogram R) :
    ∀ line ∈ printLines all first, PlainLine line := by
  have blank : PlainLine "\n".toList := ⟨[], rfl, fun c mem => absurd mem List.not_mem_nil⟩
  have literal : ∀ body : List Char, (∀ c ∈ body, 32 ≤ c.toNat) →
      PlainLine (body ++ "\n".toList) := fun body printable => ⟨body, rfl, printable⟩
  intro line mem
  rw [printLines, List.mem_append, List.mem_append] at mem
  rcases mem with (header | bin) | last
  · rcases List.mem_append.mp header with header | more
    · simp only [List.mem_cons, List.not_mem_nil, or_false] at header
      rcases header with rfl | rfl | rfl | rfl | rfl | rfl
      · exact literal "<histogram>".toList (printable_of_all rfl)
      · exact numberLine_plain (printable_of_all rfl) _
      · refine literal ("massPerParticle = ".toList ++ printFixed first.massPerParticle) ?_
        intro c mem
        rcases List.mem_append.mp mem with name | digit
        · exact printable_of_all rfl c name
        · exact printFixed_printable _ c digit
      · exact numberLine_plain (printable_of_all rfl) _
      · exact numberLine_plain (printable_of_all rfl) _
      · exact numberLine_plain (printable_of_all rfl) _
    · split at more
      · rw [List.mem_singleton.mp more]
        exact literal "!".toList (printable_of_all rfl)
      · cases more
  · obtain ⟨i, -, mem⟩ := List.mem_flatMap.mp bin
    rcases List.mem_cons.mp mem with rfl | mem
    · exact binLine_plain all first i
    · split at mem
      · rw [List.mem_singleton.mp mem]
        exact blank
      · cases mem
  · rw [List.mem_singleton.mp last]
    exact literal "</histogram>".toList (printable_of_all rfl)

/-! ## The header -/

variable (lib : FloatLib R)

omit [LinearOrder R] [IsStrictOrderedRing R] [FloorRing R] in
theorem headerLine_text (h : ReadHeader R) {line : List Char} {c : Char}
    (start : line.head? = some c) (visible : isspace c = false)
    (other : c ≠ '#' ∧ c ≠ '!' ∧ c ≠ '<' ∧ c ≠ 'p') :
    headerLine lib h line =
      (countLine lib h.readNGen " n = %u \n" (fun n => { h with readNGen := true, nGen := n })
          line <|>
        massLine lib h line <|>
        countLine lib h.readTotalSim " totalSimulated = %u \n"
          (fun n => { h with readTotalSim := true, totalSim := n }) line <|>
        countLine lib h.readLambdaBins " lambdaBins = %u \n"
          (fun n => { h with readLambdaBins := true, lambdaBins := n }) line <|>
        countLine lib h.readBetaBins " betaBins = %u \n"
          (fun n => { h with readBetaBins := true, betaBins := n }) line) := by
  obtain ⟨s, rfl⟩ : ∃ s, line = c :: s := by
    cases line with
    | nil => cases start
    | cons d s => exact ⟨s, congrArg (· :: s) (Option.some.inj start)⟩
  obtain ⟨comment, sign, tag, params⟩ := other
  have skip : skipLine h (c :: s) = none := by
    rw [skipLine, if_neg, if_neg]
    · intro same
      exact sign (Option.some.inj same)
    · rintro (same | same)
      · exact comment (Option.some.inj same)
      · rw [Option.some.inj same] at visible
        cases visible
  have tags : tagLine h (c :: s) = none := by
    rw [tagLine, if_neg, if_neg]
    · rintro ⟨-, same⟩
      exact tag (List.cons.inj same).1
    · rintro ⟨-, same⟩
      exact tag (List.cons.inj same).1
  have unmatched : sscanf lib (format " phi = %lf , theta = %lf , psi = %lf \n".toList) (c :: s) =
      [] := by
    refine (sscanf_blank lib visible _ s).trans ?_
    exact if_neg (Ne.symm params)
  have no_params : paramsLine lib h (c :: s) = none := by
    rw [paramsLine, unmatched]
    split <;> rfl
  rw [headerLine, skip, tags, no_params]
  rfl

theorem blankAhead_newline : BlankAhead "\n".toList := by
  rintro c ⟨⟩
  rfl

def Names (f name : String) (number : Directive) : Prop :=
  ∃ c word, isspace c = false ∧ name.toList = c :: word ++ " = ".toList ∧
    format f.toList = .blank :: ((c :: word).map .literal ++
      [.blank, .literal '=', .blank, number, .blank, .blank])

theorem names_n : Names " n = %u \n" "n = " .integer :=
  ⟨'n', [], rfl, by decide, by decide⟩

theorem names_mass : Names " massPerParticle = %lf \n" "massPerParticle = " .double :=
  ⟨'m', "assPerParticle".toList, rfl, by decide, by decide⟩

theorem names_totalSim : Names " totalSimulated = %u \n" "totalSimulated = " .integer :=
  ⟨'t', "otalSimulated".toList, rfl, by decide, by decide⟩

theorem names_lambdaBins : Names " lambdaBins = %u \n" "lambdaBins = " .integer :=
  ⟨'l', "ambdaBins".toList, rfl, by decide, by decide⟩

theorem names_betaBins : Names " betaBins = %u \n" "betaBins = " .integer :=
  ⟨'b', "etaBins".toList, rfl, by decide, by decide⟩

omit [LinearOrder R] [IsStrictOrderedRing R] [FloorRing R] in
theorem sscanf_names {f name : String} {number : Directive} (names : Names f name number)
    (s : List Char) :
    sscanf lib (format f.toList) (name.toList ++ s) =
      sscanf lib [.blank, number, .blank, .blank] (' ' :: s) := by
  obtain ⟨c, word, visible, text, directives⟩ := names
  rw [text, directives, List.append_assoc, List.cons_append, sscanf_blank lib visible,
    ← List.cons_append, sscanf_word]
  rfl

omit [LinearOrder R] [IsStrictOrderedRing R] [FloorRing R] in
theorem countLine_number {f name : String} (names : Names f name .integer) {n : ℕ}
    (small : n < 2 ^ 32) (set : ℕ → ReadHeader R) :
    countLine lib false f set (numberLine name n) = some (set n) := by
  obtain ⟨c, digits, eq, digit⟩ := toDigits_cons n
  have visible : isspace c = false := Bool.eq_false_iff.mpr fun blank => by
    have low := (toNat_of_digit digit).1
    have high := toNat_of_blank blank
    omega
  have number := sscanf_toDigits lib n
    (fun d mem => isDigit_of_blank (blankAhead_newline d mem)) [.blank, .blank]
  have scanned : sscanf lib (format f.toList) (numberLine name n) = [.integer n] := by
    rw [numberLine, List.append_assoc, sscanf_names lib names]
    rw [eq] at number ⊢
    exact (sscanf_blank lib visible _ _).trans number
  have same : unsignedOf (n : ℤ) = n := by
    rw [unsignedOf]
    omega
  rw [countLine, if_neg Bool.false_ne_true, scanned]
  exact congrArg (fun m => some (set m)) same

omit [IsStrictOrderedRing R] in
theorem massLine_mass {h : ReadHeader R} (unread : h.readMass = false) (x : R) :
    massLine lib h ("massPerParticle = ".toList ++ printFixed x ++ "\n".toList) =
      some { h with readMass := true, mass := printedValue x } := by
  have scanned : sscanf lib (format " massPerParticle = %lf \n".toList)
      ("massPerParticle = ".toList ++ printFixed x ++ "\n".toList) =
        [.double (printedValue x)] := by
    rw [List.append_assoc, sscanf_names lib names_mass]
    exact sscanf_printFixed lib x blankAhead_newline [.blank, .blank]
  rw [massLine, unread, if_neg Bool.false_ne_true, scanned]

omit [LinearOrder R] [IsStrictOrderedRing R] [FloorRing R] in
theorem massLine_read {h : ReadHeader R} (read : h.readMass = true) (line : List Char) :
    massLine lib h line = none := by
  rw [massLine, read, if_pos rfl]

omit [LinearOrder R] [IsStrictOrderedRing R] [FloorRing R] in
theorem countLine_read (f : String) (set : ℕ → ReadHeader R) (line : List Char) :
    countLine lib true f set line = none := if_pos rfl

theorem Names.head {f name : String} {number : Directive} (names : Names f name number)
    (s : List Char) : (name.toList ++ s).head? = name.toList.head? := by
  obtain ⟨c, word, -, text, -⟩ := names
  rw [text]
  rfl

omit [LinearOrder R] [IsStrictOrderedRing R] [FloorRing R] in
theorem headerLine_n {h : ReadHeader R} (unread : h.readNGen = false) {n : ℕ} (small : n < 2 ^ 32) :
    headerLine lib h (numberLine "n = " n) = some { h with readNGen := true, nGen := n } := by
  have start : (numberLine "n = " n).head? = some 'n' := by
    rw [numberLine, List.append_assoc, names_n.head]
    decide
  rw [headerLine_text lib h start rfl (by decide), unread, countLine_number lib names_n small]
  rfl

omit [IsStrictOrderedRing R] in
theorem headerLine_mass {h : ReadHeader R} (n : h.readNGen = true)
    (unread : h.readMass = false) (x : R) :
    headerLine lib h ("massPerParticle = ".toList ++ printFixed x ++ "\n".toList) =
      some { h with readMass := true, mass := printedValue x } := by
  have start : ("massPerParticle = ".toList ++ printFixed x ++ "\n".toList).head? = some 'm' := by
    rw [List.append_assoc, names_mass.head]
    decide
  have number := massLine_mass lib unread x
  rw [headerLine_text lib h start rfl (by decide), number]
  simp only [n, countLine_read]
  rfl

omit [LinearOrder R] [IsStrictOrderedRing R] [FloorRing R] in
theorem headerLine_totalSim {h : ReadHeader R} (n : h.readNGen = true)
    (mass : h.readMass = true) (unread : h.readTotalSim = false) {m : ℕ} (small : m < 2 ^ 32) :
    headerLine lib h (numberLine "totalSimulated = " m) =
      some { h with readTotalSim := true, totalSim := m } := by
  have start : (numberLine "totalSimulated = " m).head? = some 't' := by
    rw [numberLine, List.append_assoc, names_totalSim.head]
    decide
  rw [headerLine_text lib h start rfl (by decide), n, countLine_read, massLine_read lib mass,
    unread, countLine_number lib names_totalSim small]
  rfl

omit [LinearOrder R] [IsStrictOrderedRing R] [FloorRing R] in
theorem headerLine_lambdaBins {h : ReadHeader R} (n : h.readNGen = true) (mass : h.readMass = true)
    (totalSim : h.readTotalSim = true) (unread : h.readLambdaBins = false) {m : ℕ}
    (small : m < 2 ^ 32) :
    headerLine lib h (numberLine "lambdaBins = " m) =
      some { h with readLambdaBins := true, lambdaBins := m } := by
  have start : (numberLine "lambdaBins = " m).head? = some 'l' := by
    rw [numberLine, List.append_assoc, names_lambdaBins.head]
    decide
  rw [headerLine_text lib h start rfl (by decide), n, countLine_read, massLine_read lib mass,
    totalSim, countLine_read, unread, countLine_number lib names_lambdaBins small]
  rfl

omit [LinearOrder R] [IsStrictOrderedRing R] [FloorRing R] in
theorem headerLine_betaBins {h : ReadHeader R} (n : h.readNGen = true) (mass : h.readMass = true)
    (totalSim : h.readTotalSim = true) (lambdaBins : h.readLambdaBins = true)
    (unread : h.readBetaBins = false) {m : ℕ} (small : m < 2 ^ 32) :
    headerLine lib h (numberLine "betaBins = " m) =
      some { h with readBetaBins := true, betaBins := m } := by
  have start : (numberLine "betaBins = " m).head? = some 'b' := by
    rw [numberLine, List.append_assoc, names_betaBins.head]
    decide
  rw [headerLine_text lib h start rfl (by decide), n, countLine_read, massLine_read lib mass,
    totalSim, countLine_read, lambdaBins, countLine_read, unread,
    countLine_number lib names_betaBins small]
  rfl

omit [LinearOrder R] [IsStrictOrderedRing R] [FloorRing R] in
theorem headerLine_digit {h : ReadHeader R} (n : h.readNGen = true) (mass : h.readMass = true)
    (totalSim : h.readTotalSim = true) (lambdaBins : h.readLambdaBins = true)
    (betaBins : h.readBetaBins = true) {line : List Char} {c : Char}
    (start : line.head? = some c) (digit : c.isDigit = true) : headerLine lib h line = none := by
  have visible : isspace c = false := Bool.eq_false_iff.mpr fun blank => by
    have low := (toNat_of_digit digit).1
    have space := toNat_of_blank blank
    omega
  have other : c ≠ '#' ∧ c ≠ '!' ∧ c ≠ '<' ∧ c ≠ 'p' := by
    refine ⟨?_, ?_, ?_, ?_⟩ <;> rintro rfl <;> cases digit
  rw [headerLine_text lib h start visible other, n, countLine_read, massLine_read lib mass,
    totalSim, countLine_read, lambdaBins, countLine_read, betaBins, countLine_read]
  rfl

/-! ## The survey of what is written -/

omit [LinearOrder R] [IsStrictOrderedRing R] [FloorRing R] in
theorem surveyLines_header {line : List Char} {lines : List (List Char)} {h h' : ReadHeader R}
    (short : ¬tooLong line) (header : headerLine lib h line = some h') :
    surveyLines lib (line :: lines) h = surveyLines lib lines h' := by
  rw [surveyLines, if_neg short, header]

omit [LinearOrder R] [IsStrictOrderedRing R] [FloorRing R] in
theorem surveyLines_data {line : List Char} {lines : List (List Char)} {h : ReadHeader R}
    (short : ¬tooLong line) (data : headerLine lib h line = none)
    (complete : completeLine lib h line = true) :
    surveyLines lib (line :: lines) h =
      { surveyLines lib lines h with data := (h, line) :: (surveyLines lib lines h).data } := by
  rw [surveyLines, if_neg short, data]
  exact if_pos complete

def headerRead (used : Bool) (first : CountedHistogram R) : ReadHeader R where
  used := used
  readOpeningTag := true
  readNGen := true
  readMass := true
  readTotalSim := true
  readLambdaBins := true
  readBetaBins := true
  nGen := first.totalNum
  totalSim := first.totalSimulated
  lambdaBins := first.lambdaBins
  betaBins := first.betaBins
  mass := printedValue first.massPerParticle

structure HeaderFits (first : CountedHistogram R) : Prop where
  totalNum : first.totalNum < 2 ^ 32
  totalSimulated : first.totalSimulated < 2 ^ 32
  lambdaBins : first.lambdaBins < 2 ^ 32
  betaBins : first.betaBins < 2 ^ 32

omit [IsStrictOrderedRing R] in
theorem surveyLines_headerLines {all : CountedMain R} {first : CountedHistogram R}
    (fits : HeaderFits first) (short : ∀ line ∈ headerLines all first, ¬tooLong line)
    (lines : List (List Char)) :
    surveyLines lib (headerLines all first ++ lines) { mass := 0 } =
      surveyLines lib lines (headerRead (all 3).isSome first) := by
  have opening : headerLine lib ({ mass := 0 } : ReadHeader R) "<histogram>\n".toList =
      some { mass := 0, readOpeningTag := true } := rfl
  simp only [headerLines, List.forall_mem_append, List.forall_mem_cons] at short
  obtain ⟨⟨tag, n, mass, totalSim, lambdaBins, betaBins, -⟩, more⟩ := short
  rw [headerLines, List.append_assoc]
  simp only [List.cons_append, List.nil_append]
  rw [surveyLines_header lib tag opening,
    surveyLines_header lib n (headerLine_n lib rfl fits.totalNum),
    surveyLines_header lib mass (headerLine_mass lib rfl rfl _),
    surveyLines_header lib totalSim (headerLine_totalSim lib rfl rfl rfl fits.totalSimulated),
    surveyLines_header lib lambdaBins (headerLine_lambdaBins lib rfl rfl rfl rfl fits.lambdaBins),
    surveyLines_header lib betaBins (headerLine_betaBins lib rfl rfl rfl rfl rfl fits.betaBins)]
  cases used : (all 3).isSome with
  | false => rfl
  | true =>
      rw [used] at more
      exact surveyLines_header lib (more _ List.mem_cons_self) rfl

def columnsFormat : ℕ → List Directive
  | 0 => [.blank]
  | n + 1 => .blank :: .double :: columnsFormat n

theorem dataFormat_eq (used : Bool) :
    dataFormat used = .integer :: columnsFormat (if used then 14 else 8) := by
  cases used <;> decide

omit [IsStrictOrderedRing R] in
theorem columns_blank (xs : List R) :
    BlankAhead (xs.flatMap (fun x => ' ' :: printFixed x) ++ "\n".toList) := by
  cases xs with
  | nil => exact blankAhead_newline
  | cons x xs =>
      rintro c ⟨⟩
      rfl

omit [IsStrictOrderedRing R] in
theorem sscanf_columns (xs : List R) :
    sscanf lib (columnsFormat xs.length)
        (xs.flatMap (fun x => ' ' :: printFixed x) ++ "\n".toList) =
      xs.map fun x => .double (printedValue x) := by
  induction xs with
  | nil => rfl
  | cons x xs ih =>
      rw [List.flatMap_cons, List.append_assoc, List.map_cons, ← ih]
      exact sscanf_printFixed lib x (columns_blank xs) (columnsFormat xs.length)

omit [LinearOrder R] [IsStrictOrderedRing R] [FloorRing R] in
theorem length_binColumns (all : CountedMain R) (first : CountedHistogram R) (i : ℕ) :
    (binColumns all first i).length = if (all 3).isSome then 14 else 8 := by
  unfold binColumns
  dsimp only
  split <;> rfl

section
variable {h : ReadHeader R} {all : CountedMain R} {first : CountedHistogram R}

omit [IsStrictOrderedRing R] in
theorem dataFields_binLine (used : h.used = (all 3).isSome) (i : ℕ) :
    dataFields lib h (binLine all first i) =
      .integer (if (first.data i).useBin then 1 else 0 : ℕ) ::
        (binColumns all first i).map fun x => .double (printedValue x) := by
  rw [dataFields, used, dataFormat_eq, ← length_binColumns all first i, binLine,
    List.append_assoc, sscanf_toDigits lib _
      (fun c mem => isDigit_of_blank (columns_blank _ c mem)), sscanf_columns]

omit [IsStrictOrderedRing R] in
theorem completeLine_binLine (used : h.used = (all 3).isSome) (i : ℕ) :
    completeLine lib h (binLine all first i) = true := by
  rw [completeLine, dataFields_binLine lib used, List.length_cons, List.length_map,
    length_binColumns, used]
  cases (all 3).isSome <;> rfl

omit [IsStrictOrderedRing R] in
theorem surveyLines_binLines {used : Bool} (same : used = (all 3).isSome) {is : List ℕ}
    (short : ∀ line ∈ is.flatMap (binLines all first), ¬tooLong line) :
    surveyLines lib (is.flatMap (binLines all first) ++ ["</histogram>\n".toList])
        (headerRead used first) =
      ⟨is.map fun i => (headerRead used first, binLine all first i), false,
        { headerRead used first with readClosingTag := true }⟩ := by
  induction is with
  | nil => rfl
  | cons i is ih =>
      have rest := ih fun line mem => short line (List.mem_append_right _ mem)
      have line : ∀ lines, surveyLines lib (binLine all first i :: lines) (headerRead used first) =
          { surveyLines lib lines (headerRead used first) with
            data := (headerRead used first, binLine all first i) ::
              (surveyLines lib lines (headerRead used first)).data } := by
        intro lines
        obtain ⟨c, digits, eq, digit⟩ :=
          toDigits_cons (if (first.data i).useBin then 1 else 0)
        have start : (binLine all first i).head? = some c := by
          rw [binLine, eq]
          rfl
        refine surveyLines_data lib (short _ ?_)
          (headerLine_digit lib rfl rfl rfl rfl rfl start digit) (completeLine_binLine lib same i)
        exact List.mem_append_left _ List.mem_cons_self
      rw [List.flatMap_cons, List.append_assoc, binLines, List.cons_append, line]
      have blank : surveyLines lib ((if i % first.betaBins = first.betaBins - 1 then
          ["\n".toList] else []) ++ (is.flatMap (binLines all first) ++ ["</histogram>\n".toList]))
            (headerRead used first) =
          surveyLines lib (is.flatMap (binLines all first) ++ ["</histogram>\n".toList])
            (headerRead used first) := by
        split
        · exact surveyLines_header lib (by decide) rfl
        · rfl
      rw [blank, rest]
      rfl

def printedBin (all : CountedMain R) (first : CountedHistogram R) (k : Fin 6) (i : ℕ) :
    HistData R where
  useBin := (first.data i).useBin
  lambda := printedValue (first.data i).lambda
  beta := printedValue (first.data i).beta
  variable_ := printedValue (outputOf all i k).1
  err := printedValue (outputOf all i k).2

omit [IsStrictOrderedRing R] in
theorem realField_columns {xs : List R} {n : ℕ} {x : R} (column : xs[n]? = some x)
    (z : Scanned R) :
    realField (z :: xs.map fun x => .double (printedValue x)) (n + 1) = printedValue x := by
  rw [realField, List.getElem?_cons_succ, List.getElem?_map, column]
  rfl

omit [LinearOrder R] [IsStrictOrderedRing R] [FloorRing R] in
theorem binColumns_output {k : Fin 6} (saved : k.val < 3 ∨ (all 3).isSome = true) (i : ℕ) :
    (binColumns all first i)[2 * k.val + 2]? = some (outputOf all i k).1 ∧
      (binColumns all first i)[2 * k.val + 3]? = some (outputOf all i k).2 := by
  unfold binColumns
  dsimp only
  split
  · fin_cases k <;> exact ⟨rfl, rfl⟩
  · rename_i unused
    have low : k.val < 3 := saved.resolve_right unused
    fin_cases k <;> first | exact ⟨rfl, rfl⟩ | exact absurd low (by decide)

omit [LinearOrder R] [IsStrictOrderedRing R] [FloorRing R] in
theorem binColumns_centre (all : CountedMain R) (first : CountedHistogram R) (i : ℕ) :
    (binColumns all first i)[0]? = some (first.data i).lambda ∧
      (binColumns all first i)[1]? = some (first.data i).beta := by
  unfold binColumns
  dsimp only
  split <;> exact ⟨rfl, rfl⟩

omit [IsStrictOrderedRing R] in
theorem binOf_binLine (same : h.used = (all 3).isSome) (i : ℕ) {k : Fin 6}
    (saved : k.val < 3 ∨ (all 3).isSome = true) :
    binOf (dataFields lib h (binLine all first i)) k = printedBin all first k i := by
  obtain ⟨lambda, beta⟩ := binColumns_centre all first i
  obtain ⟨output, err⟩ := @binColumns_output R _ all first k saved i
  have use : (unsignedOf ((if (first.data i).useBin then 1 else 0 : ℕ) : ℤ) != 0) =
      (first.data i).useBin := by
    cases (first.data i).useBin <;> rfl
  rw [dataFields_binLine lib same, binOf, printedBin, realField_columns lambda,
    realField_columns beta, Nat.add_comm 3, Nat.add_comm 4, realField_columns output,
    realField_columns err]
  exact congrArg (fun useBin => (⟨useBin, _, _, _, _⟩ : HistData R)) use

/-! ## The file as it is read -/

structure ReadsAs (all : CountedMain R) (first : CountedHistogram R) (m : MainStruct R) :
    Prop where
  usage : ∀ k, m.usage k = (decide (k.val < 3) || (all 3).isSome)
  header : ∀ k, m.usage k = true → m.histograms k =
    { (m.histograms k) with
      lambdaBins := first.lambdaBins
      betaBins := first.betaBins
      totalNum := first.totalNum
      totalSimulated := first.totalSimulated
      massPerParticle := printedValue first.massPerParticle }
  data : ∀ k, m.usage k = true → ∀ i < first.lambdaBins * first.betaBins,
    (m.histograms k).data i = printedBin all first k i

omit [IsStrictOrderedRing R] in
theorem surveyLines_printLines (fits : HeaderFits first)
    (within : first.lambdaBins * first.betaBins < 2 ^ 32)
    (short : ∀ line ∈ printLines all first, ¬tooLong line) :
    surveyLines lib (printLines all first) { mass := 0 } =
      ⟨(List.range (first.lambdaBins * first.betaBins)).map fun i =>
          (headerRead (all 3).isSome first, binLine all first i), false,
        { headerRead (all 3).isSome first with readClosingTag := true }⟩ := by
  simp only [printLines, List.forall_mem_append] at short
  rw [printLines, List.append_assoc, surveyLines_headerLines lib fits short.1.1,
    surveyLines_binLines lib rfl short.1.2, Nat.mod_eq_of_lt within]

omit [IsStrictOrderedRing R] in
theorem nbReadHistogram_printLines (fits : HeaderFits first)
    (within : first.lambdaBins * first.betaBins < 2 ^ 32)
    (some_bin : 0 < first.lambdaBins * first.betaBins)
    (short : ∀ line ∈ printLines all first, ¬tooLong line) :
    ∃ m, nbReadHistogram lib (printLines all first).flatten = .ok (some m) ∧
      ReadsAs all first m := by
  have lines := fgetsLines_flatten (printLines_plain all first) short
  have some_line : (printLines all first).flatten.count '\n' ≠ 0 := by
    refine Nat.ne_of_gt (List.count_pos_iff.mpr (List.mem_flatten.mpr ?_))
    exact ⟨"</histogram>\n".toList, List.mem_append_right _ List.mem_cons_self, by decide⟩
  have start := @readLines_start _ _ lib (printLines all first) { mass := 0 }
  rw [surveyLines_printLines lib fits within short] at start
  set data := (List.range (first.lambdaBins * first.betaBins)).map fun i =>
    (headerRead (all 3).isSome first, binLine all first i) with data_eq
  have length : data.length = first.lambdaBins * first.betaBins := by
    rw [data_eq, List.length_map, List.length_range]
  have heads : ∀ x ∈ data, x.1 = headerRead (all 3).isSome first := by
    intro x mem
    obtain ⟨i, -, rfl⟩ := List.mem_map.mp mem
    rfl
  obtain ⟨⟨h, line⟩, rest, cons⟩ : ∃ x rest, data = x :: rest :=
    List.exists_cons_of_length_pos (length ▸ some_bin)
  obtain rfl : h = _ := heads _ (cons ▸ List.mem_cons_self)
  have sized : ¬(headerRead (all 3).isSome first).readBetaBins = false :=
    Bool.true_eq_false_eq_False
  have room : ¬(ReadHistograms.build (headerRead (all 3).isSome first)).nBin < data.length := by
    rw [length]
    exact Nat.not_lt.mpr (Nat.mod_eq_of_lt within).ge
  rw [cons] at start room
  dsimp only at start
  rw [if_neg sized, if_neg room, ← cons] at start
  obtain ⟨fileCount, run⟩ := start
  rw [← lines] at run
  have usage : ∀ k, ((ReadHistograms.build (headerRead (all 3).isSome first)).storeAll lib 0
      data).usage k = (decide (k.val < 3) || (all 3).isSome) :=
    fun k => congrFun (storeAll_usage data 0) k
  refine ⟨_, nbReadHistogram_lines some_line run (usage 0), usage, ?_, ?_⟩
  · intro k used
    simp only [ReadHistograms.finish] at used ⊢
    rw [if_pos used]
    rfl
  · intro k used i lt
    have saved : k.val < 3 ∨ (all 3).isSome = true := by
      rw [← decide_eq_true_eq (p := k.val < 3), ← Bool.or_eq_true, ← usage]
      exact used
    have built : (ReadHistograms.build (headerRead (all 3).isSome first)).usage k = true :=
      (usage k).symm.trans used
    have stored := @storeAll_data _ _ lib _ data k built
      (fun x mem => by rw [heads x mem]; exact saved) 0 i (length ▸ lt)
    have line : data[i] = (headerRead (all 3).isSome first, binLine all first i) := by
      simp only [data_eq, List.getElem_map, List.getElem_range]
    rw [Nat.zero_add, line] at stored
    simp only [ReadHistograms.finish] at used ⊢
    rw [if_pos used]
    exact stored.trans (binOf_binLine lib rfl i saved)

end

end

/-! ## Sets that are made -/

section
variable {R : Type} [Field R] [LinearOrder R] {lib : TrigLib R} {ctx : HistogramCtx R}
  {st : LikelihoodUse} {hp : HistogramParams R} {bodies : List (Body R)}
  {all : CountedMain R} {k : Fin 6} {h : CountedHistogram R}

structure Alike (bodies : List (Body R)) (hp : HistogramParams R) (totalNum : ℕ)
    (h : CountedHistogram R) : Prop where
  lambdaBins : h.lambdaBins = hp.lambdaBins
  betaBins : h.betaBins = hp.betaBins
  totalNum : h.totalNum = totalNum
  totalSimulated : h.totalSimulated = (countBodies bodies).1
  massPerParticle : h.massPerParticle = (countBodies bodies).2
  useBin : ∀ n, (h.data n).useBin = true

def SameUse (h h' : CountedHistogram R) : Prop :=
  SameHeader h h' ∧ ∀ n, (h'.data n).useBin = (h.data n).useBin

omit [Field R] [LinearOrder R] in
theorem sameUse_trans (a b c : CountedHistogram R) (first : SameUse a b) (second : SameUse b c) :
    SameUse a c :=
  ⟨sameHeader_trans a b c first.1 second.1, fun n => (second.2 n).trans (first.2 n)⟩

omit [LinearOrder R] in
theorem sameUse_count (h : CountedHistogram R) (n : ℕ) (var : Option R) :
    SameUse h (h.count n var) := by
  refine ⟨rfl, fun m => ?_⟩
  by_cases own : m = n
  · subst own
    simp only [CountedHistogram.count, Function.update_self]
  · simp only [CountedHistogram.count, Function.update_of_ne own]

theorem nbCreateHistogram_rel (made : nbCreateHistogram lib ctx st bodies hp = some all)
    (k : Fin 6) :
    Option.Rel (fun _ => Alike bodies hp (bodies.countP fun b => (histSlot lib ctx hp b).isSome))
      (startHistograms st hp (countBodies bodies).1 (countBodies bodies).2 k) (all k) := by
  rw [nbCreateHistogram_eq, Option.bind_eq_some_iff] at made
  obtain ⟨s, pass, run⟩ := made
  have counting : Counting lib ctx hp (startHistograms st hp (countBodies bodies).1
      (countBodies bodies).2) (countBodies bodies).1 bodies s :=
    foldlM_invariant (Counting lib ctx hp (startHistograms st hp (countBodies bodies).1
      (countBodies bodies).2) (countBodies bodies).1) (.start st _ _ _)
      (fun _ _ _ _ _ _ inv turn => inv.step turn) pass
  have use := countBodies_rel (r := SameUse) (fun _ => ⟨rfl, fun _ => rfl⟩) sameUse_trans
    sameUse_count pass k
  have kept := foldlM_applyStep histogramSteps_same run k
  dsimp only at use
  cases start : startHistograms st hp (countBodies bodies).1 (countBodies bodies).2 k with
  | none =>
      rw [start] at use
      cases counted : s.all k with
      | some h => rw [counted] at use; cases use
      | none =>
          rw [totalled, counted] at kept
          cases made : all k with
          | some h => rw [made] at kept; cases kept
          | none => exact .none
  | some h₀ =>
      have fresh : h₀ = ⟨hp.lambdaBins, hp.betaBins, 0, (countBodies bodies).1, true, hp,
          (countBodies bodies).2, fun _ => clearBin⟩ := by
        rw [startHistograms] at start
        split at start
        · exact (Option.some.inj start).symm
        · cases start
      rw [start] at use
      cases counted : s.all k with
      | none => rw [counted] at use; cases use
      | some h₁ =>
          rw [counted] at use
          rw [totalled, counted] at kept
          cases use with
          | some use =>
              obtain ⟨header, use⟩ := use
              rw [SameHeader, fresh] at header
              cases made : all k with
              | none => rw [made] at kept; cases kept
              | some h =>
                  rw [made] at kept
                  cases kept with
                  | some kept =>
                      refine .some ⟨?_, ?_, kept.totalNum.trans counting.totalNum, ?_, ?_, ?_⟩
                      · rw [kept.lambdaBins, header]
                      · rw [kept.betaBins, header]
                      · rw [kept.totalSimulated, header]
                      · rw [kept.massPerParticle, header]
                      · intro n
                        rw [kept.useBin]
                        exact (use n).trans (by rw [fresh]; rfl)

theorem nbCreateHistogram_usage (made : nbCreateHistogram lib ctx st bodies hp = some all)
    (k : Fin 6) : (all k).isSome = (decide (k.val < 3) || (all 3).isSome) := by
  have usage : ∀ k, (all k).isSome =
      decide (k.val < 3 ∨ st.useVlos ∨ st.useBetaComp ∨ st.useDist) := by
    intro k
    have rel := nbCreateHistogram_rel made k
    rw [startHistograms] at rel
    split at rel
    · rename_i started
      rw [decide_eq_true started]
      cases made : all k with
      | none => rw [made] at rel; cases rel
      | some h => rfl
    · rename_i unused
      rw [decide_eq_false unused]
      cases made : all k with
      | none => rfl
      | some h => rw [made] at rel; cases rel
  rw [usage k, usage 3]
  by_cases low : k.val < 3
  · rw [decide_eq_true low, decide_eq_true (.inl low), Bool.true_or]
  · have third : ¬(3 : Fin 6).val < 3 := by decide
    simp only [low, third, false_or, decide_false, Bool.false_or]

theorem Alike.of_used (made : nbCreateHistogram lib ctx st bodies hp = some all)
    (used : all k = some h) :
    Alike bodies hp (bodies.countP fun b => (histSlot lib ctx hp b).isSome) h := by
  have rel := nbCreateHistogram_rel made k
  rw [used] at rel
  generalize startHistograms st hp (countBodies bodies).1 (countBodies bodies).2 k = start at rel
  cases rel with
  | some alike => exact alike

theorem headerFits_of_made (made : nbCreateHistogram lib ctx st bodies hp = some all)
    (used : all 0 = some h) (few : bodies.length < 2 ^ 32)
    (some_bin : 0 < h.lambdaBins * h.betaBins) : HeaderFits h := by
  have alike := Alike.of_used made used
  obtain ⟨h', used', generated⟩ := nbCreateHistogram_generated made
  obtain rfl : h = h' := Option.some.inj (used.symm.trans used')
  have within := generated.fits
  refine ⟨?_, ?_, ?_, ?_⟩
  · rw [alike.totalNum]
    exact List.countP_le_length.trans_lt few
  · rw [alike.totalSimulated, countBodies_eq]
    exact List.countP_le_length.trans_lt few
  · exact (Nat.le_mul_of_pos_right _ (Nat.pos_of_mul_pos_left some_bin)).trans_lt within
  · exact (Nat.le_mul_of_pos_left _ (Nat.pos_of_mul_pos_right some_bin)).trans_lt within

end

/-! ## The round trip -/

section
variable {R : Type} [Field R] [LinearOrder R] [IsStrictOrderedRing R] [FloorRing R]

open Foundation.Numerals in
def Near (x y : R) : Prop := |x - y| ≤ 1 / (2 * 10 ^ 15)

structure ReadBin (centre own : CountedBin R) (bin : HistData R) : Prop where
  useBin : bin.useBin = own.useBin
  lambda : Near bin.lambda centre.lambda
  beta : Near bin.beta centre.beta
  variable_ : Near bin.variable_ own.variable_
  err : Near bin.err own.err

/-- What is read for a set: each histogram with its own values in the bins, and the centres
of the bins of the histogram `centre` of it. -/
structure ReadBack (centre : Fin 6 → Fin 6) (all : CountedMain R) (m : MainStruct R) :
    Prop where
  usage : ∀ k, m.usage k = (all k).isSome
  lambdaBins : ∀ k h, all k = some h → (m.histograms k).lambdaBins = h.lambdaBins
  betaBins : ∀ k h, all k = some h → (m.histograms k).betaBins = h.betaBins
  totalNum : ∀ k h, all k = some h → (m.histograms k).totalNum = h.totalNum
  totalSimulated : ∀ k h, all k = some h → (m.histograms k).totalSimulated = h.totalSimulated
  mass : ∀ k h, all k = some h → Near (m.histograms k).massPerParticle h.massPerParticle
  data : ∀ k h c, all k = some h → all (centre k) = some c →
    ∀ i < h.lambdaBins * h.betaBins, ReadBin (c.data i) (h.data i) ((m.histograms k).data i)

/-- A set that is made, written in lines that the reader has room for and read is the same
set, but that all histograms have got the centres of the first. -/
theorem nbReadHistogram_roundTrip (lib : TrigLib R) (floats : FloatLib R) (ctx : HistogramCtx R)
    (st : LikelihoodUse) (bodies : List (Body R)) (hp : HistogramParams R) (all : CountedMain R)
    (few : bodies.length < 2 ^ 32) (some_bin : 0 < hp.lambdaBins * hp.betaBins)
    (made : nbCreateHistogram lib ctx st bodies hp = some all)
    (short : ∀ first, all 0 = some first → ∀ line ∈ printLines all first, ¬tooLong line) :
    ∃ text m, nbPrintHistogram all = some text ∧
      nbReadHistogram floats text = .ok (some m) ∧ ReadBack (fun _ => 0) all m := by
  obtain ⟨first, used, generated⟩ := nbCreateHistogram_generated made
  have alike : ∀ {k h}, all k = some h → Alike bodies hp _ h := fun used => .of_used made used
  have bins : first.lambdaBins * first.betaBins = hp.lambdaBins * hp.betaBins := by
    rw [generated.lambdaBins, generated.betaBins]
  have fits := headerFits_of_made made used few (bins ▸ some_bin)
  obtain ⟨m, run, reads⟩ := nbReadHistogram_printLines floats fits generated.fits
    (bins ▸ some_bin) (short first used)
  have usage : ∀ k, m.usage k = (all k).isSome := fun k =>
    (reads.usage k).trans (nbCreateHistogram_usage made k).symm
  have header : ∀ {k h}, all k = some h → m.usage k = true := fun used => by
    rw [usage, used]
    rfl
  refine ⟨_, m, by rw [nbPrintHistogram, used]; rfl, run, usage, ?_, ?_, ?_, ?_, ?_, ?_⟩
  · intro k h own
    rw [reads.header k (header own), (alike own).lambdaBins, ← (alike used).lambdaBins]
  · intro k h own
    rw [reads.header k (header own), (alike own).betaBins, ← (alike used).betaBins]
  · intro k h own
    rw [reads.header k (header own), (alike own).totalNum, ← (alike used).totalNum]
  · intro k h own
    rw [reads.header k (header own), (alike own).totalSimulated, ← (alike used).totalSimulated]
  · intro k h own
    rw [reads.header k (header own), (alike own).massPerParticle, ← (alike used).massPerParticle]
    exact printedValue_near _
  · intro k h c own centre i lt
    obtain rfl : c = first := Option.some.inj (centre.symm.trans used)
    rw [(alike own).lambdaBins, (alike own).betaBins, ← bins] at lt
    have output : outputOf all i k = ((h.data i).variable_, (h.data i).err) := by
      rw [outputOf, own]
    rw [reads.data k (header own) i lt, printedBin, output]
    refine ⟨?_, printedValue_near _, printedValue_near _, printedValue_near _,
      printedValue_near _⟩
    exact ((alike used).useBin i).trans ((alike own).useBin i).symm

end

theorem nbReadHistogram_roundTrip_ahead :
    ∃ all text m, nbCreateHistogram zeroTrig zeroHistCtx {} [aheadBody 1] fourBins = some all ∧
      nbPrintHistogram all = some text ∧ nbReadHistogram ⟨0, 0⟩ text = .ok (some m) ∧
        ReadBack (fun _ => 0) all m := by
  obtain ⟨all, made⟩ : ∃ all, nbCreateHistogram zeroTrig zeroHistCtx {} [aheadBody 1] fourBins =
      some all := Option.isSome_iff_exists.mp (by decide +kernel)
  have lines : (nbCreateHistogram zeroTrig zeroHistCtx {} [aheadBody 1] fourBins).all (fun all =>
      (all 0).all fun first => (printLines all first).all (¬tooLong ·)) = true := by
    decide +kernel
  rw [made, Option.all_some] at lines
  obtain ⟨text, m, printed, run, back⟩ := nbReadHistogram_roundTrip zeroTrig ⟨0, 0⟩ zeroHistCtx {}
    [aheadBody 1] fourBins all (by decide) (by decide) made (by
      intro first used line mem
      rw [used, Option.all_some] at lines
      exact of_decide_eq_true (List.all_eq_true.mp lines line mem))
  exact ⟨all, text, m, made, printed, run, back⟩

/-- One row of bins whose centres are far away. -/
def farBins : HistogramParams ℚ := ⟨0, 0, 0, -10 ^ 300, 10 ^ 300, 2, -1, 10 ^ 300, 1⟩

def fastBody : Body ℚ := { pos := ⟨1, 0, 0⟩, mass := 1, type := 1, vel := ⟨10 ^ 300, 0, 0⟩ }

theorem read_of_any {made : Option (CountedMain ℚ)} {p : Except ReadFault (Option (MainStruct ℚ)) →
      Bool}
    (run : (made.bind nbPrintHistogram).any (fun text => p (nbReadHistogram ⟨0, 0⟩ text)) = true) :
    ∃ all text, made = some all ∧ nbPrintHistogram all = some text ∧
      p (nbReadHistogram ⟨0, 0⟩ text) = true := by
  obtain ⟨text, printed, holds⟩ := (Option.any_eq_true _ _).mp run
  obtain ⟨all, rfl, printed⟩ := Option.bind_eq_some_iff.mp printed
  exact ⟨all, text, rfl, printed, holds⟩

open Foundation.Numerals in
def ReadsShifted : Except ReadFault (Option (MainStruct ℚ)) → Bool
  | .ok (some m) => decide (((m.histograms 1).data 0).lambda = -1 / 2)
  | _ => false

def ReadsNone : Except ReadFault (Option (MainStruct ℚ)) → Bool
  | .ok none => true
  | _ => false

def ReadsNull : Except ReadFault (Option (MainStruct ℚ)) → Bool
  | .error .nullPointer => true
  | _ => false

/-- The other histograms of a set are made without the centres of their bins, a line can be
longer than the reader's buffer, and without bins there is nothing to read. -/
theorem nbReadHistogram_centres :
    (∃ all text m, nbCreateHistogram zeroTrig zeroHistCtx {} [aheadBody 1] fourBins = some all ∧
        nbPrintHistogram all = some text ∧ nbReadHistogram ⟨0, 0⟩ text = .ok (some m) ∧
          ¬ReadBack id all m) ∧
      (∃ all text, nbCreateHistogram zeroTrig { zeroHistCtx with IterMax := 0 }
          { useVlos := true } (List.replicate 11 fastBody) farBins = some all ∧
        nbPrintHistogram all = some text ∧ nbReadHistogram (⟨0, 0⟩ : FloatLib ℚ) text = .ok none) ∧
      ∃ all text, nbCreateHistogram zeroTrig zeroHistCtx {} [] { fourBins with lambdaBins := 0 } =
          some all ∧ nbPrintHistogram all = some text ∧
        nbReadHistogram (⟨0, 0⟩ : FloatLib ℚ) text = .error .nullPointer := by
  refine ⟨?_, ?_, ?_⟩
  · have own : ((nbCreateHistogram zeroTrig zeroHistCtx {} [aheadBody 1] fourBins).bind
        (· 1)).map (fun h => ((h.data 0).lambda, h.lambdaBins * h.betaBins)) = some (0, 4) := by
      decide +kernel
    obtain ⟨all, text, made, printed, read⟩ := @read_of_any
      (nbCreateHistogram zeroTrig zeroHistCtx {} [aheadBody 1] fourBins) ReadsShifted
      (by decide +kernel)
    rw [made, Option.bind_some, Option.map_eq_some_iff] at own
    obtain ⟨h, used, own⟩ := own
    unfold ReadsShifted at read
    split at read
    · rename_i m run
      refine ⟨all, text, m, made, printed, run, fun back => ?_⟩
      rw [Prod.mk.injEq] at own
      have near := (back.data 1 h h used used 0 (by rw [own.2]; decide)).lambda
      rw [of_decide_eq_true read, own.1] at near
      exact absurd near (by rw [Near]; norm_num)
    · cases read
  · obtain ⟨all, text, made, printed, read⟩ := @read_of_any
      (nbCreateHistogram zeroTrig { zeroHistCtx with IterMax := 0 } { useVlos := true }
        (List.replicate 11 fastBody) farBins) ReadsNone (by decide +kernel)
    unfold ReadsNone at read
    split at read
    · rename_i run
      exact ⟨all, text, made, printed, run⟩
    · cases read
  · obtain ⟨all, text, made, printed, read⟩ := @read_of_any
      (nbCreateHistogram zeroTrig zeroHistCtx {} [] { fourBins with lambdaBins := 0 }) ReadsNull
      (by decide +kernel)
    unfold ReadsNull at read
    split at read
    · rename_i run
      exact ⟨all, text, made, printed, run⟩
    · cases read

end MilkyWay.NBody
