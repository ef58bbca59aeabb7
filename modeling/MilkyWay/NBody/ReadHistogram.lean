import Mathlib.Data.Rat.Floor
import MilkyWay.Foundation.Scanning
import MilkyWay.NBody.Histogram

/-! The file of a set of histograms as it is read: lines of the header in any order, each
once, and lines of data that are stored one after the other. The bins are allocated at the
first line of data, and neither their number nor that they are there is asked again. -/

namespace MilkyWay.NBody

open Foundation

structure ReadHeader (R : Type) where
  used : Bool := false
  readOpeningTag : Bool := false
  readClosingTag : Bool := false
  readParams : Bool := false
  readNGen : Bool := false
  readMass : Bool := false
  readTotalSim : Bool := false
  readLambdaBins : Bool := false
  readBetaBins : Bool := false
  nGen : ℕ := 0
  totalSim : ℕ := 0
  lambdaBins : ℕ := 0
  betaBins : ℕ := 0
  mass : R

structure ReadHistograms (R : Type) where
  nBin : ℕ
  usage : Fin 6 → Bool
  data : Fin 6 → ℕ → HistData R

inductive ReadFault where
  | nullPointer
  | outOfRange
deriving DecidableEq

structure ReadState (R : Type) where
  head : ReadHeader R
  all : Option (ReadHistograms R) := none
  fileCount : ℕ := 0

def unsignedOf (z : ℤ) : ℕ := (z % 2 ^ 32).toNat

section
variable {R : Type} [Field R] (lib : FloatLib R)

/-! ## The lines of the header -/

def skipLine (h : ReadHeader R) (line : List Char) : Option (ReadHeader R) :=
  if line.head? = some '#' ∨ line.head? = some '\n' then some h
  else if line.head? = some '!' then some { h with used := true }
  else none

def tagLine (h : ReadHeader R) (line : List Char) : Option (ReadHeader R) :=
  if h.readOpeningTag = false ∧ line = "<histogram>\n".toList then
    some { h with readOpeningTag := true }
  else if h.readClosingTag = false ∧ line = "</histogram>\n".toList then
    some { h with readClosingTag := true }
  else none

def paramsLine (h : ReadHeader R) (line : List Char) : Option (ReadHeader R) :=
  if h.readParams then none
  else if (sscanf lib (format " phi = %lf , theta = %lf , psi = %lf \n".toList) line).length =
      3 then
    some { h with readParams := true }
  else none

def countLine (read : Bool) (f : String) (set : ℕ → ReadHeader R) (line : List Char) :
    Option (ReadHeader R) :=
  if read then none
  else match sscanf lib (format f.toList) line with
    | [.integer z] => some (set (unsignedOf z))
    | _ => none

def massLine (h : ReadHeader R) (line : List Char) : Option (ReadHeader R) :=
  if h.readMass then none
  else match sscanf lib (format " massPerParticle = %lf \n".toList) line with
    | [.double mass] => some { h with readMass := true, mass := mass }
    | _ => none

def headerLine (h : ReadHeader R) (line : List Char) : Option (ReadHeader R) :=
  skipLine h line <|> tagLine h line <|> paramsLine lib h line <|>
    countLine lib h.readNGen " n = %u \n" (fun n => { h with readNGen := true, nGen := n }) line <|>
    massLine lib h line <|>
    countLine lib h.readTotalSim " totalSimulated = %u \n"
      (fun n => { h with readTotalSim := true, totalSim := n }) line <|>
    countLine lib h.readLambdaBins " lambdaBins = %u \n"
      (fun n => { h with readLambdaBins := true, lambdaBins := n }) line <|>
    countLine lib h.readBetaBins " betaBins = %u \n"
      (fun n => { h with readBetaBins := true, betaBins := n }) line

/-! ## The lines of data -/

def dataFormat (used : Bool) : List Directive :=
  if used then
    format "%d %lf %lf %lf %lf %lf %lf %lf %lf %lf %lf %lf %lf %lf %lf\n".toList
  else format "%d %lf %lf %lf %lf %lf %lf %lf %lf\n".toList

def dataFields (h : ReadHeader R) (line : List Char) : List (Scanned R) :=
  sscanf lib (dataFormat h.used) line

def completeLine (h : ReadHeader R) (line : List Char) : Bool :=
  (dataFields lib h line).length == if h.used then 15 else 9

def realField (fields : List (Scanned R)) (i : ℕ) : R :=
  match fields[i]? with
  | some (Scanned.double x) => x
  | _ => 0

def binOf (fields : List (Scanned R)) (k : Fin 6) : HistData R where
  useBin := match fields[0]? with
    | some (Scanned.integer z) => unsignedOf z != 0
    | _ => false
  lambda := realField fields 1
  beta := realField fields 2
  variable_ := realField fields (3 + 2 * k)
  err := realField fields (4 + 2 * k)

def ReadHistograms.build (h : ReadHeader R) : ReadHistograms R where
  nBin := h.lambdaBins * h.betaBins % 2 ^ 32
  usage k := k.val < 3 || h.used
  data _ _ := ⟨false, 0, 0, 0, 0⟩

def ReadHistograms.store (all : ReadHistograms R) (used : Bool) (fileCount : ℕ)
    (fields : List (Scanned R)) : ReadHistograms R :=
  { all with
    data := fun k =>
      if (k.val < 3 ∨ used) ∧ all.usage k then
        Function.update (all.data k) fileCount (binOf fields k)
      else all.data k }

def dataLine (s : ReadState R) (line : List Char) : Except ReadFault (Bool × ReadState R) :=
  let all := if s.head.readBetaBins && s.all.isNone then some (.build s.head) else s.all
  match all with
  | none => .error .nullPointer
  | some all =>
      if s.fileCount < all.nBin then
        let all := all.store s.head.used s.fileCount (dataFields lib s.head line)
        if completeLine lib s.head line then
          .ok (false, { s with all := some all, fileCount := s.fileCount + 1 })
        else .ok (true, { s with all := some all })
      else .error .outOfRange

/-! ## The file -/

def fgetsLines (size : ℕ) : ℕ → List Char → List Char → List (List Char)
  | _, [], [] => []
  | _, line, [] => [line.reverse.takeWhile (· ≠ '\x00')]
  | room, line, c :: file =>
      if c = '\n' ∨ room ≤ 1 then
        (c :: line).reverse.takeWhile (· ≠ '\x00') :: fgetsLines size (size - 1) [] file
      else fgetsLines size (room - 1) (c :: line) file

def tooLong (line : List Char) : Prop := 1024 ≤ line.length + 1

instance (line : List Char) : Decidable (tooLong line) := inferInstanceAs (Decidable (_ ≤ _))

def readLine (s : ReadState R) (line : List Char) : Except ReadFault (Bool × ReadState R) :=
  if tooLong line then .ok (true, s)
  else match headerLine lib s.head line with
    | some head => .ok (false, { s with head })
    | none => dataLine lib s line

def readLines : List (List Char) → ReadState R → Except ReadFault (Bool × ReadState R)
  | [], s => .ok (false, s)
  | line :: lines, s =>
      match readLine lib s line with
      | .ok (false, s) => readLines lines s
      | result => result

def ReadHistograms.finish (all : ReadHistograms R) (h : ReadHeader R) : MainStruct R where
  usage := all.usage
  histograms k :=
    if all.usage k then ⟨h.lambdaBins, h.betaBins, h.nGen, h.totalSim, h.mass, all.data k⟩
    else ⟨0, 0, 0, 0, 0, all.data k⟩

/-- The histograms of a file that could be opened. -/
def nbReadHistogram (file : List Char) : Except ReadFault (Option (MainStruct R)) :=
  if file.count '\n' = 0 then .ok none
  else match readLines lib (fgetsLines 1024 1023 [] file) ⟨{ mass := 0 }, none, 0⟩ with
    | .error fault => .error fault
    | .ok (error, s) =>
        match s.all with
        | none => .error .nullPointer
        | some all =>
            let used_hist := (List.finRange 6).countP fun k =>
              decide (k.val < if s.head.used then 6 else 3) && all.usage k
            if error ∨ used_hist = 0 then .ok none else .ok (some (all.finish s.head))

/-! ## What the lines are -/

/-- A file by its lines: those of data with the header before them, up to the end or a line
at which the reading ends with an error, whether it does, and the header there. -/
structure Survey (R : Type) where
  data : List (ReadHeader R × List Char)
  cut : Bool
  last : ReadHeader R

def surveyLines : List (List Char) → ReadHeader R → Survey R
  | [], h => ⟨[], false, h⟩
  | line :: lines, h =>
      if tooLong line then ⟨[], true, h⟩
      else match headerLine lib h line with
        | some h => surveyLines lines h
        | none =>
            if completeLine lib h line then
              let rest := surveyLines lines h
              { rest with data := (h, line) :: rest.data }
            else ⟨[(h, line)], true, h⟩

def surveyFile (file : List Char) : Survey R :=
  surveyLines lib (fgetsLines 1024 1023 [] file) { mass := 0 }

def ReadHistograms.storeAll (all : ReadHistograms R) (fileCount : ℕ) :
    List (ReadHeader R × List Char) → ReadHistograms R
  | [] => all
  | (h, line) :: lines =>
      (all.store h.used fileCount (dataFields lib h line)).storeAll (fileCount + 1) lines

variable {lib} {h : ReadHeader R} {line : List Char} {all : ReadHistograms R}

theorem readLine_header {s : ReadState R} {head : ReadHeader R} (short : ¬tooLong line)
    (header : headerLine lib s.head line = some head) :
    readLine lib s line = .ok (false, { s with head }) := by
  rw [readLine, if_neg short, header]

theorem readLine_data {s : ReadState R} (short : ¬tooLong line)
    (data : headerLine lib s.head line = none) : readLine lib s line = dataLine lib s line := by
  rw [readLine, if_neg short, data]

theorem dataLine_built {s : ReadState R} (built : s.all = some all) (line : List Char) :
    dataLine lib s line =
      if s.fileCount < all.nBin then
        let stored := some (all.store s.head.used s.fileCount (dataFields lib s.head line))
        if completeLine lib s.head line then
          .ok (false, { s with all := stored, fileCount := s.fileCount + 1 })
        else .ok (true, { s with all := stored })
      else .error .outOfRange := by
  rw [dataLine, built, Option.isNone_some, Bool.and_false, if_neg Bool.false_ne_true]

theorem readLines_built (lines : List (List Char)) {s : ReadState R} (built : s.all = some all)
    (room : s.fileCount ≤ all.nBin) :
    if all.nBin < s.fileCount + (surveyLines lib lines s.head).data.length then
      readLines lib lines s = .error .outOfRange
    else ∃ fileCount, readLines lib lines s =
      .ok ((surveyLines lib lines s.head).cut, ⟨(surveyLines lib lines s.head).last,
        some (all.storeAll lib s.fileCount (surveyLines lib lines s.head).data), fileCount⟩) := by
  induction lines generalizing s all with
  | nil =>
      rw [surveyLines, if_neg (by simpa using room)]
      refine ⟨s.fileCount, ?_⟩
      change _ = Except.ok (false, ReadState.mk s.head (some all) s.fileCount)
      rw [← built]
      rfl
  | cons line lines ih =>
      by_cases long : tooLong line
      · rw [surveyLines, if_pos long, if_neg (by simpa using room)]
        refine ⟨s.fileCount, ?_⟩
        rw [readLines, readLine, if_pos long, ReadHistograms.storeAll, ← built]
      · cases header : headerLine lib s.head line with
        | some head =>
            have turn := readLine_header long header
            simp only [surveyLines, if_neg long, header, readLines, turn]
            exact ih (s := { s with head }) built room
        | none =>
            have turn := (readLine_data long header).trans (dataLine_built built line)
            simp only [surveyLines, if_neg long, header, readLines, turn]
            by_cases fits : s.fileCount < all.nBin
            · cases complete : completeLine lib s.head line with
              | true =>
                  have rest := ih (s := ⟨s.head,
                    some (all.store s.head.used s.fileCount (dataFields lib s.head line)),
                    s.fileCount + 1⟩) rfl fits
                  simp only [if_pos fits, if_true, List.length_cons, ReadHistograms.storeAll]
                  rw [show s.fileCount + ((surveyLines lib lines s.head).data.length + 1) =
                    s.fileCount + 1 + (surveyLines lib lines s.head).data.length by omega]
                  exact rest
              | false =>
                  have within : ¬all.nBin < s.fileCount + 1 := by omega
                  simp only [if_pos fits, Bool.false_eq_true, if_false, List.length_singleton,
                    if_neg within, ReadHistograms.storeAll]
                  exact ⟨s.fileCount, rfl⟩
            · have past : all.nBin < s.fileCount + 1 := by omega
              simp only [if_neg fits]
              refine (if_pos ?_).mpr trivial
              split
              · rw [List.length_cons]
                omega
              · exact past

theorem readLines_start (lines : List (List Char)) (h : ReadHeader R) :
    match (surveyLines lib lines h).data with
    | [] => readLines lib lines ⟨h, none, 0⟩ =
        .ok ((surveyLines lib lines h).cut, ⟨(surveyLines lib lines h).last, none, 0⟩)
    | first :: rest =>
        if first.1.readBetaBins = false then
          readLines lib lines ⟨h, none, 0⟩ = .error .nullPointer
        else if (ReadHistograms.build first.1).nBin < (first :: rest).length then
          readLines lib lines ⟨h, none, 0⟩ = .error .outOfRange
        else ∃ fileCount, readLines lib lines ⟨h, none, 0⟩ =
          .ok ((surveyLines lib lines h).cut, ⟨(surveyLines lib lines h).last,
            some ((ReadHistograms.build first.1).storeAll lib 0 (first :: rest)), fileCount⟩) := by
  induction lines generalizing h with
  | nil => rfl
  | cons line lines ih =>
      by_cases long : tooLong line
      · simp only [surveyLines, if_pos long, readLines, readLine]
      · cases header : headerLine lib h line with
        | some head =>
            have turn := @readLine_header _ _ lib line ⟨h, none, 0⟩ head long header
            simp only [surveyLines, if_neg long, header, readLines, turn]
            exact ih head
        | none =>
            have turn := @readLine_data _ _ lib line ⟨h, none, 0⟩ long header
            obtain ⟨rest, first⟩ : ∃ rest, (surveyLines lib (line :: lines) h).data =
                (h, line) :: rest := by
              simp only [surveyLines, if_neg long, header]
              split
              · exact ⟨_, rfl⟩
              · exact ⟨[], rfl⟩
            rw [first]
            dsimp only
            cases sized : h.readBetaBins with
            | false =>
                have fails : dataLine lib ⟨h, none, 0⟩ line = .error .nullPointer := by
                  simp only [dataLine, sized, Bool.false_and, Bool.false_eq_true, if_false]
                rw [if_pos rfl, readLines, turn, fails]
            | true =>
                -- the state with the histograms built does the same from here on
                have turn' := @readLine_data _ _ lib line ⟨h, some (.build h), 0⟩ long header
                have same : dataLine lib ⟨h, none, 0⟩ line =
                    dataLine lib ⟨h, some (.build h), 0⟩ line := by
                  simp only [dataLine, sized, Bool.true_and, Option.isNone_none,
                    Option.isNone_some, if_true, Bool.false_eq_true, if_false]
                have built := @readLines_built _ _ lib (.build h) (line :: lines)
                  ⟨h, some (.build h), 0⟩ rfl (Nat.zero_le _)
                rw [first, Nat.zero_add] at built
                rw [if_neg (by decide)]
                rw [readLines, turn', ← same, ← turn] at built
                exact built

theorem storeAll_usage (lines : List (ReadHeader R × List Char)) (fileCount : ℕ) :
    (all.storeAll lib fileCount lines).usage = all.usage := by
  induction lines generalizing all fileCount with
  | nil => rfl
  | cons x lines ih => exact ih (fileCount + 1)

theorem storeAll_before {lines : List (ReadHeader R × List Char)} {fileCount p : ℕ} (k : Fin 6)
    (before : p < fileCount) : (all.storeAll lib fileCount lines).data k p = all.data k p := by
  induction lines generalizing all fileCount with
  | nil => rfl
  | cons x lines ih =>
      refine (ih (Nat.lt_succ_of_lt before)).trans ?_
      simp only [ReadHistograms.store]
      split
      · exact Function.update_of_ne before.ne _ _
      · rfl

theorem storeAll_data {lines : List (ReadHeader R × List Char)} {k : Fin 6}
    (usage : all.usage k = true) (saved : ∀ x ∈ lines, k.val < 3 ∨ x.1.used = true)
    (fileCount : ℕ) {n : ℕ} (lt : n < lines.length) :
    (all.storeAll lib fileCount lines).data k (fileCount + n) =
      binOf (dataFields lib lines[n].1 lines[n].2) k := by
  induction lines generalizing all fileCount n with
  | nil => exact absurd lt n.not_lt_zero
  | cons x lines ih =>
      have first := saved x List.mem_cons_self
      cases n with
      | zero =>
          refine (storeAll_before k (Nat.lt_succ_self fileCount)).trans ?_
          simp only [ReadHistograms.store, if_pos (And.intro first usage), Function.update_self]
          rfl
      | succ n =>
          have rest := @ih (all.store x.1.used fileCount (dataFields lib x.1 x.2)) usage
            (fun y mem => saved y (List.mem_cons_of_mem x mem)) (fileCount + 1) n
            (Nat.lt_of_succ_lt_succ lt)
          rw [Nat.add_right_comm, Nat.add_assoc] at rest
          exact rest

theorem orElse_some {α : Type*} {x y : Option α} {a : α} (h : (x <|> y) = some a) :
    x = some a ∨ y = some a := by
  cases x with
  | none => exact .inr h
  | some b => exact .inl h

theorem countLine_some {read : Bool} {f : String} {set : ℕ → ReadHeader R} {h' : ReadHeader R}
    (turn : countLine lib read f set line = some h') : ∃ n, h' = set n := by
  unfold countLine at turn
  split at turn
  · cases turn
  · split at turn
    · exact ⟨_, (Option.some.inj turn).symm⟩
    · cases turn

theorem headerLine_used {h' : ReadHeader R} (turn : headerLine lib h line = some h')
    (used : h.used = true) : h'.used = true := by
  rcases orElse_some turn with skip | turn
  · unfold skipLine at skip
    split at skip
    · cases skip
      exact used
    · split at skip <;> cases skip
      rfl
  rcases orElse_some turn with tag | turn
  · unfold tagLine at tag
    split at tag
    · cases tag
      exact used
    · split at tag <;> cases tag
      exact used
  rcases orElse_some turn with params | turn
  · unfold paramsLine at params
    split at params
    · cases params
    · split at params <;> cases params
      exact used
  rcases orElse_some turn with count | turn
  · obtain ⟨n, rfl⟩ := countLine_some count
    exact used
  rcases orElse_some turn with mass | turn
  · unfold massLine at mass
    split at mass
    · cases mass
    · split at mass <;> cases mass
      exact used
  rcases orElse_some turn with count | turn
  · obtain ⟨n, rfl⟩ := countLine_some count
    exact used
  rcases orElse_some turn with count | count
  · obtain ⟨n, rfl⟩ := countLine_some count
    exact used
  · obtain ⟨n, rfl⟩ := countLine_some count
    exact used

theorem surveyLines_used (lines : List (List Char)) {h : ReadHeader R} (used : h.used = true) :
    ∀ x ∈ (surveyLines lib lines h).data, x.1.used = true := by
  induction lines generalizing h with
  | nil =>
      intro x mem
      cases mem
  | cons line lines ih =>
      intro x mem
      unfold surveyLines at mem
      split at mem
      · cases mem
      · split at mem
        · rename_i head header
          exact ih (headerLine_used header used) x mem
        · split at mem
          · rcases List.mem_cons.mp mem with rfl | later
            · exact used
            · exact ih used x later
          · rw [List.mem_singleton.mp mem]
            exact used

theorem surveyLines_first (lines : List (List Char)) {h : ReadHeader R}
    {first : ReadHeader R × List Char} {rest : List (ReadHeader R × List Char)}
    (data : (surveyLines lib lines h).data = first :: rest) (used : first.1.used = true) :
    ∀ x ∈ rest, x.1.used = true := by
  induction lines generalizing h with
  | nil => cases data
  | cons line lines ih =>
      unfold surveyLines at data
      split at data
      · cases data
      · split at data
        · exact ih data
        · split at data
          · cases data
            exact surveyLines_used lines used
          · cases data
            intro x mem
            cases mem

/-! ## When a file is read safely -/

variable (lib)

/-- No line is stored outside the arrays or before there are any, and histograms are handed
out only if there is a line of data for each bin of theirs, which is what the bin holds. -/
structure ReadSafely (file : List Char) : Prop where
  noFault : ∀ fault, nbReadHistogram lib file ≠ .error fault
  filled : ∀ all, nbReadHistogram lib file = .ok (some all) → ∀ k, all.usage k = true →
    (surveyFile lib file).data.length =
        (all.histograms k).lambdaBins * (all.histograms k).betaBins ∧
      ∀ n (lt : n < (surveyFile lib file).data.length), (all.histograms k).data n =
        binOf (dataFields lib (surveyFile lib file).data[n].1 (surveyFile lib file).data[n].2) k

/-- There is a line of data, the numbers of bins come before the first one and no more of
them follow than bins; without an error there are as many as the header says last. -/
def BinsForData (s : Survey R) : Prop :=
  ∃ first rest, s.data = first :: rest ∧ first.1.readBetaBins = true ∧
    s.data.length ≤ first.1.lambdaBins * first.1.betaBins % 2 ^ 32 ∧
    (s.cut = false → s.data.length = s.last.lambdaBins * s.last.betaBins)

variable {lib}

theorem used_hist_pos {used : Bool} {usage : Fin 6 → Bool} (counts : usage 0 = true) :
    (List.finRange 6).countP (fun k => decide (k.val < if used then 6 else 3) && usage k) ≠ 0 := by
  refine Nat.ne_of_gt (List.countP_pos_iff.mpr ⟨0, List.mem_finRange 0, ?_⟩)
  rw [counts, Bool.and_true, decide_eq_true_eq]
  cases used <;> decide

theorem nbReadHistogram_lines {file : List Char} (some_line : file.count '\n' ≠ 0) {error : Bool}
    {last : ReadHeader R} {fileCount : ℕ}
    (run : readLines lib (fgetsLines 1024 1023 [] file) ⟨{ mass := 0 }, none, 0⟩ =
      .ok (error, ⟨last, some all, fileCount⟩)) (counts : all.usage 0 = true) :
    nbReadHistogram lib file = .ok (if error then none else some (all.finish last)) := by
  rw [nbReadHistogram, if_neg some_line, run]
  cases error with
  | true => exact if_pos (.inl rfl)
  | false =>
      refine if_neg ?_
      rintro (error | unused)
      · cases error
      · exact used_hist_pos counts unused

theorem safe_iff_of_read {file : List Char} {first : ReadHeader R × List Char}
    {rest : List (ReadHeader R × List Char)}
    (data : (surveyFile lib file).data = first :: rest)
    (run : nbReadHistogram lib file = .ok (if (surveyFile lib file).cut then none
      else some (((ReadHistograms.build first.1).storeAll lib 0 (first :: rest)).finish
        (surveyFile lib file).last))) :
    ReadSafely lib file ↔ ((surveyFile lib file).cut = false →
      (surveyFile lib file).data.length =
        (surveyFile lib file).last.lambdaBins * (surveyFile lib file).last.betaBins) := by
  cases cut : (surveyFile lib file).cut with
  | true =>
      rw [cut, if_pos rfl] at run
      refine iff_of_true ⟨?_, ?_⟩ ?_
      · intro fault fails
        rw [run] at fails
        cases fails
      · intro all reads
        rw [run] at reads
        cases reads
      · intro whole
        cases whole
  | false =>
      rw [cut, if_neg Bool.false_ne_true] at run
      refine ⟨?_, ?_⟩
      · intro safe _
        have counts : (ReadHistograms.finish ((ReadHistograms.build first.1).storeAll lib 0
            (first :: rest)) (surveyFile lib file).last).usage 0 = true :=
          congrFun (storeAll_usage _ _) 0
        have filled := (safe.filled _ run 0 counts).1
        simp only [ReadHistograms.finish] at counts filled
        rwa [if_pos counts] at filled
      · intro whole
        refine ⟨?_, ?_⟩
        · intro fault fails
          rw [run] at fails
          cases fails
        · intro all reads k usage
          rw [run] at reads
          cases reads
          have usage' : (ReadHistograms.build first.1).usage k = true :=
            (congrFun (storeAll_usage _ _) k).symm.trans usage
          have saved : ∀ x ∈ first :: rest, k.val < 3 ∨ x.1.used = true := by
            rcases Bool.or_eq_true_iff.mp usage' with low | used
            · exact fun x _ => .inl (of_decide_eq_true low)
            · intro x mem
              rcases List.mem_cons.mp mem with rfl | later
              · exact .inr used
              · exact .inr (surveyLines_first _ data used x later)
          simp only [ReadHistograms.finish] at usage ⊢
          rw [if_pos usage]
          refine ⟨whole rfl, ?_⟩
          intro n lt
          have stored := @storeAll_data _ _ lib _ _ k usage' saved 0 n (data ▸ lt)
          rw [Nat.zero_add] at stored
          simp only [data]
          exact stored

theorem nbReadHistogram_safe_iff (lib : FloatLib R) (file : List Char) :
    ReadSafely lib file ↔ file.count '\n' = 0 ∨ BinsForData (surveyFile lib file) := by
  by_cases no_line : file.count '\n' = 0
  · have run : nbReadHistogram lib file = .ok none := if_pos no_line
    refine ⟨fun _ => .inl no_line, fun _ => ⟨?_, ?_⟩⟩
    · intro fault fails
      rw [run] at fails
      cases fails
    · intro all reads
      rw [run] at reads
      cases reads
  · have start := @readLines_start _ _ lib (fgetsLines 1024 1023 [] file) { mass := 0 }
    rw [show surveyLines lib (fgetsLines 1024 1023 [] file) { mass := 0 } =
      surveyFile lib file from rfl] at start
    have faulty : ∀ {fault}, readLines lib (fgetsLines 1024 1023 [] file)
        ⟨{ mass := 0 }, none, 0⟩ = .error fault → nbReadHistogram lib file = .error fault := by
      intro fault run
      rw [nbReadHistogram, if_neg no_line, run]
    have unsafe_ : ∀ {fault}, nbReadHistogram lib file = .error fault → ¬ReadSafely lib file :=
      fun run safe => safe.noFault _ run
    simp only [no_line, false_or]
    cases data : (surveyFile lib file).data with
    | nil =>
        rw [data] at start
        have fails : nbReadHistogram lib file = .error .nullPointer := by
          rw [nbReadHistogram, if_neg no_line]
          simp only [start]
        refine iff_of_false (unsafe_ fails) ?_
        rintro ⟨first, rest, none, -⟩
        rw [data] at none
        cases none
    | cons first rest =>
        rw [data] at start
        dsimp only at start
        by_cases sized : first.1.readBetaBins = false
        · rw [if_pos sized] at start
          refine iff_of_false (unsafe_ (faulty start)) ?_
          rintro ⟨first', rest', eq, sized', -⟩
          rw [data] at eq
          cases eq
          rw [sized] at sized'
          cases sized'
        · rw [if_neg sized] at start
          by_cases past : (ReadHistograms.build first.1).nBin < (first :: rest).length
          · rw [if_pos past] at start
            refine iff_of_false (unsafe_ (faulty start)) ?_
            rintro ⟨first', rest', eq, -, room, -⟩
            rw [data] at eq room
            cases eq
            exact absurd past (not_lt.mpr room)
          · rw [if_neg past] at start
            obtain ⟨fileCount, run⟩ := start
            refine (safe_iff_of_read data (nbReadHistogram_lines no_line run
              (congrFun (storeAll_usage _ _) 0))).trans ?_
            refine ⟨?_, ?_⟩
            · intro whole
              exact ⟨first, rest, data, Bool.eq_true_of_not_eq_false sized,
                data ▸ not_lt.mp past, whole⟩
            · rintro ⟨-, -, -, -, -, whole⟩
              exact whole

end

/-- Two lines of data for one bin, and a file that ends before the first one. -/
theorem nbReadHistogram_lines_missed :
    ¬ReadSafely (⟨0, 0⟩ : FloatLib ℚ)
        "lambdaBins = 1\nbetaBins = 1\n1 0 0 0 0 0 0 0 0\n1 0 0 0 0 0 0 0 0\n".toList ∧
      ¬ReadSafely (⟨0, 0⟩ : FloatLib ℚ) "lambdaBins = 1\nbetaBins = 1\n".toList :=
  ⟨fun safe => safe.noFault .outOfRange rfl, fun safe => safe.noFault .nullPointer rfl⟩

end MilkyWay.NBody
