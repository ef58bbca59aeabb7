import MilkyWay.Foundation.Run
import MilkyWay.Separation.Conservation

/-! The passes of a summarization. The host sizes the work-groups once and launches the kernel
for a shrinking number of elements, from one of two buffers into the other. Where no index
wraps a run is the one of `summarizeRest`: `run_pass`. A work-group that is not of a power of
two leaves elements out: `runSummarization_iff`. -/

namespace MilkyWay.Separation.Summarization

open Foundation

/-! ## The host and the kernel -/

def mwNextMultiple (b n : ℕ) : ℕ := if n % b ≠ 0 then n + (b - n % b) else n

/-- The size of the work-groups on a device that allows `maxGroupSize` for the kernel. -/
def setSummarizationWorkgroupSize (maxGroupSize : ℕ) (warpSize : UInt32) : Option ℕ :=
  if maxGroupSize = 1 then none
  else
    let nextMultiple := mwNextMultiple 64 warpSize.toNat % 2 ^ 32
    let groupSize := if nextMultiple ≤ maxGroupSize then nextMultiple else maxGroupSize
    some (if 128 < groupSize then 128 else groupSize)

section
variable {R : Type} [Zero R] [Add R] [Sub R]

def workGroup (localSize nElements bufferOffset : ℕ) (buffer : ℕ → Kahan R) (groupId : ℕ) :
    Kahan R :=
  let sdata := fun lid =>
    let gid := (groupId * localSize + lid) % 2 ^ 32
    if gid < nElements then buffer ((bufferOffset + gid) % 2 ^ 32) else 0
  halving Kahan.reduction localSize (localSize / 2) sdata 0

/-- A launch writes one element for each of its work-groups and leaves what lies beyond. There
is none without work-items or with empty groups. -/
def enqueueNDRangeKernel (localSize nElements bufferOffset : ℕ) (results buffer : ℕ → Kahan R) :
    Option (ℕ → Kahan R) :=
  let global := mwNextMultiple localSize nElements
  if localSize = 0 ∨ global = 0 then none
  else some fun groupId =>
    if groupId < global / localSize then workGroup localSize nElements bufferOffset buffer groupId
    else results groupId

structure Passes (R : Type) where
  nElements : ℕ
  sumBufs : (ℕ → Kahan R) × (ℕ → Kahan R)

/-- A turn of the host's loop, that ends with reading the first element. -/
def pass (localSize : ℕ) : Turn (Passes R) (Kahan R) := fun s =>
  if s.nElements ≤ 1 then some (.inr (s.sumBufs.1 0))
  else
    let sumBufs := s.sumBufs.swap
    let global := mwNextMultiple localSize s.nElements
    (enqueueNDRangeKernel localSize s.nElements 0 sumBufs.1 sumBufs.2).map fun results =>
      .inl ⟨mwDivRoundup global localSize % 2 ^ 32, (results, sumBufs.2)⟩

/-- The first launch reads from an offset into one of the output buffers, the later ones what
the launch before has written. The calls for the device all succeed where they can. -/
def runSummarization (fuel localSize : ℕ) (sumBufs : (ℕ → Kahan R) × (ℕ → Kahan R))
    (outBg outStreams : ℕ → Kahan R) (nElements which : ℕ) : Option (Kahan R) :=
  let (buf, offset) := if which = 0 then (outBg, 0)
    else (outStreams, (which - 1) * nElements % 2 ^ 32)
  let global := mwNextMultiple localSize nElements
  (enqueueNDRangeKernel localSize nElements offset sumBufs.1 buf).bind fun results =>
    (pass localSize).run fuel
      ⟨mwDivRoundup global localSize % 2 ^ 32, (results, sumBufs.2)⟩

end

/-! ## Sizes -/

theorem le_128_of_chosen {maxGroupSize localSize : ℕ} {warpSize : UInt32}
    (chosen : setSummarizationWorkgroupSize maxGroupSize warpSize = some localSize) :
    localSize ≠ 1 ∧ localSize ≤ 128 := by
  unfold setSummarizationWorkgroupSize at chosen
  have multiple : mwNextMultiple 64 warpSize.toNat % 2 ^ 32 % 64 = 0 := by
    unfold mwNextMultiple
    split <;> omega
  split at chosen
  · cases chosen
  · simp only [Option.some.injEq] at chosen
    split at chosen <;> split at chosen <;> omega

variable {localSize nElements : ℕ}

theorem mwNextMultiple_eq (some : 0 < localSize) :
    mwNextMultiple localSize nElements = mwDivRoundup nElements localSize * localSize := by
  have divided := Nat.div_add_mod' nElements localSize
  have rest := Nat.mod_lt nElements some
  unfold mwNextMultiple mwDivRoundup
  split
  · rw [Nat.succ_mul]
    omega
  · omega

theorem mwNextMultiple_div (some : 0 < localSize) :
    mwNextMultiple localSize nElements / localSize = mwDivRoundup nElements localSize := by
  rw [mwNextMultiple_eq some, Nat.mul_div_cancel _ some]

theorem mwDivRoundup_mwNextMultiple (some : 0 < localSize) :
    mwDivRoundup (mwNextMultiple localSize nElements) localSize =
      mwDivRoundup nElements localSize := by
  rw [mwNextMultiple_eq some, mwDivRoundup, Nat.mul_mod_left, if_neg (fun ne => ne rfl),
    Nat.mul_div_cancel _ some]

theorem mwDivRoundup_le (some : 0 < localSize) : mwDivRoundup nElements localSize ≤ nElements := by
  have divided := Nat.div_add_mod' nElements localSize
  have least : nElements / localSize ≤ nElements / localSize * localSize :=
    Nat.le_mul_of_pos_right _ some
  unfold mwDivRoundup
  split <;> omega

theorem mwNextMultiple_le (halves : Halves localSize nElements) (some : 0 < localSize)
    (small : localSize ≤ 128) (word : nElements < 2 ^ 32) :
    mwNextMultiple localSize nElements ≤ 2 ^ 32 := by
  by_cases short : nElements < localSize
  · unfold mwNextMultiple
    split <;> omega
  · obtain ⟨m, rfl⟩ := halves.exists_pow some.ne' (Nat.le_of_not_lt short)
    have few : m ≤ 7 := by
      by_contra many
      have le : 2 ^ 8 ≤ 2 ^ m := Nat.pow_le_pow_right Nat.two_pos (by omega)
      omega
    obtain ⟨q, whole⟩ : 2 ^ m ∣ 2 ^ 32 := pow_dvd_pow 2 (by omega)
    rw [mwNextMultiple_eq some]
    have divided := Nat.div_add_mod' nElements (2 ^ m)
    have below : nElements / 2 ^ m < q := by
      rw [Nat.div_lt_iff_lt_mul some, Nat.mul_comm, ← whole]
      exact word
    have groups : mwDivRoundup nElements (2 ^ m) ≤ q := by
      unfold mwDivRoundup
      split <;> omega
    rw [whole, Nat.mul_comm]
    exact Nat.mul_le_mul_left _ groups

/-! ## Runs in which no index wraps -/

section
variable {R : Type} [Zero R] [Add R] [Sub R] {bufferOffset : ℕ} {buffer : ℕ → Kahan R}

theorem workGroup_eq (grouped : 0 < localSize) (room : mwNextMultiple localSize nElements ≤ 2 ^ 32)
    (inside : bufferOffset + nElements ≤ 2 ^ 32) {groupId : ℕ}
    (lt : groupId < mwDivRoundup nElements localSize) :
    workGroup localSize nElements bufferOffset buffer groupId =
      summarization localSize nElements bufferOffset buffer groupId := by
  refine halving_congr grouped fun lid low => ?_
  rw [mwNextMultiple_eq grouped] at room
  have last : groupId * localSize + localSize ≤ mwDivRoundup nElements localSize * localSize := by
    rw [← Nat.succ_mul]
    exact Nat.mul_le_mul_right localSize lt
  have gid : (groupId * localSize + lid) % 2 ^ 32 = groupId * localSize + lid :=
    Nat.mod_eq_of_lt (by omega)
  simp only [gid]
  split
  · rw [Nat.mod_eq_of_lt (by omega)]
  · rfl

theorem enqueueNDRangeKernel_eq (halves : Halves localSize nElements) (grouped : 0 < localSize)
    (small : localSize ≤ 128) (positive : 0 < nElements) (word : nElements < 2 ^ 32)
    (inside : bufferOffset + nElements ≤ 2 ^ 32) (results : ℕ → Kahan R) :
    ∃ written, enqueueNDRangeKernel localSize nElements bufferOffset results buffer =
        some written ∧
      ∀ i < mwDivRoundup nElements localSize,
        written i = summarization localSize nElements bufferOffset buffer i := by
  have launched : ¬(localSize = 0 ∨ mwNextMultiple localSize nElements = 0) := by
    have groups := mwDivRoundup_pos positive grouped
    rw [mwNextMultiple_eq grouped, Nat.mul_eq_zero]
    omega
  refine ⟨_, if_neg launched, fun i lt => ?_⟩
  rw [mwNextMultiple_div grouped, if_pos lt]
  exact workGroup_eq grouped (mwNextMultiple_le halves grouped small word) inside lt

theorem summarization_congr {buffer' : ℕ → Kahan R}
    (agree : ∀ i < nElements, buffer i = buffer' i) :
    summarization localSize nElements 0 buffer = summarization localSize nElements 0 buffer' := by
  funext groupId
  unfold summarization
  dsimp only
  congr 1
  funext lid
  split
  · rename_i lt
    rw [Nat.zero_add, agree _ lt]
  · rfl

theorem pass_last {s : Passes R} (last : s.nElements ≤ 1) :
    pass localSize s = some (.inr (s.sumBufs.1 0)) := if_pos last

theorem pass_goesOn {s : Passes R} (several : ¬s.nElements ≤ 1) {written : ℕ → Kahan R}
    (launched : enqueueNDRangeKernel localSize s.nElements 0 s.sumBufs.2 s.sumBufs.1 =
      some written) :
    (pass localSize).GoesOn s
      ⟨mwDivRoundup (mwNextMultiple localSize s.nElements) localSize % 2 ^ 32,
        (written, s.sumBufs.1)⟩ := by
  rw [Turn.GoesOn, pass, if_neg several]
  simp only [Prod.fst_swap, Prod.snd_swap, launched, Option.map_some]

theorem run_pass (two : 2 ≤ localSize) (small : localSize ≤ 128) (calls : ℕ) (s : Passes R)
    (halves : Halves localSize s.nElements) (positive : 0 < s.nElements)
    (word : s.nElements < 2 ^ 32) (enough : s.nElements ≤ calls + 1)
    (agree : ∀ i < s.nElements, s.sumBufs.1 i = buffer i) :
    (pass localSize).run (calls + 1) s =
      some (summarizeRest localSize calls s.nElements buffer) := by
  induction calls generalizing s buffer with
  | zero =>
      rw [Turn.run_ends (pass_last enough), agree 0 positive]
      rfl
  | succ calls ih =>
      rw [summarizeRest]
      split
      · rename_i last
        rw [Turn.run_ends (pass_last last), agree 0 positive]
      · rename_i several
        have grouped : 0 < localSize := by omega
        have fewer := mwDivRoundup_lt (Nat.lt_of_not_le several) two
        obtain ⟨written, launched, same⟩ := enqueueNDRangeKernel_eq halves grouped small positive
          word (by omega : 0 + s.nElements ≤ 2 ^ 32) s.sumBufs.2
        have goes := pass_goesOn several launched
        rw [mwDivRoundup_mwNextMultiple grouped, Nat.mod_eq_of_lt (by omega)] at goes
        rw [Turn.run_goesOn goes, ← summarization_congr agree]
        exact ih _ (halves.le fewer.le) (mwDivRoundup_pos positive grouped) (fewer.trans word)
          (by dsimp only; omega) same

end

/-! ## What the passes conserve -/

section
variable {R : Type} [AddCommGroup R] {bufferOffset : ℕ} {buffer : ℕ → Kahan R}

/-- What an element stands for. -/
def total (k : Kahan R) : R := k.sum + k.correction

theorem total_zero : total (0 : Kahan R) = 0 := add_zero 0

theorem total_reduction (k k' : Kahan R) : total (k.reduction k') = total k + total k' := by
  change k.sum + (k'.sum + (k'.correction + k.correction)) +
    (k'.sum + (k'.correction + k.correction) -
      (k.sum + (k'.sum + (k'.correction + k.correction)) - k.sum)) =
    k.sum + k.correction + (k'.sum + k'.correction)
  abel

theorem reduction_exact (k k' : Kahan R) : (k.reduction k').Exact := by
  change k'.sum + (k'.correction + k.correction) -
    (k.sum + (k'.sum + (k'.correction + k.correction)) - k.sum) = 0
  abel

theorem eq_of_exact {k : Kahan R} (exact : k.Exact) : k = ⟨total k, 0⟩ := by
  obtain ⟨sum, correction⟩ := k
  have none : correction = 0 := exact
  rw [none, total, add_zero]

theorem total_halving (turns offset : ℕ) (s : ℕ → Kahan R) (i : ℕ) :
    total (halving Kahan.reduction turns offset s i) =
      halving (· + ·) turns offset (fun j => total (s j)) i :=
  (halving_map Kahan.reduction (· + ·) (fun _ => True) total
    (fun k k' _ _ => ⟨trivial, total_reduction k k'⟩) turns offset
    (fun _ => ⟨trivial, rfl⟩) i).2

theorem total_summarization :
    (fun i => total (summarization localSize nElements bufferOffset buffer i)) =
      groupAmount localSize nElements bufferOffset fun i => total (buffer i) := by
  funext groupId
  rw [summarization, total_halving, groupAmount]
  simp only [apply_ite total, total_zero]

theorem total_summarizeRest (calls : ℕ) :
    total (summarizeRest localSize calls nElements buffer) =
      restAmount localSize calls nElements fun i => total (buffer i) := by
  induction calls generalizing nElements buffer with
  | zero => rfl
  | succ calls ih =>
      rw [summarizeRest, restAmount]
      split
      · rfl
      · rw [ih, total_summarization]

theorem allExact_summarization (two : 2 ≤ localSize) :
    AllExact (summarization localSize nElements bufferOffset buffer) := by
  intro groupId
  obtain ⟨turns, rfl⟩ : ∃ turns, localSize = turns + 1 := ⟨localSize - 1, by omega⟩
  unfold summarization
  dsimp only
  rw [halving, if_neg (by omega)]
  refine halving_of_op reduction_exact ?_
  rw [takeIn, if_pos (by omega)]
  exact reduction_exact _ _

theorem summarizeRest_sum (halves : Halves localSize nElements) (two : 2 ≤ localSize)
    (positive : 0 < nElements) :
    summarizeRest localSize nElements (mwDivRoundup nElements localSize)
        (summarization localSize nElements bufferOffset buffer) =
      ⟨∑ i ∈ Finset.range nElements, total (buffer (bufferOffset + i)), 0⟩ := by
  have grouped : 0 < localSize := Nat.zero_lt_of_lt two
  have fewer : mwDivRoundup nElements localSize ≤ nElements := mwDivRoundup_le grouped
  have first : AllExact (summarization localSize nElements bufferOffset buffer) :=
    allExact_summarization two
  have exact := (summarizeRest_exact localSize nElements (mwDivRoundup nElements localSize)
    first).1
  rw [eq_of_exact exact, total_summarizeRest, restAmount_sum two _ _ _ (halves.le fewer)
    (mwDivRoundup_pos positive grouped) (by omega), total_summarization,
    sum_groupAmount halves grouped]

theorem total_workGroup_zero (groupId : ℕ)
    (none : ∀ gid < nElements, total (buffer ((bufferOffset + gid) % 2 ^ 32)) = 0) :
    total (workGroup localSize nElements bufferOffset buffer groupId) = 0 := by
  rw [workGroup, total_halving]
  have all : (fun lid => total (if (groupId * localSize + lid) % 2 ^ 32 < nElements then
      buffer ((bufferOffset + (groupId * localSize + lid) % 2 ^ 32) % 2 ^ 32) else 0)) =
      fun _ => 0 := by
    funext lid
    split
    · exact none _ ‹_›
    · exact total_zero
  rw [all]
  exact halving_zero _ _ 0

theorem run_pass_zero {fuel : ℕ} {s : Passes R} {k : Kahan R} (grouped : 0 < localSize)
    (positive : 0 < s.nElements) (word : s.nElements < 2 ^ 32)
    (none : ∀ i < s.nElements, total (s.sumBufs.1 i) = 0)
    (ends : (pass localSize).run fuel s = some k) : total k = 0 := by
  refine Turn.run_invariant (fun s => 0 < s.nElements ∧ s.nElements < 2 ^ 32 ∧
    ∀ i < s.nElements, total (s.sumBufs.1 i) = 0) (fun k => total k = 0) ?_
    ⟨positive, word, none⟩ ends
  rintro s x ⟨positive, word, none⟩ turned
  unfold pass enqueueNDRangeKernel at turned
  split at turned
  · cases turned
    exact none 0 positive
  · dsimp only at turned
    split at turned
    · cases turned
    · cases turned
      have fewer : mwDivRoundup s.nElements localSize ≤ s.nElements := mwDivRoundup_le grouped
      have groups := mwDivRoundup_pos positive grouped
      dsimp only [Sum.elim_inl]
      rw [mwDivRoundup_mwNextMultiple grouped, mwNextMultiple_div grouped,
        Nat.mod_eq_of_lt (by omega)]
      refine ⟨groups, by omega, fun i lt => ?_⟩
      rw [if_pos lt]
      refine total_workGroup_zero i fun gid inside => ?_
      rw [Nat.zero_add, Nat.mod_eq_of_lt (by omega)]
      exact none gid inside

end

/-! ## When everything is summed -/

section
variable {R : Type} [AddCommGroup R]

def element (outBg outStreams : ℕ → Kahan R) (nElements which i : ℕ) : Kahan R :=
  if which = 0 then outBg i else outStreams ((which - 1) * nElements + i)

/-- Whatever is in the buffers, the passes come to an end with the sum of all elements. -/
def SumsAll (R : Type) [AddCommGroup R] (localSize nElements which : ℕ) : Prop :=
  ∀ (sumBufs : (ℕ → Kahan R) × (ℕ → Kahan R)) (outBg outStreams : ℕ → Kahan R), ∃ fuel,
    runSummarization fuel localSize sumBufs outBg outStreams nElements which =
      some ⟨∑ i ∈ Finset.range nElements, total (element outBg outStreams nElements which i), 0⟩

variable {which : ℕ}

theorem sumsAll_of_halves (halves : Halves localSize nElements) (two : 2 ≤ localSize)
    (small : localSize ≤ 128) (positive : 0 < nElements) (word : nElements < 2 ^ 32)
    (room : which * nElements ≤ 2 ^ 32) : SumsAll R localSize nElements which := by
  intro sumBufs outBg outStreams
  have grouped : 0 < localSize := Nat.zero_lt_of_lt two
  have fewer : mwDivRoundup nElements localSize ≤ nElements := mwDivRoundup_le grouped
  refine ⟨nElements + 1, ?_⟩
  have runs : ∀ (buf : ℕ → Kahan R) (offset : ℕ), offset + nElements ≤ 2 ^ 32 →
      ((enqueueNDRangeKernel localSize nElements offset sumBufs.1 buf).bind fun results =>
        (pass localSize).run (nElements + 1)
          ⟨mwDivRoundup (mwNextMultiple localSize nElements) localSize % 2 ^ 32,
            (results, sumBufs.2)⟩) =
        some ⟨∑ i ∈ Finset.range nElements, total (buf (offset + i)), 0⟩ := by
    intro buf offset inside
    obtain ⟨written, launched, same⟩ : ∃ written,
        enqueueNDRangeKernel localSize nElements offset sumBufs.1 buf = some written ∧ _ :=
      enqueueNDRangeKernel_eq halves grouped small positive word inside sumBufs.1
    rw [launched, Option.bind_some, mwDivRoundup_mwNextMultiple grouped,
      Nat.mod_eq_of_lt (by omega), ← summarizeRest_sum halves two positive]
    exact run_pass two small nElements _ (halves.le fewer) (mwDivRoundup_pos positive grouped)
      (by dsimp only; omega) (by dsimp only; omega) same
  unfold runSummarization element
  cases which with
  | zero => simpa using runs outBg 0 (by omega)
  | succ stream =>
      rw [Nat.succ_mul] at room
      have whole : stream * nElements % 2 ^ 32 = stream * nElements :=
        Nat.mod_eq_of_lt (by omega)
      simp only [Nat.add_one_ne_zero, if_false, Nat.add_sub_cancel, whole]
      exact runs outStreams (stream * nElements) room

def single (r : R) (place : ℕ) : ℕ → Kahan R := fun i => if i = place then ⟨r, 0⟩ else 0

theorem total_single (r : R) (place i : ℕ) :
    total (single r place i) = if i = place then r else 0 := by
  unfold single
  split
  · exact add_zero r
  · exact total_zero

theorem sum_element_single (r : R) {e : ℕ} (lt : e < nElements) :
    let buf := single r ((which - 1) * nElements + e)
    ∑ i ∈ Finset.range nElements, total (element buf buf nElements which i) = r := by
  have same : ∀ i, total (element (single r ((which - 1) * nElements + e))
      (single r ((which - 1) * nElements + e)) nElements which i) = if i = e then r else 0 := by
    intro i
    unfold element
    rw [apply_ite total, total_single, total_single]
    cases which with
    | zero => simp
    | succ stream => simp
  simp only [same, Finset.sum_ite_eq', Finset.mem_range, lt, if_true]

theorem not_sumsAll [Nontrivial R] {e : ℕ} (lt : e < nElements) (word : nElements < 2 ^ 32)
    (lost : ∀ (r : R) (groupId : ℕ), groupId < mwDivRoundup nElements localSize →
      total (workGroup localSize nElements ((which - 1) * nElements % 2 ^ 32)
        (single r ((which - 1) * nElements + e)) groupId) = 0) :
    ¬SumsAll R localSize nElements which := by
  intro sums
  obtain ⟨r, some⟩ := exists_ne (0 : R)
  have positive : 0 < nElements := by omega
  let buf := single r ((which - 1) * nElements + e)
  obtain ⟨fuel, ends⟩ := sums (fun _ => 0, fun _ => 0) buf buf
  rw [sum_element_single r lt] at ends
  have base : (if which = 0 then (buf, 0) else (buf, (which - 1) * nElements % 2 ^ 32)) =
      (buf, (which - 1) * nElements % 2 ^ 32) := by
    cases which with
    | zero => simp
    | succ stream => rfl
  unfold runSummarization enqueueNDRangeKernel at ends
  dsimp only at ends
  rw [base] at ends
  split at ends
  · cases ends
  · rename_i launched
    have grouped : 0 < localSize := by omega
    have fewer : mwDivRoundup nElements localSize ≤ nElements := mwDivRoundup_le grouped
    have groups := mwDivRoundup_pos positive grouped
    rw [Option.bind_some, mwDivRoundup_mwNextMultiple grouped, mwNextMultiple_div grouped,
      Nat.mod_eq_of_lt (by omega)] at ends
    have zero := run_pass_zero grouped groups (by dsimp only; omega) (fun i below => by
      dsimp only at below ⊢
      rw [if_pos below]
      exact lost r i below) ends
    exact some ((add_zero r).symm.trans zero)

theorem not_sumsAll_of_beyond [Nontrivial R] (positive : 0 < nElements)
    (word : nElements < 2 ^ 32) (beyond : 2 ^ 32 < which * nElements) :
    ¬SumsAll R localSize nElements which := by
  obtain ⟨stream, rfl⟩ : ∃ stream, which = stream + 1 := by
    cases which with
    | zero => omega
    | succ stream => exact ⟨stream, rfl⟩
  rw [Nat.succ_mul] at beyond
  refine not_sumsAll (e := nElements - 1) (by omega) word fun r groupId _ => ?_
  refine total_workGroup_zero groupId fun gid _ => ?_
  have read := Nat.mod_lt ((stream + 1 - 1) * nElements % 2 ^ 32 + gid) (Nat.two_pow_pos 32)
  rw [total_single, if_neg]
  rw [Nat.add_sub_cancel] at read ⊢
  omega

theorem mul_lt_of_lt_mwDivRoundup {groupId : ℕ}
    (below : groupId < mwDivRoundup nElements localSize) : groupId * localSize < nElements := by
  have divided := Nat.div_add_mod' nElements localSize
  unfold mwDivRoundup at below
  split at below
  · have le : groupId * localSize ≤ nElements / localSize * localSize :=
      Nat.mul_le_mul_right localSize (Nat.le_of_lt_succ below)
    omega
  · have le : (groupId + 1) * localSize ≤ nElements / localSize * localSize :=
      Nat.mul_le_mul_right localSize below
    rw [Nat.succ_mul] at le
    have grouped : localSize ≠ 0 := by
      rintro rfl
      simp at below
    omega

theorem lid_unique {groupId groupId' lid p : ℕ}
    (same : groupId * localSize + lid = groupId' * localSize + p) (low : lid < localSize)
    (low' : p < localSize) : lid = p := by
  have rest := congrArg (· % localSize) same
  simpa [Nat.mod_eq_of_lt low, Nat.mod_eq_of_lt low'] using rest

theorem not_sumsAll_of_odd [Nontrivial R] {j p : ℕ} (small : localSize ≤ 128)
    (word : nElements < 2 ^ 32) (room : which * nElements ≤ 2 ^ 32)
    (odd : localSize / 2 ^ j = p + 1) (even : p % 2 = 0) (several : 0 < p)
    (inside : p < nElements) : ¬SumsAll R localSize nElements which := by
  have le : p + 1 ≤ localSize := by
    rw [← odd]
    exact Nat.div_le_self localSize (2 ^ j)
  have grouped : 0 < localSize := by omega
  have base : (which - 1) * nElements + nElements ≤ 2 ^ 32 := by
    cases which with
    | zero => omega
    | succ stream =>
        rw [Nat.succ_mul] at room
        exact room
  -- In an array that goes beyond the second group the indices of the first may come again.
  have lost : ∀ e < nElements, (∀ groupId < mwDivRoundup nElements localSize,
      ∀ lid < localSize, (groupId * localSize + lid) % 2 ^ 32 = e → lid = p) →
      ¬SumsAll R localSize nElements which := by
    intro e lt only
    refine not_sumsAll lt word fun r groupId below => ?_
    rw [workGroup, total_halving, Nat.mod_eq_of_lt (by omega)]
    refine halving_skips odd even several localSize.le_succ fun lid low other => ?_
    dsimp only
    split
    · rename_i here
      rw [total_single, Nat.mod_eq_of_lt (by omega), if_neg]
      intro same
      exact other (only groupId below lid low (by omega))
    · exact total_zero
  have last : ∀ groupId < mwDivRoundup nElements localSize, ∀ lid < localSize,
      groupId * localSize + lid < nElements + localSize := by
    intro groupId below lid low
    have before := mul_lt_of_lt_mwDivRoundup below
    omega
  by_cases far : localSize + p < nElements
  · refine lost (localSize + p) far fun groupId below lid low same => ?_
    have index := last groupId below lid low
    have place : groupId * localSize + lid = 1 * localSize + p := by omega
    exact lid_unique place low le
  · refine lost p inside fun groupId below lid low same => ?_
    have index := last groupId below lid low
    have place : groupId * localSize + lid = 0 * localSize + p := by omega
    exact lid_unique place low le

theorem not_sumsAll_of_empty (empty : localSize = 0 ∨ nElements = 0) :
    ¬SumsAll R localSize nElements which := by
  intro sums
  obtain ⟨fuel, ends⟩ := sums (fun _ => 0, fun _ => 0) (fun _ => 0) fun _ => 0
  have none : localSize = 0 ∨ mwNextMultiple localSize nElements = 0 := by
    obtain zero | zero := empty
    · exact .inl zero
    · right
      rw [zero, mwNextMultiple, Nat.zero_mod, if_neg (fun ne => ne rfl)]
  unfold runSummarization enqueueNDRangeKernel at ends
  simp only [if_pos none, Option.bind_none, reduceCtorEq] at ends

end

/-- A summarization gives the sum of an array for work-groups of the size that is chosen just
where there are elements, the array lies where unsigned numbers reach, and the work-groups are
of a power of two or the array is too short for what they leave out. -/
theorem runSummarization_iff (R : Type) [AddCommGroup R] [Nontrivial R]
    {maxGroupSize localSize : ℕ} {warpSize : UInt32}
    (chosen : setSummarizationWorkgroupSize maxGroupSize warpSize = some localSize)
    (nElements which : UInt32) :
    SumsAll R localSize nElements.toNat which.toNat ↔
      localSize ≠ 0 ∧ nElements.toNat ≠ 0 ∧ which.toNat * nElements.toNat ≤ 2 ^ 32 ∧
        Halves localSize nElements.toNat := by
  obtain ⟨several, small⟩ := le_128_of_chosen chosen
  have word : nElements.toNat < 2 ^ 32 := nElements.toNat_lt
  generalize nElements.toNat = n at word ⊢
  generalize which.toNat = which
  constructor
  · intro sums
    have grouped : localSize ≠ 0 := fun zero => not_sumsAll_of_empty (.inl zero) sums
    have positive : n ≠ 0 := fun zero => not_sumsAll_of_empty (.inr zero) sums
    have room : which * n ≤ 2 ^ 32 := by
      by_contra beyond
      exact not_sumsAll_of_beyond (by omega) word (by omega) sums
    refine ⟨grouped, positive, room, fun j odd => ?_⟩
    by_contra left
    rw [not_or] at left
    obtain ⟨p, same⟩ : ∃ p, localSize / 2 ^ j = p + 1 :=
      Nat.exists_eq_succ_of_ne_zero fun zero => by simp [zero] at odd
    rw [same] at odd left
    exact not_sumsAll_of_odd small word room same (by omega) (by omega) (by omega) sums
  · rintro ⟨grouped, positive, room, halves⟩
    exact sumsAll_of_halves halves (by omega) small (by omega) word room

/-- The usual size on a device with warps of 32. -/
theorem runSummarization_iff_warps :
    setSummarizationWorkgroupSize 256 32 = some 64 ∧
      (SumsAll ℤ 64 (1000 : UInt32).toNat (0 : UInt32).toNat ↔
        64 ≠ 0 ∧ (1000 : UInt32).toNat ≠ 0 ∧
          (0 : UInt32).toNat * (1000 : UInt32).toNat ≤ 2 ^ 32 ∧
          Halves 64 (1000 : UInt32).toNat) :=
  ⟨by decide, runSummarization_iff ℤ
    (show setSummarizationWorkgroupSize 256 32 = some 64 by decide) 1000 0⟩

/-- A device that allows 48 work-items: a third of the elements is lost. -/
theorem runSummarization_48 :
    setSummarizationWorkgroupSize 48 32 = some 48 ∧
      runSummarization 2 48 (fun _ => (0 : Kahan ℤ), fun _ => 0) (fun _ => ⟨1, 0⟩)
        (fun _ => ⟨1, 0⟩) 48 0 = some ⟨32, 0⟩ ∧
      ¬SumsAll ℤ 48 48 0 :=
  ⟨by decide, by decide +kernel, not_sumsAll_of_odd (j := 4) (p := 2) (by decide) (by decide)
    (by decide) (by decide) (by decide) (by decide) (by decide)⟩

end MilkyWay.Separation.Summarization
