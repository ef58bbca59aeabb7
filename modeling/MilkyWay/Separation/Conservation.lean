import MilkyWay.Separation.RunCL

/-! Conservation of the sums on a device. In exact arithmetic the sums in the state and
what can be read from the device make up the contributions of the steps made so far,
whatever attempts and checkpoints there have been. -/

namespace MilkyWay.Separation

open Foundation

section
variable {R : Type} [AddCommGroup R]

/-! ## The device -/

def AllExact (buffer : ℕ → Kahan R) : Prop := ∀ i, (buffer i).Exact

def amounts (buffer : ℕ → Kahan R) : ℕ → R := fun i => (buffer i).sum

namespace Device

def Exact (dev : Device R) : Prop := AllExact dev.outBg ∧ AllExact dev.outStreams

def amount (dev : Device R) : (ℕ → R) × (ℕ → R) := (amounts dev.outBg, amounts dev.outStreams)

theorem zero_exact : (zero : Device R).Exact := ⟨fun _ => rfl, fun _ => rfl⟩

theorem zero_amount : (zero : Device R).amount = 0 := rfl

end Device

theorem addTerm_self (buffer : ℕ → Kahan R) (idx : ℕ) (term : R) :
    addTerm buffer idx term idx = kahanSum (buffer idx) term := Function.update_self ..

theorem addTerm_of_ne (buffer : ℕ → Kahan R) {idx i : ℕ} (term : R) (ne : i ≠ idx) :
    addTerm buffer idx term i = buffer i := Function.update_of_ne ne ..

theorem kahanSum_exact {running : Kahan R} (exact : running.Exact) (term : R) :
    (kahanSum running term).Exact ∧ (kahanSum running term).sum = running.sum + term := by
  constructor
  · change term + running.correction - (running.sum + (term + running.correction) -
      running.sum) = 0
    abel
  · change running.sum + (term + running.correction) = running.sum + term
    rw [show running.correction = 0 from exact, add_zero]

theorem addTerm_adds (idx : ℕ) (term : R) :
    Adds AllExact amounts (fun buffer => addTerm buffer idx term) (Pi.single idx term) := by
  intro buffer exact
  obtain ⟨fine, sum⟩ := kahanSum_exact (exact idx) term
  constructor
  · intro i
    dsimp only
    by_cases same : i = idx
    · rw [same, addTerm_self]
      exact fine
    · rw [addTerm_of_ne buffer term same]
      exact exact i
  · funext i
    change (addTerm buffer idx term i).sum = (buffer i).sum + (Pi.single idx term : ℕ → R) i
    by_cases same : i = idx
    · rw [same, addTerm_self, sum, Pi.single_eq_same]
    · rw [addTerm_of_ne buffer term same, Pi.single_eq_of_ne same, add_zero]

variable (P : ProgramCL R) (nStream : ℕ) (ia : IntegralArea R)

theorem workItem_adds (nu_step globalId : ℕ) :
    ∃ δ, Adds Device.Exact Device.amount (workItem P nStream ia nu_step globalId) δ := by
  unfold workItem
  dsimp only
  split
  · exact ⟨0, adds_id⟩
  · split
    · exact ⟨0, adds_id⟩
    · generalize P.value ia nu_step _ _ = probs
      generalize _ * ia.r_steps + _ = idx
      have streams : ∃ ε, Adds AllExact amounts (fun out : ℕ → Kahan R =>
          (List.range nStream).foldl (fun out j =>
            addTerm out (j * ia.mu_steps * ia.r_steps + idx) (probs.2.getD j 0)) out) ε :=
        adds_foldl (fun j => ⟨_, addTerm_adds _ _⟩) _
      obtain ⟨ε, streams⟩ := streams
      refine ⟨(Pi.single idx probs.1, ε), fun dev exact => ?_⟩
      obtain ⟨fine, sum⟩ := addTerm_adds idx probs.1 dev.outBg exact.1
      obtain ⟨fine', sum'⟩ := streams dev.outStreams exact.2
      exact ⟨⟨fine, fine'⟩, Prod.ext sum sum'⟩

theorem runNuStep_adds (nu_step : ℕ) :
    ∃ δ, Adds Device.Exact Device.amount (runNuStep P nStream ia nu_step) δ :=
  adds_foldl (fun _ => adds_foldl (fun _ => workItem_adds P nStream ia nu_step _) _) _

/-! ## What is read from the device -/

def groupAmount (localSize nElements bufferOffset : ℕ) (f : ℕ → R) : ℕ → R := fun group =>
  halving (· + ·) localSize (localSize / 2) (fun lid =>
    let gid := group * localSize + lid
    if gid < nElements then f (bufferOffset + gid) else 0) 0

def restAmount (localSize : ℕ) : ℕ → ℕ → (ℕ → R) → R
  | 0, _, f => f 0
  | calls + 1, nElements, f =>
      if nElements ≤ 1 then f 0
      else restAmount localSize calls (mwDivRoundup nElements localSize)
        (groupAmount localSize nElements 0 f)

def readAmount (which : ℕ) (m : (ℕ → R) × (ℕ → R)) : R :=
  let nElements := ia.r_steps * ia.mu_steps
  let localSize := P.summarizationWorkgroupSize
  let (f, offset) := if which = 0 then (m.1, 0) else (m.2, (which - 1) * nElements)
  restAmount localSize nElements (mwDivRoundup nElements localSize)
    (groupAmount localSize nElements offset f)

theorem summarization_exact (localSize nElements bufferOffset : ℕ) {buffer : ℕ → Kahan R}
    (exact : AllExact buffer) :
    AllExact (summarization localSize nElements bufferOffset buffer) ∧
      amounts (summarization localSize nElements bufferOffset buffer) =
        groupAmount localSize nElements bufferOffset (amounts buffer) := by
  have group := fun group => halving_map Kahan.reduction (· + ·) Kahan.Exact Kahan.sum
    (fun _ _ exact exact' => exact.reduction exact') localSize (localSize / 2)
    (s := fun lid => let gid := group * localSize + lid
      if gid < nElements then buffer (bufferOffset + gid) else 0)
    (t := fun lid => let gid := group * localSize + lid
      if gid < nElements then amounts buffer (bufferOffset + gid) else 0) (fun lid => by
        dsimp only
        split
        · exact ⟨exact _, rfl⟩
        · exact ⟨Kahan.exact_zero, rfl⟩) 0
  exact ⟨fun i => (group i).1, funext fun i => (group i).2⟩

theorem summarizeRest_exact (localSize calls nElements : ℕ) {buffer : ℕ → Kahan R}
    (exact : AllExact buffer) :
    (summarizeRest localSize calls nElements buffer).Exact ∧
      (summarizeRest localSize calls nElements buffer).sum =
        restAmount localSize calls nElements (amounts buffer) := by
  induction calls generalizing nElements buffer with
  | zero => exact ⟨exact 0, rfl⟩
  | succ calls ih =>
      rw [summarizeRest, restAmount]
      by_cases last : nElements ≤ 1
      · rw [if_pos last, if_pos last]
        exact ⟨exact 0, rfl⟩
      · rw [if_neg last, if_neg last]
        obtain ⟨fine, sum⟩ := summarization_exact localSize nElements 0 exact
        rw [← sum]
        exact ih _ fine

theorem runSummarization_exact (which : ℕ) {dev : Device R} (exact : dev.Exact) :
    (runSummarization P ia which dev).Exact ∧
      (runSummarization P ia which dev).sum = readAmount P ia which dev.amount := by
  unfold runSummarization readAmount
  dsimp only
  by_cases background : which = 0
  · simp only [if_pos background]
    obtain ⟨fine, sum⟩ := summarization_exact P.summarizationWorkgroupSize
      (ia.r_steps * ia.mu_steps) 0 exact.1
    rw [Device.amount, ← sum]
    exact summarizeRest_exact _ _ _ fine
  · simp only [if_neg background]
    obtain ⟨fine, sum⟩ := summarization_exact P.summarizationWorkgroupSize
      (ia.r_steps * ia.mu_steps) ((which - 1) * (ia.r_steps * ia.mu_steps)) exact.2
    rw [Device.amount, ← sum]
    exact summarizeRest_exact _ _ _ fine

theorem groupAmount_add (localSize nElements bufferOffset : ℕ) (f g : ℕ → R) :
    groupAmount localSize nElements bufferOffset (f + g) =
      groupAmount localSize nElements bufferOffset f +
        groupAmount localSize nElements bufferOffset g := by
  funext group
  rw [Pi.add_apply]
  unfold groupAmount
  rw [← halving_add]
  congr 1
  funext lid
  dsimp only [Pi.add_apply]
  split
  · rfl
  · exact (add_zero 0).symm

theorem restAmount_add (localSize calls nElements : ℕ) (f g : ℕ → R) :
    restAmount localSize calls nElements (f + g) =
      restAmount localSize calls nElements f + restAmount localSize calls nElements g := by
  induction calls generalizing nElements f g with
  | zero => rfl
  | succ calls ih =>
      rw [restAmount, restAmount, restAmount]
      by_cases last : nElements ≤ 1
      · rw [if_pos last, if_pos last, if_pos last]
        rfl
      · rw [if_neg last, if_neg last, if_neg last, groupAmount_add, ih]

theorem readAmount_add (which : ℕ) (m n : (ℕ → R) × (ℕ → R)) :
    readAmount P ia which (m + n) = readAmount P ia which m + readAmount P ia which n := by
  unfold readAmount
  dsimp only
  by_cases background : which = 0
  · simp only [if_pos background, Prod.fst_add, groupAmount_add, restAmount_add]
  · simp only [if_neg background, Prod.snd_add, groupAmount_add, restAmount_add]

theorem readAmount_zero (which : ℕ) : readAmount P ia which 0 = 0 := by
  have twice := readAmount_add P ia which 0 0
  rw [add_zero] at twice
  exact left_eq_add.mp twice

/-- What a step in nu contributes to the background or to a stream: what is read from a
device on which only this step has been made. -/
def contribution (which nu_step : ℕ) : R :=
  (runSummarization P ia which (runNuStep P nStream ia nu_step .zero)).sum

theorem readAmount_runNuStep (which nu_step : ℕ) {dev : Device R} (exact : dev.Exact) :
    (runNuStep P nStream ia nu_step dev).Exact ∧
      readAmount P ia which (runNuStep P nStream ia nu_step dev).amount =
        readAmount P ia which dev.amount + contribution P nStream ia which nu_step := by
  obtain ⟨δ, adds⟩ := runNuStep_adds P nStream ia nu_step
  obtain ⟨fine, sum⟩ := adds dev exact
  obtain ⟨fine', sum'⟩ := adds .zero Device.zero_exact
  refine ⟨fine, ?_⟩
  rw [contribution, (runSummarization_exact P ia which fine').2, sum, sum', readAmount_add,
    Device.zero_amount, zero_add]

/-! ## What the passes make of the amounts -/

omit [AddCommGroup R] in
theorem le_mwDivRoundup (n : ℕ) {b : ℕ} (positive : 0 < b) : n ≤ mwDivRoundup n b * b := by
  have divided := Nat.div_add_mod' n b
  unfold mwDivRoundup
  split
  · have rest := Nat.mod_lt n positive
    rw [Nat.succ_mul]
    omega
  · omega

omit [AddCommGroup R] in
theorem mwDivRoundup_lt {n b : ℕ} (several : 1 < n) (two : 2 ≤ b) : mwDivRoundup n b < n := by
  have divided := Nat.div_add_mod' n b
  have twice : n / b * 2 ≤ n / b * b := Nat.mul_le_mul_left _ two
  unfold mwDivRoundup
  split <;> omega

omit [AddCommGroup R] in
theorem mwDivRoundup_pos {n b : ℕ} (positive : 0 < n) (positive' : 0 < b) :
    0 < mwDivRoundup n b := by
  have le := le_mwDivRoundup n positive'
  refine Nat.pos_of_ne_zero fun none => ?_
  rw [none] at le
  omega

theorem sum_groupAmount {localSize nElements : ℕ} (halves : Halves localSize nElements)
    (positive : 0 < localSize) (bufferOffset : ℕ) (f : ℕ → R) :
    ∑ group ∈ Finset.range (mwDivRoundup nElements localSize),
        groupAmount localSize nElements bufferOffset f group =
      ∑ i ∈ Finset.range nElements, f (bufferOffset + i) := by
  have covers := le_mwDivRoundup nElements positive
  let g : ℕ → R := fun i => if i < nElements then f (bufferOffset + i) else 0
  calc ∑ group ∈ Finset.range (mwDivRoundup nElements localSize),
        groupAmount localSize nElements bufferOffset f group
      = ∑ group ∈ Finset.range (mwDivRoundup nElements localSize),
          ∑ lid ∈ Finset.range localSize, g (group * localSize + lid) :=
        Finset.sum_congr rfl fun group _ =>
          halving_front halves positive localSize.le_succ fun lid past _ => if_neg (by omega)
    _ = ∑ i ∈ Finset.range (mwDivRoundup nElements localSize * localSize), g i := sum_rows _ _ g
    _ = ∑ i ∈ Finset.range nElements, g i := by
        refine (Finset.sum_subset (Finset.range_subset_range.mpr covers) fun i _ out => ?_).symm
        exact if_neg (Finset.mem_range.not.mp out)
    _ = ∑ i ∈ Finset.range nElements, f (bufferOffset + i) :=
        Finset.sum_congr rfl fun i mem => if_pos (Finset.mem_range.mp mem)

theorem restAmount_sum {localSize : ℕ} (two : 2 ≤ localSize) (calls nElements : ℕ) (f : ℕ → R)
    (halves : Halves localSize nElements) (some : 0 < nElements) (enough : nElements ≤ calls + 1) :
    restAmount localSize calls nElements f = ∑ i ∈ Finset.range nElements, f i := by
  have one : nElements ≤ 1 → f 0 = ∑ i ∈ Finset.range nElements, f i := by
    intro le
    rw [show nElements = 1 by omega, Finset.sum_range_one]
  induction calls generalizing nElements f with
  | zero => exact one enough
  | succ calls ih =>
      rw [restAmount]
      by_cases last : nElements ≤ 1
      · rw [if_pos last, one last]
      · have fewer := mwDivRoundup_lt (Nat.lt_of_not_le last) two
        have positive := mwDivRoundup_pos some (Nat.zero_lt_of_lt two)
        rw [if_neg last, ih _ _ (halves.le fewer.le) positive (by omega),
          sum_groupAmount halves (Nat.zero_lt_of_lt two)]
        · simp only [Nat.zero_add]
        · intro le
          rw [show mwDivRoundup nElements localSize = 1 by omega, Finset.sum_range_one]

/-- The amounts that are there for the background or a stream. -/
def itemAmount (which : ℕ) (m : (ℕ → R) × (ℕ → R)) (i : ℕ) : R :=
  if which = 0 then m.1 i else m.2 ((which - 1) * (ia.r_steps * ia.mu_steps) + i)

theorem readAmount_sum {m : ℕ} (grouped : 0 < m) (size : P.summarizationWorkgroupSize = 2 ^ m)
    (which : ℕ) (a : (ℕ → R) × (ℕ → R)) :
    readAmount P ia which a =
      ∑ i ∈ Finset.range (ia.r_steps * ia.mu_steps), itemAmount ia which a i := by
  have read : ∀ offset (f : ℕ → R), restAmount (2 ^ m) (ia.r_steps * ia.mu_steps)
      (mwDivRoundup (ia.r_steps * ia.mu_steps) (2 ^ m))
      (groupAmount (2 ^ m) (ia.r_steps * ia.mu_steps) offset f) =
      ∑ i ∈ Finset.range (ia.r_steps * ia.mu_steps), f (offset + i) := by
    intro offset f
    generalize ia.r_steps * ia.mu_steps = n
    cases n with
    | zero =>
        rw [Finset.sum_range_zero, restAmount, groupAmount]
        simp only [Nat.not_lt_zero, if_false]
        exact halving_zero _ _ 0
    | succ n =>
        have two : 2 ≤ 2 ^ m := Nat.le_self_pow grouped.ne' 2
        rw [restAmount_sum two _ _ _ (halves_pow m _)
            (mwDivRoundup_pos n.succ_pos (Nat.two_pow_pos m)),
          sum_groupAmount (halves_pow m _) (Nat.two_pow_pos m)]
        rcases Nat.eq_zero_or_pos n with rfl | several
        · have le := le_mwDivRoundup 1 (Nat.two_pow_pos m)
          rw [mwDivRoundup, Nat.mod_eq_of_lt (by omega), if_pos Nat.one_ne_zero,
            Nat.div_eq_of_lt (by omega)]
          omega
        · have fewer := mwDivRoundup_lt (Nat.succ_lt_succ several) two
          omega
  unfold readAmount
  dsimp only
  rw [size]
  by_cases background : which = 0
  · simp only [if_pos background, itemAmount, read, Nat.zero_add]
  · simp only [if_neg background, itemAmount, read]

end

end MilkyWay.Separation
