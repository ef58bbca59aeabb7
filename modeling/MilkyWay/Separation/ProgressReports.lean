import MilkyWay.Foundation.RoundedArithmetic
import MilkyWay.Separation.IntegralResume
import MilkyWay.Separation.Worker

/-! The progress that a run reports: at each step in mu on the processor and after each step
in nu on a device. Where no number of steps outgrows its machine integer the fractions never
fall and stay between zero and one. -/

namespace MilkyWay.Separation

open Foundation

/-- The steps that are left of a loop whose counter is at a number. -/
def steps (counter limit : ℕ) : List ℕ := List.range' counter (limit - counter)

theorem mem_steps {counter limit i : ℕ} : i ∈ steps counter limit ↔ counter ≤ i ∧ i < limit := by
  rw [steps, List.mem_range'_1]
  omega

section
variable {R : Type}

def IntegralArea.calcProbs (ia : IntegralArea R) : ℕ :=
  ia.mu_steps * ia.nu_steps % 2 ^ 64 * ia.r_steps % 2 ^ 64

/-- The sum over the areas that the parameters are read with. -/
def findTotalCalcProbs (ias : ℕ → IntegralArea R) (number_integrals : ℕ) : ℕ :=
  (List.range number_integrals).foldl (fun total i => (total + (ias i).calcProbs) % 2 ^ 64) 0

def completedIntegralProgress (ias : ℕ → IntegralArea R) (currentCut : ℕ) : ℕ :=
  (List.range currentCut).foldl (fun current i => (current +
    (ias i).r_steps * (ias i).mu_steps % 2 ^ 64 * (ias i).nu_steps % 2 ^ 64) % 2 ^ 64) 0

structure Reporting (R : Type) where
  ias : ℕ → IntegralArea R
  number_integrals : ℕ
  totalWUs : ℕ
  onDevice : Bool

section
variable [NatCast R] [IntCast R] [Add R] [Mul R] [Div R] (toLong : R → ℤ) (Q : Reporting R)

def Reporting.total_calc_probs : R := (findTotalCalcProbs Q.ias Q.number_integrals : R)

/-- The fraction reported on the processor. The steps of the current integral are kept in an
unsigned number of 32 bits. -/
def progress (current_calc_probs : ℕ) (es : EvaluationState R) (ia : IntegralArea R) : R :=
  let i_prog := (es.nu_step * ia.mu_steps % 2 ^ 64 * ia.r_steps % 2 ^ 64 +
    es.mu_step * ia.r_steps % 2 ^ 64) % 2 ^ 64 % 2 ^ 32
  ((((i_prog + current_calc_probs) % 2 ^ 64 : ℕ) : R) +
      (es.currentWU : R) * Q.total_calc_probs) / ((Q.totalWUs : R) * Q.total_calc_probs)

/-- The fraction reported on a device. -/
def reportProgress (current_calc_probs : ℕ) (es : EvaluationState R) (ia : IntegralArea R)
    (step : ℕ) : R :=
  let prog := toLong ((((current_calc_probs + ia.mu_steps * ia.r_steps % 2 ^ 64 * step % 2 ^ 64) %
    2 ^ 64 : ℕ) : R) + (es.currentWU : R) * Q.total_calc_probs)
  (prog : R) / ((Q.totalWUs : R) * Q.total_calc_probs)

def integralReports (es : EvaluationState R) : List R :=
  let ia := Q.ias es.currentCut
  let current_calc_probs := completedIntegralProgress Q.ias es.currentCut
  (steps es.nu_step ia.nu_steps).flatMap fun nu_step =>
    (steps (if nu_step = es.nu_step then es.mu_step else 0) ia.mu_steps).flatMap fun mu_step =>
      [progress Q current_calc_probs { es with nu_step, mu_step } ia]

def integralReportsCL (es : EvaluationState R) : List R :=
  let ia := Q.ias es.currentCut
  let current_calc_probs := completedIntegralProgress Q.ias es.currentCut
  (steps es.nu_step ia.nu_steps).flatMap fun nu_step =>
    [reportProgress toLong Q current_calc_probs { es with nu_step } ia (nu_step + 1)]

def unitReports (es : EvaluationState R) : List R :=
  (steps es.currentCut Q.number_integrals).flatMap fun currentCut =>
    let es := if currentCut = es.currentCut then es
      else { es with currentCut, nu_step := 0, mu_step := 0 }
    if Q.onDevice then integralReportsCL toLong Q es else integralReports Q es

/-- The reports of the evaluations of a run, one after another. -/
def runReports (entered : List (ℕ × EvaluationState R)) : List R :=
  entered.flatMap fun e => unitReports toLong Q e.2

end

/-! ## Numbers of steps -/

def probsBefore (ias : ℕ → IntegralArea R) (cut : ℕ) : ℕ :=
  ∑ i ∈ Finset.range cut, (ias i).nu_steps * (ias i).mu_steps * (ias i).r_steps

theorem foldl_add_mod (M : ℕ) (f : ℕ → ℕ) (n : ℕ) :
    (List.range n).foldl (fun sum i => (sum + f i % M) % M) 0 =
      (∑ i ∈ Finset.range n, f i) % M := by
  induction n with
  | zero => rw [Finset.range_zero, Finset.sum_empty, Nat.zero_mod]; rfl
  | succ n ih =>
      rw [List.range_succ, List.foldl_append, ih, Finset.sum_range_succ]
      exact (Nat.add_mod _ _ M).symm

theorem findTotalCalcProbs_eq (ias : ℕ → IntegralArea R) (n : ℕ) :
    findTotalCalcProbs ias n = probsBefore ias n % 2 ^ 64 := by
  rw [probsBefore, ← foldl_add_mod]
  unfold findTotalCalcProbs IntegralArea.calcProbs
  congr 1
  funext sum i
  rw [Nat.mod_mul_mod, Nat.mul_comm (ias i).mu_steps]

theorem completedIntegralProgress_eq (ias : ℕ → IntegralArea R) (cut : ℕ) :
    completedIntegralProgress ias cut = probsBefore ias cut % 2 ^ 64 := by
  rw [probsBefore, ← foldl_add_mod]
  unfold completedIntegralProgress
  congr 1
  funext sum i
  rw [Nat.mod_mul_mod, Nat.mul_comm ((ias i).nu_steps * _), Nat.mul_comm (ias i).nu_steps,
    Nat.mul_assoc]

theorem probsBefore_succ (ias : ℕ → IntegralArea R) (cut : ℕ) :
    probsBefore ias (cut + 1) =
      probsBefore ias cut + (ias cut).nu_steps * (ias cut).mu_steps * (ias cut).r_steps :=
  Finset.sum_range_succ ..

theorem probsBefore_mono (ias : ℕ → IntegralArea R) : Monotone (probsBefore ias) :=
  monotone_nat_of_le_succ fun cut => probsBefore_succ ias cut ▸ Nat.le_add_right _ _

end

/-! ## Reports that climb -/

section
variable {R : Type} [Preorder R]

structure Climbs (f : ℕ → R) (low high : ℕ) (l : List R) : Prop where
  ordered : l.Pairwise (· ≤ ·)
  within : ∀ x ∈ l, ∃ n, low ≤ n ∧ n ≤ high ∧ x = f n

namespace Climbs
variable {f : ℕ → R} {low high low' high' : ℕ} {l : List R}

theorem nil : Climbs f low high [] := ⟨.nil, nofun⟩

theorem singleton {n : ℕ} (le : low ≤ n) (le' : n ≤ high) : Climbs f low high [f n] where
  ordered := List.pairwise_singleton _ _
  within _ mem := ⟨n, le, le', List.mem_singleton.mp mem⟩

theorem widen (climbs : Climbs f low high l) (le : low' ≤ low) (le' : high ≤ high') :
    Climbs f low' high' l where
  ordered := climbs.ordered
  within x mem := by
    obtain ⟨n, lower, upper, value⟩ := climbs.within x mem
    exact ⟨n, le.trans lower, upper.trans le', value⟩

theorem flatMap {g : ℕ → ℕ} {part : ℕ → List R} {counter limit top : ℕ}
    (mono : ∀ m n, m ≤ n → n ≤ top → f m ≤ f n) (climb : Monotone g) (below : g limit ≤ top)
    (parts : ∀ i, counter ≤ i → i < limit → Climbs f (g i) (g (i + 1)) (part i)) :
    Climbs f (g counter) (g limit) ((steps counter limit).flatMap part) := by
  have range := fun i => (@mem_steps counter limit i).mp
  constructor
  · refine List.pairwise_flatMap.mpr ⟨?_, ?_⟩
    · intro i mem
      obtain ⟨lower₁, less₁⟩ := range i mem
      exact (parts i lower₁ less₁).ordered
    · refine (List.pairwise_lt_range' (s := counter)).imp_of_mem ?_
      intro i j mem mem' less x x_mem y y_mem
      obtain ⟨lower₁, less₁⟩ := range i mem
      obtain ⟨lower₂, less₂⟩ := range j mem'
      obtain ⟨m, -, upper, rfl⟩ := (parts i lower₁ less₁).within x x_mem
      obtain ⟨n, lower, upper', rfl⟩ := (parts j lower₂ less₂).within y y_mem
      have between := climb (Nat.succ_le_of_lt less)
      exact mono m n (upper.trans (between.trans lower))
        (upper'.trans ((climb (Nat.succ_le_of_lt less₂)).trans below))
  · intro x mem
    obtain ⟨i, i_mem, x_mem⟩ := List.mem_flatMap.mp mem
    obtain ⟨lower₁, less₁⟩ := range i i_mem
    obtain ⟨n, lower, upper, value⟩ := (parts i lower₁ less₁).within x x_mem
    exact ⟨n, (climb lower₁).trans lower, upper.trans (climb (Nat.succ_le_of_lt less₁)), value⟩

end Climbs

end

/-! ## Fractions -/

section
variable {R : Type} [Preorder R] [Zero R] [NatCast R] [IntCast R] [Add R] [Mul R] [Div R]

/-- The numbers of steps have room in their machine integers, on a device also the fractions
before they are divided, and rounding does not lift the end of a unit over the start of the
next one. -/
structure Reporting.Fits (Q : Reporting R) : Prop where
  some : 0 < probsBefore Q.ias Q.number_integrals
  room : probsBefore Q.ias Q.number_integrals < 2 ^ 64
  integral : Q.onDevice = false → ∀ i < Q.number_integrals,
    ((Q.ias i).nu_steps * (Q.ias i).mu_steps - 1) * (Q.ias i).r_steps < 2 ^ 32
  units : ∀ unit < Q.totalWUs, Q.total_calc_probs + (unit : R) * Q.total_calc_probs ≤
    ((0 : ℕ) : R) + ((unit + 1 : ℕ) : R) * Q.total_calc_probs
  long : Q.onDevice = true → (Q.totalWUs : R) * Q.total_calc_probs < ((2 ^ 63 : ℕ) : R)

def Reporting.numerator (Q : Reporting R) (unit n : ℕ) : R :=
  (n : R) + (unit : R) * Q.total_calc_probs

def Reporting.fraction (L : LongConversion R) (Q : Reporting R) (unit n : ℕ) : R :=
  (if Q.onDevice then (L.toLong (Q.numerator unit n) : R) else Q.numerator unit n) /
    ((Q.totalWUs : R) * Q.total_calc_probs)

variable [RoundedArithmetic R] {L : LongConversion R} {Q : Reporting R}

open RoundedArithmetic

namespace Reporting.Fits

omit [Zero R] [IntCast R] [Div R] [RoundedArithmetic R] in
theorem total_eq (fits : Q.Fits) :
    Q.total_calc_probs = (probsBefore Q.ias Q.number_integrals : R) := by
  rw [Reporting.total_calc_probs, findTotalCalcProbs_eq, Nat.mod_eq_of_lt fits.room]

omit [IntCast R] in
theorem total_pos (fits : Q.Fits) : 0 < Q.total_calc_probs := by
  rw [fits.total_eq]
  exact natCast_pos fits.some

omit [IntCast R] in
theorem numerator_nonneg (fits : Q.Fits) (unit n : ℕ) : 0 ≤ Q.numerator unit n :=
  add_nonneg (natCast_nonneg n) (mul_nonneg unit fits.total_pos.le)

omit [IntCast R] in
theorem numerator_le (fits : Q.Fits) {unit unit' m n : ℕ}
    (bound : m ≤ probsBefore Q.ias Q.number_integrals) (before : unit' ≤ Q.totalWUs)
    (order : unit < unit' ∨ unit = unit' ∧ m ≤ n) :
    Q.numerator unit m ≤ Q.numerator unit' n := by
  have total := fits.total_pos.le
  obtain less | ⟨rfl, le⟩ := order
  · calc Q.numerator unit m
        ≤ Q.total_calc_probs + (unit : R) * Q.total_calc_probs := by
          refine add_le_add (natCast_nonneg m) ?_ (mul_nonneg unit total) le_rfl
          rw [fits.total_eq]
          exact natCast_mono bound
      _ ≤ ((0 : ℕ) : R) + ((unit + 1 : ℕ) : R) * Q.total_calc_probs :=
          fits.units unit (less.trans_le before)
      _ ≤ Q.numerator unit' n :=
          add_le_add (natCast_nonneg 0) (natCast_mono n.zero_le) (mul_nonneg _ total)
            (mul_le_mul less total)
  · exact add_le_add (natCast_nonneg m) (natCast_mono le) (mul_nonneg unit total) le_rfl

omit [IntCast R] in
theorem numerator_le_all (fits : Q.Fits) {unit n : ℕ}
    (bound : n ≤ probsBefore Q.ias Q.number_integrals) (before : unit < Q.totalWUs) :
    Q.numerator unit n ≤ (Q.totalWUs : R) * Q.total_calc_probs :=
  (fits.numerator_le (n := 0) bound le_rfl (Or.inl before)).trans
    (zero_add_mul Q.totalWUs fits.total_pos.le)

theorem fraction_le (fits : Q.Fits) {unit unit' m n : ℕ}
    (bound : m ≤ probsBefore Q.ias Q.number_integrals)
    (bound' : n ≤ probsBefore Q.ias Q.number_integrals) (before : unit' < Q.totalWUs)
    (order : unit < unit' ∨ unit = unit' ∧ m ≤ n) :
    Q.fraction L unit m ≤ Q.fraction L unit' n := by
  have divisor : 0 < (Q.totalWUs : R) * Q.total_calc_probs :=
    mul_pos (Nat.zero_lt_of_lt before) fits.total_pos
  have le := fits.numerator_le bound before.le order
  have most := fits.numerator_le_all bound' before
  unfold Reporting.fraction
  cases device : Q.onDevice with
  | false => exact div_le_div (fits.numerator_nonneg unit m) le divisor
  | true =>
      have range := most.trans_lt (fits.long device)
      exact div_le_div (L.nonneg (natCast_nonneg m) (mul_nonneg unit fits.total_pos.le)
        (le.trans_lt range)) (L.mono (fits.numerator_nonneg unit m) le range) divisor

theorem fraction_range (fits : Q.Fits) {unit n : ℕ}
    (bound : n ≤ probsBefore Q.ias Q.number_integrals) (before : unit < Q.totalWUs) :
    0 ≤ Q.fraction L unit n ∧ Q.fraction L unit n ≤ ((1 : ℕ) : R) := by
  have divisor : 0 < (Q.totalWUs : R) * Q.total_calc_probs :=
    mul_pos (Nat.zero_lt_of_lt before) fits.total_pos
  have nonneg := fits.numerator_nonneg unit n
  have most := fits.numerator_le_all bound before
  unfold Reporting.fraction
  cases device : Q.onDevice with
  | false => exact ⟨div_nonneg nonneg divisor, (div_le_div nonneg most divisor).trans
      (div_self divisor)⟩
  | true =>
      have range := most.trans_lt (fits.long device)
      have unit_nonneg := mul_nonneg unit fits.total_pos.le
      have kept := L.nonneg (natCast_nonneg n) unit_nonneg range
      have cut := L.le (natCast_nonneg n) unit_nonneg range
      exact ⟨div_nonneg kept divisor, (div_le_div kept (cut.trans most) divisor).trans
        (div_self divisor)⟩

end Reporting.Fits

/-! ## The reports of a unit -/

section
variable {es : EvaluationState R} {cut : ℕ}

omit [Preorder R] [Zero R] [NatCast R] [IntCast R] [Add R] [Mul R] [Div R]
  [RoundedArithmetic R] in
theorem probsBefore_add_le (ias : ℕ → IntegralArea R) {number_integrals n : ℕ}
    (within : cut < number_integrals)
    (le : n ≤ (ias cut).nu_steps * (ias cut).mu_steps * (ias cut).r_steps) :
    probsBefore ias cut + n ≤ probsBefore ias number_integrals := by
  have next := probsBefore_mono ias (Nat.succ_le_of_lt within)
  rw [Nat.succ_eq_add_one, probsBefore_succ] at next
  omega

variable (es) in
omit [RoundedArithmetic R] in
theorem progress_eq (fits : Q.Fits) (device : Q.onDevice = false)
    (within : cut < Q.number_integrals) (nu : es.nu_step < (Q.ias cut).nu_steps)
    (mu : es.mu_step < (Q.ias cut).mu_steps) :
    progress Q (completedIntegralProgress Q.ias cut) es (Q.ias cut) =
      Q.fraction L es.currentWU (probsBefore Q.ias cut +
        (es.nu_step * (Q.ias cut).mu_steps + es.mu_step) * (Q.ias cut).r_steps) := by
  have fit := fits.integral device cut within
  have room := fits.room
  have all := probsBefore_add_le Q.ias (n := (es.nu_step * (Q.ias cut).mu_steps + es.mu_step) *
    (Q.ias cut).r_steps) within
  generalize Q.ias cut = ia at *
  have place : es.nu_step * ia.mu_steps + es.mu_step + 1 ≤ ia.nu_steps * ia.mu_steps := by
    have row := Nat.mul_le_mul_right ia.mu_steps (Nat.succ_le_of_lt nu)
    rw [Nat.succ_mul] at row
    omega
  have small : (es.nu_step * ia.mu_steps + es.mu_step) * ia.r_steps < 2 ^ 32 :=
    (Nat.mul_le_mul_right _ (by omega)).trans_lt fit
  have total := all (Nat.mul_le_mul_right _ (by omega))
  have i_prog : (es.nu_step * ia.mu_steps % 2 ^ 64 * ia.r_steps % 2 ^ 64 +
      es.mu_step * ia.r_steps % 2 ^ 64) % 2 ^ 64 % 2 ^ 32 =
      (es.nu_step * ia.mu_steps + es.mu_step) * ia.r_steps := by
    rw [Nat.mod_mul_mod, ← Nat.add_mod, ← Nat.add_mul,
      Nat.mod_eq_of_lt (small.trans (by norm_num)), Nat.mod_eq_of_lt small]
  have before : completedIntegralProgress Q.ias cut = probsBefore Q.ias cut := by
    rw [completedIntegralProgress_eq, Nat.mod_eq_of_lt (by omega)]
  unfold progress Reporting.fraction Reporting.numerator
  dsimp only
  rw [i_prog, before, device, if_neg Bool.false_ne_true, Nat.add_comm _ (probsBefore Q.ias cut),
    Nat.mod_eq_of_lt (by omega)]

variable (es) in
omit [RoundedArithmetic R] in
theorem reportProgress_eq (fits : Q.Fits) (device : Q.onDevice = true)
    (within : cut < Q.number_integrals) (step : ℕ) (le : step ≤ (Q.ias cut).nu_steps) :
    reportProgress L.toLong Q (completedIntegralProgress Q.ias cut) es (Q.ias cut) step =
      Q.fraction L es.currentWU (probsBefore Q.ias cut +
        step * (Q.ias cut).mu_steps * (Q.ias cut).r_steps) := by
  have room := fits.room
  have all := probsBefore_add_le Q.ias within
    (n := step * (Q.ias cut).mu_steps * (Q.ias cut).r_steps)
    (Nat.mul_le_mul_right _ (Nat.mul_le_mul_right _ le))
  have steps : (Q.ias cut).mu_steps * (Q.ias cut).r_steps % 2 ^ 64 * step % 2 ^ 64 =
      step * (Q.ias cut).mu_steps * (Q.ias cut).r_steps := by
    rw [Nat.mod_mul_mod, Nat.mul_comm, ← Nat.mul_assoc, Nat.mod_eq_of_lt (by omega)]
  have before : completedIntegralProgress Q.ias cut = probsBefore Q.ias cut := by
    rw [completedIntegralProgress_eq, Nat.mod_eq_of_lt (by omega)]
  unfold reportProgress Reporting.fraction Reporting.numerator
  dsimp only
  rw [steps, before, device, if_pos rfl, Nat.mod_eq_of_lt (by omega)]

theorem fraction_mono (fits : Q.Fits) {unit : ℕ} (unit_lt : unit < Q.totalWUs) (m n : ℕ)
    (le : m ≤ n) (bound : n ≤ probsBefore Q.ias Q.number_integrals) :
    Q.fraction L unit m ≤ Q.fraction L unit n :=
  fits.fraction_le (le.trans bound) bound unit_lt (Or.inr ⟨rfl, le⟩)

theorem climbs_integralReports (fits : Q.Fits) (unit_lt : es.currentWU < Q.totalWUs)
    (device : Q.onDevice = false) (within : es.currentCut < Q.number_integrals) :
    Climbs (Q.fraction L es.currentWU) (probsBefore Q.ias es.currentCut)
      (probsBefore Q.ias (es.currentCut + 1)) (integralReports Q es) := by
  have report := fun nu_step mu_step => progress_eq (L := L)
    { es with nu_step, mu_step } fits device within
  have all := fun n => probsBefore_add_le Q.ias (n := n) within
  have mono := fraction_mono (L := L) fits unit_lt
  rw [probsBefore_succ]
  unfold integralReports
  dsimp only at report ⊢
  generalize Q.ias es.currentCut = ia at *
  generalize probsBefore Q.ias es.currentCut = before at *
  have row : ∀ nu_step < ia.nu_steps, ∀ counter,
      Climbs (Q.fraction L es.currentWU) (before + nu_step * ia.mu_steps * ia.r_steps)
        (before + (nu_step + 1) * ia.mu_steps * ia.r_steps)
        ((steps counter ia.mu_steps).flatMap fun mu_step =>
          [progress Q (completedIntegralProgress Q.ias es.currentCut)
            { es with nu_step, mu_step } ia]) := by
    intro nu_step less counter
    have top : (nu_step * ia.mu_steps + ia.mu_steps) * ia.r_steps ≤
        ia.nu_steps * ia.mu_steps * ia.r_steps := by
      rw [← Nat.succ_mul]
      exact Nat.mul_le_mul_right _ (Nat.mul_le_mul_right _ less)
    refine (Climbs.flatMap (g := fun mu_step => before +
      (nu_step * ia.mu_steps + mu_step) * ia.r_steps) mono ?_ (all _ top) ?_).widen ?_ ?_
    · exact fun i j le => Nat.add_le_add_left (Nat.mul_le_mul_right _ (by omega)) _
    · intro mu_step _ below
      rw [report nu_step mu_step less below]
      exact .singleton le_rfl (Nat.add_le_add_left (Nat.mul_le_mul_right _ (by omega)) _)
    · exact Nat.add_le_add_left (Nat.mul_le_mul_right _ (by omega)) _
    · rw [Nat.succ_mul]
  refine (Climbs.flatMap (g := fun nu_step => before + nu_step * ia.mu_steps * ia.r_steps) mono
    ?_ (all _ le_rfl) fun nu_step _ less => row nu_step less _).widen (Nat.le_add_right _ _) le_rfl
  exact fun i j le => Nat.add_le_add_left (Nat.mul_le_mul_right _ (Nat.mul_le_mul_right _ le)) _

theorem climbs_integralReportsCL (fits : Q.Fits) (unit_lt : es.currentWU < Q.totalWUs)
    (device : Q.onDevice = true) (within : es.currentCut < Q.number_integrals) :
    Climbs (Q.fraction L es.currentWU) (probsBefore Q.ias es.currentCut)
      (probsBefore Q.ias (es.currentCut + 1)) (integralReportsCL L.toLong Q es) := by
  have report := fun nu_step => reportProgress_eq (L := L) { es with nu_step }
    fits device within (nu_step + 1)
  have all := fun n => probsBefore_add_le Q.ias (n := n) within
  rw [probsBefore_succ]
  unfold integralReportsCL
  dsimp only at report ⊢
  generalize Q.ias es.currentCut = ia at *
  generalize probsBefore Q.ias es.currentCut = before at *
  refine (Climbs.flatMap (g := fun nu_step => before + nu_step * ia.mu_steps * ia.r_steps)
    (fraction_mono fits unit_lt) ?_ (all _ le_rfl) fun nu_step _ less => ?_).widen
    (Nat.le_add_right _ _) le_rfl
  · exact fun i j le => Nat.add_le_add_left
      (Nat.mul_le_mul_right _ (Nat.mul_le_mul_right _ le)) _
  · rw [report nu_step less]
    exact .singleton (Nat.add_le_add_left
      (Nat.mul_le_mul_right _ (Nat.mul_le_mul_right _ (Nat.le_succ _))) _) le_rfl

theorem climbs_unitReports (fits : Q.Fits) (unit_lt : es.currentWU < Q.totalWUs) :
    Climbs (Q.fraction L es.currentWU) 0 (probsBefore Q.ias Q.number_integrals)
      (unitReports L.toLong Q es) := by
  refine (Climbs.flatMap (g := probsBefore Q.ias) (fraction_mono fits unit_lt)
    (probsBefore_mono Q.ias) le_rfl fun cut _ within => ?_).widen (Nat.zero_le _) le_rfl
  generalize state : (if cut = es.currentCut then es
    else { es with currentCut := cut, nu_step := 0, mu_step := 0 }) = s
  have same : s.currentCut = cut ∧ s.currentWU = es.currentWU := by
    rw [← state]
    split
    · next here => exact ⟨here.symm, rfl⟩
    · exact ⟨rfl, rfl⟩
  obtain ⟨rfl, unit⟩ := same
  rw [← unit] at unit_lt ⊢
  cases device : Q.onDevice with
  | false => exact climbs_integralReports fits unit_lt device within
  | true => exact climbs_integralReportsCL fits unit_lt device within

end

/-- Fractions that never fall and stay between zero and one. -/
structure Monotone01 (reports : List R) : Prop where
  ordered : reports.Pairwise (· ≤ ·)
  range : ∀ report ∈ reports, 0 ≤ report ∧ report ≤ ((1 : ℕ) : R)

structure InOrder (totalWUs : ℕ) (entered : List (ℕ × EvaluationState R)) : Prop where
  increasing : entered.Pairwise fun e e' => e.2.currentWU < e'.2.currentWU
  units : ∀ e ∈ entered, e.2.currentWU < totalWUs

theorem monotone_runReports (fits : Q.Fits) {entered : List (ℕ × EvaluationState R)}
    (inOrder : InOrder Q.totalWUs entered) : Monotone01 (runReports L.toLong Q entered) := by
  have climbs := fun e mem => climbs_unitReports (L := L) fits (inOrder.units e mem)
  constructor
  · refine List.pairwise_flatMap.mpr ⟨fun e mem => (climbs e mem).ordered, ?_⟩
    refine inOrder.increasing.imp_of_mem ?_
    intro e e' mem mem' less x x_mem y y_mem
    obtain ⟨m, -, bound, rfl⟩ := (climbs e mem).within x x_mem
    obtain ⟨n, -, bound', rfl⟩ := (climbs e' mem').within y y_mem
    exact fits.fraction_le bound bound' (inOrder.units e' mem') (Or.inl less)
  · intro x mem
    obtain ⟨e, e_mem, x_mem⟩ := List.mem_flatMap.mp mem
    obtain ⟨n, -, bound, rfl⟩ := (climbs e e_mem).within x x_mem
    exact fits.fraction_range bound (inOrder.units e e_mem)

end

/-! ## Runs of the worker -/

section
variable {R : Type} [Zero R] [Add R] [Neg R] [Sub R] [Mul R] [Div R] [OfScientific R] [NatCast R]
  [IntCast R] [BEq R] [LT R] [DecidableLT R] [LE R] [DecidableLE R]
variable (P : Program R)

/-- What the reports of a program are made with. -/
def Program.reporting (prepared : Shared R) : Reporting R where
  ias := P.ias
  number_integrals := prepared.ap.number_integrals
  totalWUs := (P.prepare prepared).ap.totalWUs
  onDevice := P.device.isSome

variable {P} {ap : AstronomyParameters R} {ignoreCheckpoint : Bool} {w : World R}
  {totalWUs : ℕ}

/-- The evaluations so far are in order and come before a unit; as long as the loop looks
into the checkpoint there have been none. -/
structure Before (totalWUs unit : ℕ) (ignoreCheckpoint : Bool) (w : World R) : Prop where
  inOrder : InOrder totalWUs w.entered
  before : ∀ e ∈ w.entered, e.2.currentWU < unit
  looks : ignoreCheckpoint = false → w.entered = []

def Ordered (P : Program R) (prepared : Shared R) : Machine R → Prop
  | .running s ignoreCheckpoint _ w => s.ap.totalWUs = (P.reporting prepared).totalWUs ∧
      Before (P.reporting prepared).totalWUs s.ap.currentWU ignoreCheckpoint w
  | .interrupted w => InOrder (P.reporting prepared).totalWUs w.entered
  | .finished _ w => InOrder (P.reporting prepared).totalWUs w.entered

section
omit [Neg R] [Mul R] [Div R] [OfScientific R] [NatCast R] [IntCast R] [BEq R] [LT R]
  [DecidableLT R] [LE R] [DecidableLE R]

theorem Before.enter (before : Before totalWUs ap.currentWU ignoreCheckpoint w)
    (less : ap.currentWU < totalWUs) {es : EvaluationState R} {done : Bool}
    (enters : Enters ap ignoreCheckpoint w es done) :
    InOrder totalWUs (w.enter ap.currentWU es).entered ∧
      ∀ e ∈ (w.enter ap.currentWU es).entered, e.2.currentWU < ap.currentWU + 1 := by
  have unit : es.currentWU ≤ ap.currentWU := by
    cases enters with
    | anew _ => exact le_rfl
    | first _ _ => exact le_rfl
    | resumes _ _ unit _ => exact unit
  have later : ∀ e ∈ w.entered, e.2.currentWU < es.currentWU := by
    cases enters with
    | anew _ => exact before.before
    | first looks _ => rw [before.looks looks]; exact nofun
    | resumes looks _ _ _ => rw [before.looks looks]; exact nofun
  have all : ∀ e ∈ (w.enter ap.currentWU es).entered, e.2.currentWU ≤ ap.currentWU := by
    intro e mem
    obtain old | new := List.mem_append.mp mem
    · exact (before.before e old).le
    · rw [List.mem_singleton.mp new]
      exact unit
  refine ⟨⟨List.pairwise_append.mpr ⟨before.inOrder.increasing, List.pairwise_singleton _ _, ?_⟩,
    fun e mem => (all e mem).trans_lt less⟩, fun e mem => Nat.lt_succ_of_le (all e mem)⟩
  intro e mem e' mem'
  rw [List.mem_singleton.mp mem']
  exact later e mem

end

def Goes (totalWUs : ℕ) : Evaluated R → Prop
  | .error w => InOrder totalWUs w.entered
  | .ok (_, currentWU, ignoreCheckpoint, w) =>
      Before totalWUs (currentWU + 1) ignoreCheckpoint w

omit [Zero R] [Add R] [Neg R] [Sub R] [Mul R] [Div R] [OfScientific R] [NatCast R] [IntCast R]
  [BEq R] [LT R] [DecidableLT R] [LE R] [DecidableLE R] in
theorem entered_print (w : World R) (unit : ℕ) (out : ℤ × SeparationResults R) :
    (w.print unit out).entered = w.entered := by
  unfold World.print
  split
  · rfl
  · rfl

theorem entered_integrated {fate : Fate R} {sc : List (StreamConstants R)}
    {probabilityFunc : ProbabilityFunc R} {es t : EvaluationState R} {done : Bool} {w' : World R}
    (integrated : Integrated P fate ap sc w probabilityFunc es done t w') :
    w'.entered = w.entered := by
  cases integrated with
  | already => rfl
  | now _ saved => exact (file_checkpoint saved).2.1

theorem goes_evaluation {fate : Fate R} {streams : Streams R} {sc : List (StreamConstants R)}
    {e : Evaluated R} (before : Before totalWUs ap.currentWU ignoreCheckpoint w)
    (less : ap.currentWU < totalWUs)
    (evaluation : Evaluation P fate ap streams sc ignoreCheckpoint w e) : Goes totalWUs e := by
  have next : ∀ e ∈ w.entered, e.2.currentWU < ap.currentWU + 1 :=
    fun e mem => (before.before e mem).trans (Nat.lt_succ_self _)
  cases evaluation with
  | refused _ => exact ⟨before.inOrder, next, before.looks⟩
  | unreadable looks _ => exact ⟨before.inOrder, next, fun _ => before.looks looks⟩
  | leaves looks _ ahead =>
      have none := before.looks looks
      exact ⟨before.inOrder, by rw [none]; exact nofun, fun _ => none⟩
  | skips _ _ _ _ => exact ⟨before.inOrder, next, nofun⟩
  | fails enters =>
      obtain ⟨inOrder, upTo⟩ := before.enter less enters
      exact ⟨inOrder, upTo, nofun⟩
  | stopped enters _ => exact (before.enter less enters).1
  | complete enters _ saved =>
      have world := checkpoint_stopped saved
      subst world
      exact (before.enter less enters).1
  | @starless _ _ _ _ w' enters integrated =>
      obtain ⟨inOrder, upTo⟩ := before.enter less enters
      rw [← entered_integrated integrated] at inOrder upTo
      exact ⟨inOrder, upTo, nofun⟩
  | @prints probabilityFunc _ t _ w' _ enters integrated =>
      obtain ⟨inOrder, upTo⟩ := before.enter less enters
      generalize out : P.likelihood probabilityFunc ap streams sc fate.opensOutfile t = result
      rw [← entered_integrated integrated, ← entered_print w' ap.currentWU result] at inOrder upTo
      match saved : (w'.print ap.currentWU result).checkpoint fate.printed
          { t with WUPrinted := true } with
      | .error w'' =>
          have world := checkpoint_stopped saved
          subst world
          exact inOrder
      | .ok w'' =>
          rw [← (file_checkpoint saved).2.1] at inOrder upTo
          exact ⟨inOrder, upTo, nofun⟩

theorem ordered_worker {prepared : Shared R} (fate : Fate R) {m : Machine R}
    (ordered : Ordered P prepared m) (running : ¬ m.Interrupted) :
    Ordered P prepared (worker P prepared fate m) := by
  have exits : ∀ rc w, InOrder (P.reporting prepared).totalWUs w.entered →
      Ordered P prepared (P.exit rc w) := by
    intro rc w inOrder
    obtain ⟨w', exit, -, entered, -⟩ := exit_finished P rc w
    rw [exit]
    change InOrder _ _
    rw [entered]
    exact inOrder
  cases m with
  | interrupted w => exact absurd trivial running
  | finished rc w => exact ordered
  | running s ignoreCheckpoint rc w =>
      obtain ⟨total, before⟩ := ordered
      unfold worker
      dsimp only
      by_cases all : s.ap.totalWUs ≤ s.ap.currentWU
      · rw [if_pos all]
        exact exits rc w before.inOrder
      rw [if_neg all]
      match set : setUp P.L P.numArgs s with
      | none => exact exits 1 w before.inOrder
      | some (s', sc) =>
          obtain ⟨unit, units⟩ := setUp_numbers P.L set
          rw [← unit] at before
          have less : s'.ap.currentWU < (P.reporting prepared).totalWUs := by omega
          have goes := goes_evaluation before less (evaluation_evaluate P fate s'.ap s'.streams sc
            ignoreCheckpoint w)
          dsimp only
          match out : evaluate P fate s'.ap s'.streams sc ignoreCheckpoint w with
          | .error w' => rw [out] at goes; exact goes
          | .ok (rc', currentWU, ignores, w') =>
              rw [out] at goes
              exact ⟨units.trans total, goes⟩

theorem ordered_run {prepared : Shared R} (fates : List (Fate R)) {m : Machine R}
    (ordered : Ordered P prepared m) (running : ¬ m.Interrupted)
    (uninterrupted : Uninterrupted P prepared fates m) :
    Ordered P prepared (run P prepared fates m) ∧ ¬ (run P prepared fates m).Interrupted := by
  induction fates generalizing m with
  | nil => exact ⟨ordered, running⟩
  | cons fate fates ih =>
      exact ih (ordered_worker fate ordered running) uninterrupted.1 uninterrupted.2

omit [Zero R] [Add R] [Neg R] [Sub R] [Mul R] [Div R] [OfScientific R] [NatCast R] [IntCast R]
  [BEq R] [LT R] [DecidableLT R] [LE R] [DecidableLE R] in
theorem Ordered.inOrder {prepared : Shared R} {m : Machine R} (ordered : Ordered P prepared m) :
    InOrder (P.reporting prepared).totalWUs m.world.entered := by
  cases m with
  | running s ignoreCheckpoint rc w => exact ordered.2.inOrder
  | interrupted w => exact ordered
  | finished rc w => exact ordered

end

/-- The reports of a process that starts with any file and is interrupted at the last turn,
if at all, never fall and stay between zero and one, also where some are left out because an
evaluation ends early. -/
theorem monotone_run {R : Type} [Preorder R] [DecidableLT R] [DecidableLE R] [Zero R] [Add R]
    [Neg R] [Sub R] [Mul R] [Div R] [OfScientific R] [NatCast R] [IntCast R] [BEq R]
    [RoundedArithmetic R] (L : LongConversion R) (P : Program R) (prepared : Shared R)
    (fits : (P.reporting prepared).Fits) (fates : List (Fate R)) (last : Fate R) (rc : ℤ)
    {w : World R} (anew : w.entered = [])
    (uninterrupted : Uninterrupted P prepared fates (P.start prepared rc w))
    {reports : List R}
    (made : reports.Sublist (runReports L.toLong (P.reporting prepared)
      (worker P prepared last (run P prepared fates (P.start prepared rc w))).world.entered)) :
    Monotone01 reports := by
  have start : Ordered P prepared (P.start prepared rc w) := by
    refine ⟨rfl, ⟨?_, ?_⟩, ?_, fun _ => anew⟩
    · rw [anew]
      exact .nil
    · rw [anew]
      exact nofun
    · rw [anew]
      exact nofun
  obtain ⟨ordered, running⟩ := ordered_run fates start id uninterrupted
  have all := monotone_runReports (L := L) fits (ordered_worker last ordered running).inOrder
  exact ⟨all.ordered.sublist made, fun report mem => all.range report (made.subset mem)⟩

theorem monotone_run_twoUnits :
    (twoUnits.reporting withoutStreams).Fits ∧
      Monotone01 (runReports (LongConversion.exact fun _ => 0).toLong
        (twoUnits.reporting withoutStreams) (worker twoUnits withoutStreams Fate.calm
          (run twoUnits withoutStreams [Fate.calm] (twoUnits.start withoutStreams 0
            World.start))).world.entered) := by
  have fits : (twoUnits.reporting withoutStreams).Fits :=
    ⟨by decide, by decide, fun _ => by decide, by decide +kernel, nofun⟩
  exact ⟨fits, monotone_run (.exact fun _ => 0) twoUnits withoutStreams fits [Fate.calm] Fate.calm
    0 rfl (by decide +kernel) (List.Sublist.refl _)⟩

/-! ## An area of 2 ^ 33 probabilities -/

section
variable {R : Type} [Zero R] [Add R] [Neg R] [Sub R] [Mul R] [Div R] [OfScientific R] [NatCast R]
  [IntCast R] [BEq R] [LT R] [DecidableLT R] [LE R] [DecidableLE R]
variable (P : Program R) (fate : Fate R) (probabilityFunc : ProbabilityFunc R)
  (ap : AstronomyParameters R) (streams : Streams R) (sc : List (StreamConstants R))

def Evaluated.world : Evaluated R → World R
  | .error w => w
  | .ok (_, _, _, w) => w

omit [Zero R] [Add R] [Neg R] [Sub R] [Mul R] [Div R] [OfScientific R] [NatCast R] [IntCast R]
  [BEq R] [LT R] [DecidableLT R] [LE R] [DecidableLE R] in
theorem entered_checkpoint (w : World R) (chance : Chance) (es : EvaluationState R)
    {next : World R → Evaluated R} (kept : ∀ w, (next w).world.entered = w.entered) :
    (Evaluated.world ((w.checkpoint chance es).bind next)).entered = w.entered := by
  cases chance with
  | pass => exact kept w
  | save => exact kept _
  | stop => rfl

omit [IntCast R] in
theorem entered_finish (es : EvaluationState R) (w : World R) :
    (P.finish fate probabilityFunc ap streams sc es w).world.entered = w.entered := by
  unfold Program.finish
  split
  · rfl
  · generalize P.likelihood probabilityFunc ap streams sc fate.opensOutfile es = out
    have printed := entered_print w ap.currentWU out
    unfold World.print at printed
    dsimp only at printed ⊢
    cases fate.printed with
    | pass => exact printed
    | save => exact printed
    | stop => exact printed

theorem entered_goOn (es : EvaluationState R) (done : Bool) (w : World R) :
    (P.goOn fate probabilityFunc ap streams sc es done w).world.entered =
      w.entered ++ [(ap.currentWU, es)] := by
  unfold Program.goOn
  dsimp only
  split
  · exact entered_finish P fate probabilityFunc ap streams sc es _
  · split
    · rfl
    · split
      · rfl
      · rfl
      · next t _ _ =>
          exact entered_checkpoint _ _ _ fun w =>
            entered_finish P fate probabilityFunc ap streams sc t w

omit sc in
theorem world_worker {prepared s s' : Shared R} {sc : List (StreamConstants R)}
    (less : s.ap.currentWU < s.ap.totalWUs) (set : setUp P.L P.numArgs s = some (s', sc))
    (ignoreCheckpoint : Bool) (rc : ℤ) (w : World R) :
    (worker P prepared fate (.running s ignoreCheckpoint rc w)).world =
      (evaluate P fate s'.ap s'.streams sc ignoreCheckpoint w).world := by
  unfold worker
  dsimp only
  rw [if_neg (not_le.mpr less), set]
  dsimp only
  cases evaluate P fate s'.ap s'.streams sc ignoreCheckpoint w with
  | error w' => rfl
  | ok out => rfl

end

def wideArea : IntegralArea Double := ⟨16.0, 0.5, 0, 0.5, 0, 0.5, 2 ^ 16, 2, 2 ^ 16⟩

/-- A program that integrates the area on the processor. -/
def wide : Program Double where
  L := threeSteps.L
  isfinite := fun _ => true
  NAN := 0
  ias := fun _ => wideArea
  getStreamGauss := fun _ => threeSteps.sg
  stars := [⟨0, 0, 20.0⟩]
  dispatch := ⟨false, true, false, false, fun _ => false, fun _ => false, fun _ => false⟩
  vectorFunc := fun _ _ _ _ _ _ _ => (0, [])
  device := none
  ignoreCheckpoint := true
  cleanupCheckpoint := false
  numArgs := none
  nForwardedArgs := 0

def wideParameters : Shared Double := ⟨oneIntegral, ⟨1.0, 1.0, 1.0, 0.5, 0, 0, 0⟩, ⟨[], 1.0⟩⟩

theorem entered_wide : ∃ ap : AstronomyParameters Double, ap.currentWU = 0 ∧
    (worker wide wideParameters Fate.calm (wide.start wideParameters 0 World.start)).world.entered =
      [(0, newEvaluationState ap)] := by
  have valid : (setUp wide.L wide.numArgs (wide.prepare wideParameters)).isSome := by
    decide +kernel
  obtain ⟨⟨s, sc⟩, set⟩ := Option.isSome_iff_exists.mp valid
  have unit : s.ap.currentWU = 0 := (setUp_numbers wide.L set).1
  refine ⟨s.ap, unit, ?_⟩
  have goes : evaluate wide Fate.calm s.ap s.streams sc true World.start =
      wide.goOn Fate.calm (selectStandardFunction wide.L s.ap) s.ap s.streams sc
        (newEvaluationState s.ap) false World.start := rfl
  have entered := entered_goOn wide Fate.calm (selectStandardFunction wide.L s.ap) s.ap s.streams
    sc (newEvaluationState s.ap) false World.start
  rw [← goes, unit] at entered
  rw [Program.start, world_worker wide Fate.calm (by decide) set]
  exact entered

theorem wide_falls :
    ¬ (runReports (Double.toLong fun _ => 0).toLong (wide.reporting wideParameters)
      (worker wide wideParameters Fate.calm (wide.start wideParameters 0
        World.start)).world.entered).Pairwise (· ≤ ·) := by
  obtain ⟨ap, unit, entered⟩ := entered_wide
  rw [entered]
  intro ordered
  have evaluation := (List.pairwise_flatMap.mp ordered).1 _ (List.mem_singleton_self _)
  have integral : (integralReports (wide.reporting wideParameters)
      (newEvaluationState ap)).Pairwise (· ≤ ·) :=
    (List.pairwise_flatMap.mp evaluation).1 0 (List.mem_singleton_self 0)
  have rows := List.pairwise_pair.mp (List.pairwise_flatMap.mp integral).2
  have falls := rows _ (List.mem_flatMap.mpr ⟨65535, mem_steps.mpr ⟨Nat.zero_le _, ?_⟩,
    List.mem_singleton_self _⟩) _ (List.mem_flatMap.mpr ⟨0, mem_steps.mpr ⟨Nat.zero_le _, ?_⟩,
    List.mem_singleton_self _⟩)
  · unfold progress at falls
    dsimp only [newEvaluationState] at falls
    rw [unit] at falls
    revert falls
    decide +kernel
  · exact (by decide : 65535 < 2 ^ 16)
  · exact (by decide : 0 < 2 ^ 16)

end MilkyWay.Separation
