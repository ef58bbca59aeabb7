import MilkyWay.Foundation.Compensation
import MilkyWay.Separation.IntegralResume
import MilkyWay.Separation.Likelihood

/-! The compensated sums of the separation and the places where they are read. The sums of
the likelihood and of the integrals are made by additions of items and by merges. The
likelihood adds the correction to the sum, the integrals leave it away, and additions
leave one that is to be subtracted. -/

namespace MilkyWay.Separation

open Foundation

/-- The places where a pair of sums is read out. -/
inductive ReadOut
  | likelihood
  | integral
deriving DecidableEq

section
variable {N : Type} [Zero N] [Add N] [Sub N]

/-- What is reported of a pair. -/
def ReadOut.value : ReadOut → Kahan N → N
  | likelihood, k => k.sum + k.correction
  | integral, k => k.sum

omit [Zero N] [Sub N] in
theorem separationIntegralGetSums_eq (es : EvaluationState N) :
    separationIntegralGetSums es = { es with
      cuts := es.cuts.set es.currentCut ⟨ReadOut.integral.value es.bgSum,
        es.streamSums.map ReadOut.integral.value⟩ } := rfl

end

section
variable {R : Type} [AddCommGroup R] {rounding : Rounding R}

namespace ReadOut

def own : ReadOut → Kahan (Rounded rounding) → R
  | likelihood, k => rounding.addError k.sum.value k.correction.value
  | integral, _ => 0

/-- The value reported of a sum is that of its items but for the errors of the corrections'
own operations. -/
def Reports (r : ReadOut) (s : Summation (Rounded rounding)) : Prop :=
  (r.value s.kahan).value = s.exact + (s.own + r.own s.kahan)

instance [DecidableEq R] (r : ReadOut) (s : Summation (Rounded rounding)) :
    Decidable (r.Reports s) := inferInstanceAs (Decidable (_ = _))

/-- The errors of the additions cancel: those that remain with the sign of the correction
turned are none, or those of the correction that is not read. -/
def Cancels : ReadOut → Summation (Rounded rounding) → Prop
  | likelihood, s => s.misread = 0
  | integral, s => s.misread = s.left

theorem value_eq {s : Summation (Rounded rounding)} (recovers : s.Recovers) (r : ReadOut) :
    (r.value s.kahan).value = s.exact + (s.own + r.own s.kahan) +
      match r with
      | likelihood => s.misread
      | integral => s.misread - s.left := by
  cases r with
  | likelihood =>
      change s.kahan.sum.value + s.kahan.correction.value + _ = _
      rw [s.sum_add_correction recovers]
      dsimp only [own]
      abel
  | integral =>
      change s.kahan.sum.value = s.exact + (s.own + 0) + (s.misread - s.left)
      rw [add_zero, s.sum_eq recovers]

theorem reports_iff (s : Summation (Rounded rounding)) (recovers : s.Recovers) (r : ReadOut) :
    r.Reports s ↔ r.Cancels s := by
  rw [Reports, value_eq recovers, add_eq_left]
  cases r with
  | likelihood => exact Iff.rfl
  | integral => exact sub_eq_zero

theorem value_ofItems (items : List (Rounded rounding))
    (recovers : (Summation.ofItems items).Recovers) :
    let s := Summation.ofItems items
    (likelihood.value s.kahan).value =
        s.exact + (s.own + likelihood.own s.kahan) + 2 • s.kahan.correction.value ∧
      (integral.value s.kahan).value =
        s.exact + (s.own + integral.own s.kahan) + s.kahan.correction.value := by
  have correction := Summation.correction_eq_left recovers
  constructor
  · rw [value_eq recovers, correction, ← Summation.misread_ofItems]
  · rw [value_eq recovers, correction, Summation.misread_ofItems, two_nsmul,
      add_sub_cancel_right]

end ReadOut

end

/-! ## The pairs that are read -/

structure MadeState {N : Type} [Zero N] [Add N] [Sub N] (es : EvaluationState N) : Prop where
  bg : Summation.Makes es.bgSum
  streams : ∀ sum ∈ es.streamSums, Summation.Makes sum
  bgKept : Summation.Makes es.bgSumCheckpoint
  streamsKept : ∀ sum ∈ es.streamSumsCheckpoint, Summation.Makes sum

section
variable {N : Type} [Zero N] [Add N] [Neg N] [Sub N] [Mul N] [Div N] [OfScientific N] [NatCast N]
  [IntCast N] [BEq N] [LT N] [DecidableLT N] [LE N] [DecidableLE N]

def MadeSums (sums : Sums N) : Prop :=
  Summation.Makes sums.1 ∧ ∀ sum ∈ sums.2, Summation.Makes sum

omit [Neg N] [Mul N] [Div N] [OfScientific N] [NatCast N] [IntCast N] [BEq N] [LT N]
  [DecidableLT N] [LE N] [DecidableLE N]

theorem makes_mapIdx {sums : List (Kahan N)} {f : ℕ → Kahan N → Kahan N}
    (made : ∀ sum ∈ sums, Summation.Makes sum)
    (keeps : ∀ i sum, Summation.Makes sum → Summation.Makes (f i sum)) :
    ∀ sum ∈ sums.mapIdx f, Summation.Makes sum := by
  intro sum mem
  obtain ⟨i, less, rfl⟩ := List.mem_mapIdx.mp mem
  exact keeps i _ (made _ (List.getElem_mem less))

theorem MadeSums.sumProbs {sums : Sums N} (made : MadeSums sums) (probs : N × List N) :
    MadeSums (sumProbs sums probs) :=
  ⟨made.1.add probs.1, makes_mapIdx made.2 fun i _ made => made.add (probs.2.getD i 0)⟩

theorem makes_getD {sums : List (Kahan N)} (made : ∀ sum ∈ sums, Summation.Makes sum) (i : ℕ) :
    Summation.Makes (sums.getD i 0) := by
  rw [List.getD_eq_getElem?_getD]
  cases found : sums[i]? with
  | none => exact Summation.makes_zero
  | some sum => exact made sum (List.mem_of_getElem? found)

namespace MadeState

theorem new (ap : AstronomyParameters N) : MadeState (newEvaluationState ap) := by
  refine ⟨Summation.makes_zero, fun sum mem => ?_, Summation.makes_zero, fun sum mem => ?_⟩
  · rw [List.eq_of_mem_replicate mem]
    exact Summation.makes_zero
  · rw [List.eq_of_mem_replicate mem]
    exact Summation.makes_zero

theorem sums {es : EvaluationState N} (made : MadeState es) : MadeSums es.sums :=
  ⟨made.bg, made.streams⟩

theorem withSums {es : EvaluationState N} (made : MadeState es) {sums : Sums N}
    (made' : MadeSums sums) : MadeState (es.withSums sums) :=
  ⟨made'.1, made'.2, made.bgKept, made.streamsKept⟩

theorem addTmpCheckpointSums {es : EvaluationState N} (made : MadeState es) :
    MadeState (addTmpCheckpointSums es) where
  bg := made.bg.reduction made.bgKept
  streams := makes_mapIdx made.streams fun i _ sum =>
    sum.reduction (makes_getD made.streamsKept i)
  bgKept := Summation.makes_zero
  streamsKept sum mem := by
    obtain ⟨_, -, rfl⟩ := List.mem_map.mp mem
    exact Summation.makes_zero

end MadeState

end

section
variable {N : Type} [Zero N] [Add N] [Neg N] [Sub N] [Mul N] [Div N] [OfScientific N] [NatCast N]
  [IntCast N] [BEq N] [LT N] [DecidableLT N] [LE N] [DecidableLE N]
variable {E : Integration N} {ap : AstronomyParameters N} {sc : List (StreamConstants N)}
  {ia : IntegralArea N}

omit [BEq N] in
theorem MadeState.muStep {es : EvaluationState N} (made : MadeState es) (nuid : NuId N) :
    MadeState (muStep E ap sc ia nuid es) := by
  have sums : MadeSums (r_sum E ap sc ia (muTrig E ap ia nuid es.mu_step) nuid.id es.sums) :=
    List.foldlRecOn (motive := MadeSums) _ _ made.sums
      fun sums sumsMade r_step _ => sumsMade.sumProbs _
  exact ⟨sums.1, sums.2, made.bgKept, made.streamsKept⟩

/-! Each turn of the loops on the processor, and each save, keeps the sums made. -/

omit [Zero N] [Neg N] [Mul N] [Div N] [OfScientific N] [NatCast N] [IntCast N] [BEq N] [LT N]
  [DecidableLT N] [LE N] [DecidableLE N] in
theorem MadeState.writeCheckpoint [Zero N] {es : EvaluationState N} (made : MadeState es) :
    MadeState (writeCheckpoint es) :=
  ⟨made.bg, made.streams, made.bgKept, made.streamsKept⟩

omit [BEq N] in
theorem made_mu_sum (nuid : NuId N) (o : Oracle (EvaluationState N)) {es : EvaluationState N}
    (made : MadeState es) : Ends MadeState MadeState (fun _ => True)
      (mu_sum E ap sc ia nuid o es) := by
  refine Ends.bind (ends_forLoop (I := MadeState) (fun s made _ => ?_) made) ?_
  · have turn : Ends MadeState MadeState (fun _ => True)
        (((opportunity writeCheckpoint).andThen fun es => .ok (muStep E ap sc ia nuid es)) o s :
          Except (Halt _ ℤ) _) :=
      (ends_opportunity o made made.writeCheckpoint made.writeCheckpoint).bind
        fun t made => made.muStep nuid
    exact (turn.and (ends_muTurn nuid o s)).mono (fun t ends => ⟨ends.1, ends.2.2⟩)
      (fun c ends => ends.1) fun _ _ => trivial
  · exact fun t ends => ⟨ends.1.bg, ends.1.streams, ends.1.bgKept, ends.1.streamsKept⟩

omit [BEq N] in
theorem made_nuSum (o : Oracle (EvaluationState N)) {es : EvaluationState N}
    (made : MadeState es) : Ends MadeState MadeState (fun _ => True) (nuSum E ap sc ia o es) := by
  refine Ends.bind (ends_forLoop (I := MadeState) (fun s made _ => ?_) made) ?_
  · have turn : Ends MadeState MadeState (fun _ => True)
        ((mu_sum E ap sc ia (calcNuStep E.L ia s.nu_step)).andThen
          (fun es => .ok { es with nu_step := es.nu_step + 1 }) o s) :=
      (made_mu_sum _ o made).bind fun t made =>
        ⟨made.bg, made.streams, made.bgKept, made.streamsKept⟩
    exact (turn.and (ends_nuTurn o s)).mono (fun t ends => ⟨ends.1, ends.2.2⟩)
      (fun c ends => ends.1) fun _ _ => trivial
  · exact fun t ends => ⟨ends.1.bg, ends.1.streams, ends.1.bgKept, ends.1.streamsKept⟩

theorem made_integrate (o : Oracle (EvaluationState N)) {es : EvaluationState N}
    (made : MadeState es) :
    Ends MadeState MadeState (fun _ => True) (integrate E ap sc ia o es) := by
  unfold integrate
  split
  · trivial
  · refine (made_nuSum o made).bind fun t made => ?_
    rw [separationIntegralGetSums_eq]
    exact ⟨made.bg, made.streams, made.bgKept, made.streamsKept⟩

structure MadeProgress (p : Progress N) : Prop where
  state : MadeState p.1
  taken : ∀ sums ∈ p.2, MadeSums sums

omit [Neg N] [Mul N] [Div N] [NatCast N] [IntCast N] [BEq N] [LT N] [DecidableLT N] [LE N]
  [DecidableLE N] in
theorem MadeProgress.finishCut {p : Progress N} (made : MadeProgress p) :
    Ends MadeProgress MadeProgress (fun f => ∀ sums ∈ f.2, MadeSums sums)
      (finishCut E sc p) := by
  have taken : ∀ sums ∈ p.2 ++ [p.1.sums], MadeSums sums := by
    intro sums mem
    rcases List.mem_append.mp mem with before | last
    · exact made.taken sums before
    · rw [List.mem_singleton.mp last]
      exact made.state.sums
  unfold Separation.finishCut
  dsimp only
  split
  · exact taken
  · refine ⟨⟨Summation.makes_zero, fun sum mem => ?_, made.state.bgKept,
      made.state.streamsKept⟩, taken⟩
    obtain ⟨_, -, rfl⟩ := List.mem_map.mp mem
    exact Summation.makes_zero

theorem made_calculateOnCPU (o : Oracle (Progress N)) {p : Progress N} (made : MadeProgress p) :
    Ends MadeProgress MadeProgress (fun f => ∀ sums ∈ f.2, MadeSums sums)
      (calculateOnCPU E ap sc o p) := by
  unfold calculateOnCPU calculateIntegrals
  refine (ends_forLoop (I := MadeProgress) (fun s made _ => ?_) made).mono
    (fun _ => And.left) (fun _ => id) fun _ => id
  have turn : Ends MadeProgress MadeProgress (fun f => ∀ sums ∈ f.2, MadeSums sums)
      ((integrate E ap sc (E.ias s.1.currentCut)).beside.andThen (finishCut E sc) o s) := by
    refine Ends.bind (Q := MadeProgress) ((ends_beside (made_integrate _ made.state)).mono
      ?_ ?_ ?_) fun t made => made.finishCut
    · exact fun t ends => ⟨ends.1, ends.2 ▸ made.taken⟩
    · exact fun c ends => ⟨ends.1, ends.2 ▸ made.taken⟩
    · exact fun f ends => ends.2 ▸ made.taken
  exact (turn.and (ends_cutTurn o s)).mono (fun t ends => ⟨ends.1, ends.2.1⟩) (fun c => And.left)
    fun f => And.left

/-- However often a run is stopped and resumed, the integrals are taken from sums that are
made by additions and merges. -/
theorem made_sessions (os : List (Oracle (Progress N))) :
    Ends (fun p => ∀ sums ∈ p.2, MadeSums sums) (fun p => ∀ sums ∈ p.2, MadeSums sums)
      (fun f => ∀ sums ∈ f.2, MadeSums sums)
      (sessions (calculateOnCPU E ap sc) readProgress os (newProgress ap)) := by
  have start : MadeProgress (newProgress (R := N) ap) := ⟨.new ap, nofun⟩
  refine (ends_sessions (I := MadeProgress) (P := fun _ => True)
    (fun o s made => made_calculateOnCPU o made) ?_ start
    (restarts_of_forall (fun _ => trivial) os _)).mono (fun _ => MadeProgress.taken)
    (fun _ => MadeProgress.taken) fun _ => id
  exact fun c made _ => ⟨made.state.addTmpCheckpointSums, made.taken⟩

/-! The sums of the likelihood are those of one item for each star. -/

structure StarSums (n : ℕ) (sums : LikelihoodSums N) : Prop where
  bg : Summation.Adds n sums.bgSum
  streams : ∀ sum ∈ sums.streamSums, Summation.Adds n sum

variable (L : Libm N) (probabilityFunc : ProbabilityFunc N) (ap : AstronomyParameters N)
  (sc : List (StreamConstants N)) (streams : Streams N) (results : SeparationResults N)
  (sg : StreamGauss N)

omit [NatCast N] [IntCast N] [LE N] [DecidableLE N] in
theorem StarSums.likelihood_probability {n : ℕ} {sums : LikelihoodSums N}
    (made : StarSums n sums) (sg_dx r_points qw_r3_N : ℕ → N) (lbt : LBTrig N)
    (gPrime reff_xr_rp3 : N) :
    StarSums (n + 1) (likelihood_probability L probabilityFunc ap sc streams results sg_dx
      r_points qw_r3_N lbt gPrime reff_xr_rp3 sums).2 where
  bg := made.bg.add _
  streams sum mem := by
    obtain ⟨i, less, rfl⟩ := List.mem_mapIdx.mp mem
    exact (made.streams _ (List.getElem_mem less)).add _

omit [IntCast N] [NatCast N] in
theorem StarSums.likelihoodStar {n : ℕ} {sums : LikelihoodSums N} (made : StarSums n sums)
    (point : Vec3 N) : StarSums (n + 1)
      (likelihoodStar L probabilityFunc ap sc streams results sg sums point) := by
  have next := made.likelihood_probability L probabilityFunc ap sc streams results
  unfold Separation.likelihoodStar
  dsimp only
  split
  · exact ⟨(next ..).bg, (next ..).streams⟩
  · exact ⟨(next ..).bg, (next ..).streams⟩

omit [IntCast N] [NatCast N] in
theorem starSums_foldl (stars : List (Vec3 N)) {n : ℕ} {sums : LikelihoodSums N}
    (made : StarSums n sums) :
    StarSums (n + stars.length)
      (stars.foldl (likelihoodStar L probabilityFunc ap sc streams results sg) sums) := by
  induction stars generalizing n sums with
  | nil => exact made
  | cons point stars ih =>
      rw [List.length_cons, ← Nat.add_assoc, Nat.add_right_comm]
      exact ih (made.likelihoodStar L probabilityFunc ap sc streams results sg point)

omit [IntCast N] in
/-- The likelihoods of the background and of the streams are read out of sums that have an
item for each star. -/
theorem likelihood_sum_reads (stars : List (Vec3 N)) :
    let reads := fun likelihood => ∃ k : Kahan N, Summation.Adds stars.length k ∧
      likelihood = ReadOut.likelihood.value k / ((stars.length - 0 : ℕ) : N) - 3.0
    reads (likelihood_sum L probabilityFunc ap sc streams results sg stars).backgroundLikelihood ∧
      ∀ likelihood ∈ (likelihood_sum L probabilityFunc ap sc streams results sg
        stars).streamLikelihoods, reads likelihood := by
  have start : StarSums 0 (⟨0, 0, List.replicate ap.number_streams 0⟩ : LikelihoodSums N) := by
    refine ⟨Summation.adds_zero, fun sum mem => ?_⟩
    rw [List.eq_of_mem_replicate mem]
    exact Summation.adds_zero
  have made := starSums_foldl L probabilityFunc ap sc streams results sg stars start
  rw [Nat.zero_add] at made
  refine ⟨⟨_, made.bg, rfl⟩, fun likelihood mem => ?_⟩
  obtain ⟨sum, found, rfl⟩ := List.mem_map.mp mem
  exact ⟨sum, made.streams sum found, rfl⟩

end

/-! ## Doubles -/

def doubleRounding : Rounding ℚ where
  addError x y := roundDouble (x + y) - (x + y)
  subError x y := roundDouble (x - y) - (x - y)

/-- One and half of its last place. -/
def oneAndHalf : Summation (Rounded doubleRounding) :=
  .ofItems [⟨1⟩, ⟨1 / 2 ^ 53⟩]

theorem reports_iff_oneAndHalf :
    oneAndHalf.Recovers ∧
      (ReadOut.likelihood.Reports oneAndHalf ↔ ReadOut.likelihood.Cancels oneAndHalf) :=
  have recovers : oneAndHalf.Recovers := by decide +kernel
  ⟨recovers, ReadOut.reports_iff oneAndHalf recovers .likelihood⟩

/-- The likelihood reports less than one and the integral reports one. -/
theorem oneAndHalf_not_reported :
    oneAndHalf.Recovers ∧ ∀ r : ReadOut, ¬ r.Reports oneAndHalf := by
  refine ⟨by decide +kernel, fun r => ?_⟩
  cases r with
  | likelihood => decide +kernel
  | integral => decide +kernel

end MilkyWay.Separation
