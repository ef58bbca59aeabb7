import MilkyWay.Foundation.Extended
import MilkyWay.Separation.IntegralResume
import MilkyWay.Separation.StarSeparation
import MilkyWay.Separation.Worker

/-! Streams that are too narrow to count. Their integrals are set to zero when an area is done
with, and the likelihood divides the probabilities of the stars by the integrals. -/

namespace MilkyWay.Separation

open Foundation

section
variable {R : Type}

def insignificant (sc : List (StreamConstants R)) (i : ℕ) : Bool :=
  sc[i]?.elim false fun c => !c.large_sigma

structure OtherCuts (s t : EvaluationState R) : Prop where
  currentCut : t.currentCut = s.currentCut
  cuts : ∃ cut, t.cuts = s.cuts.set s.currentCut cut

structure SameCuts (s t : EvaluationState R) : Prop where
  currentCut : t.currentCut = s.currentCut
  cuts : t.cuts = s.cuts

theorem SameCuts.getSums {s t : EvaluationState R} (same : SameCuts s t) :
    OtherCuts s (separationIntegralGetSums t) :=
  ⟨same.currentCut, _, by rw [separationIntegralGetSums, same.cuts, same.currentCut]⟩

end

section
variable {R : Type} [Zero R] {sc : List (StreamConstants R)} {i : ℕ}

theorem getD_cleanStreamIntegrals [OfScientific R] (zero : (0.0 : R) = 0)
    (small : insignificant sc i) (integrals : List R) :
    (cleanStreamIntegrals sc integrals).getD i 0 = 0 := by
  unfold cleanStreamIntegrals
  unfold insignificant at small
  cases found : sc[i]? with
  | none =>
      rw [found] at small
      cases small
  | some c =>
      rw [found, Option.elim_some, Bool.not_eq_true'] at small
      rw [List.getD_eq_getElem?_getD, List.getElem?_zipWith, found]
      cases integrals[i]? with
      | none => rfl
      | some x => simp [small, zero]

structure Cleaned (sc : List (StreamConstants R)) (n : ℕ) (es : EvaluationState R) : Prop where
  length : es.cuts.length = n
  zero : ∀ j < es.currentCut, ∀ i, insignificant sc i →
    (es.cuts.getD j ⟨0, []⟩).streamIntegrals.getD i 0 = 0

theorem cleaned_new (ap : AstronomyParameters R) :
    Cleaned sc ap.number_integrals (newEvaluationState ap) :=
  ⟨List.length_replicate, fun _ lt => absurd lt (Nat.not_lt_zero _)⟩

theorem Cleaned.set {n : ℕ} {s t : EvaluationState R} (cleaned : Cleaned sc n s) {cut : Cut R}
    (zero : ∀ i, insignificant sc i → cut.streamIntegrals.getD i 0 = 0)
    (cuts : t.cuts = s.cuts.set s.currentCut cut) (currentCut : t.currentCut = s.currentCut + 1) :
    Cleaned sc n t := by
  refine ⟨by rw [cuts, List.length_set, cleaned.length], fun j lt i small => ?_⟩
  have earlier := cleaned.zero j
  rw [List.getD_eq_getElem?_getD (l := s.cuts)] at earlier
  rw [cuts, List.getD_eq_getElem?_getD (l := s.cuts.set _ _), List.getElem?_set]
  split
  · split
    · exact zero i small
    · rfl
  · exact earlier (by omega) i small

end

section
variable {R : Type} [Zero R] [Add R] [Sub R]

theorem ends_integrateCL_cuts (D : ProgramCL R) (nStream : ℕ) (ia : IntegralArea R)
    (o : Oracle (EvaluationState R)) (s : EvaluationState R) :
    Ends (OtherCuts s) (fun _ => True) (fun _ => True) (integrateCL D nStream ia o s) := by
  refine (samePlace_integrateCL D nStream ia o s).mono ?_ (fun _ _ => trivial) fun _ => id
  rintro t ⟨u, same, rfl⟩
  exact SameCuts.getSums ⟨same.currentCut, same.cuts⟩

end

section
variable {R : Type} [Zero R] [Add R] [Neg R] [Sub R] [Mul R] [Div R] [OfScientific R] [NatCast R]
  [IntCast R] [BEq R] [LT R] [DecidableLT R] [LE R] [DecidableLE R]
  {sc : List (StreamConstants R)} {ap : AstronomyParameters R} {i : ℕ}

theorem ends_integrate_cuts {E : Integration R} (ia : IntegralArea R)
    (o : Oracle (EvaluationState R)) (s : EvaluationState R) :
    Ends (OtherCuts s) (fun _ => True) (fun _ => True) (integrate E ap sc ia o s) := by
  unfold integrate
  split
  · trivial
  · refine ((ends_nuSum o s).mono (fun _ => id) (fun _ _ => trivial) fun _ => id).bind ?_
    exact fun t untouched => SameCuts.getSums ⟨untouched.currentCut, untouched.cuts⟩

omit [Add R] [Neg R] [Sub R] [Mul R] [Div R] [NatCast R] [IntCast R] [BEq R] [LT R]
  [DecidableLT R] [LE R] [DecidableLE R] in
theorem ends_finishCut_cleaned (zero : (0.0 : R) = 0) {E : Integration R} {s : EvaluationState R}
    {n : ℕ} (cleaned : Cleaned sc n s) {t : Progress R} (other : OtherCuts s t.1) :
    Ends (fun u : Progress R => Cleaned sc n u.1 ∧ u.1.currentCut = s.currentCut + 1)
      (fun _ => True) (fun _ => True) (finishCut E sc t) := by
  obtain ⟨currentCut, cut, cuts⟩ := other
  unfold finishCut
  dsimp only
  split
  · trivial
  · have done : ∀ c : Cut R, t.1.cuts.set t.1.currentCut c = s.cuts.set s.currentCut c := by
      intro c
      rw [cuts, currentCut, List.set_set]
    exact ⟨cleaned.set (fun i small => getD_cleanStreamIntegrals zero small _) (done _)
      (congrArg (· + 1) currentCut), congrArg (· + 1) currentCut⟩

theorem ends_calculateIntegrals_cleaned (zero : (0.0 : R) = 0) (P : Program R)
    (probabilityFunc : ProbabilityFunc R) (ap : AstronomyParameters R)
    (sc : List (StreamConstants R)) (o : Oracle (Progress R)) :
    Ends (fun t => Cleaned sc ap.number_integrals t.1 ∧
        ap.number_integrals ≤ t.1.currentCut) (fun _ => True) (fun _ => True)
      (P.calculateIntegrals probabilityFunc ap sc o (newProgress ap)) := by
  unfold Program.calculateIntegrals calculateIntegrals
  refine ends_forLoop (I := fun t : Progress R => Cleaned sc ap.number_integrals t.1) ?_
    (cleaned_new ap)
  intro s cleaned _
  refine ((ends_beside (Q := OtherCuts s.1) (S := fun _ => True) (F := fun _ => True) ?_).mono
    (fun _ => id) (fun _ _ => trivial) fun _ _ => trivial).bind ?_
  · cases P.device with
    | none => exact ends_integrate_cuts _ _ s.1
    | some D => exact ends_integrateCL_cuts _ _ _ _ s.1
  · rintro t ⟨other, -⟩
    exact ends_finishCut_cleaned zero cleaned other

end

/-! ## The final integrals -/

section
open Extended Extended.Arithmetic

variable {F : Type} [Field F] [LinearOrder F] [IsStrictOrderedRing F]
  {sc : List (StreamConstants (Extended F))} {ap : AstronomyParameters (Extended F)} {i : ℕ}

omit [IsStrictOrderedRing F] in
theorem getFinalIntegrals_zero {results : SeparationResults (Extended F)}
    {es : EvaluationState (Extended F)}
    (zero : ∀ c ∈ es.cuts, c.streamIntegrals.getD i 0 = 0) :
    (getFinalIntegrals results es).streamIntegrals.getD i 0 = 0 := by
  have none : (0 : Extended F) - 0 = 0 := fin_sub.trans (congrArg fin (sub_zero 0))
  refine List.foldlRecOn (es.cuts.drop 1) _
    (motive := fun integrals : Extended F × List (Extended F) => integrals.2.getD i 0 = 0) ?_ ?_
  · cases cuts : es.cuts with
    | nil => rfl
    | cons c _ => exact zero c (cuts ▸ List.mem_cons_self)
  · intro integrals kept c mem
    have cut := zero c (List.mem_of_mem_drop mem)
    rw [List.getD_eq_getElem?_getD] at kept ⊢
    rw [List.getElem?_mapIdx]
    cases found : integrals.2[i]? with
    | none => rfl
    | some x =>
        rw [found, Option.getD_some] at kept
        rw [Option.map_some, Option.getD_some, kept, cut, none]

theorem finalIntegral_zero {P : Program (Extended F)}
    {probabilityFunc : ProbabilityFunc (Extended F)}
    {o : Oracle (Progress (Extended F))} {t : Progress (Extended F)}
    (run : P.calculateIntegrals probabilityFunc ap sc o (newProgress ap) = .ok t)
    (small : insignificant sc i) (results : SeparationResults (Extended F)) :
    (getFinalIntegrals results t.1).streamIntegrals.getD i 0 = 0 := by
  have zero : (0.0 : Extended F) = 0 := congrArg fin (by norm_num)
  have ends := ends_calculateIntegrals_cleaned zero P probabilityFunc ap sc o
  rw [run] at ends
  obtain ⟨⟨length, cleaned⟩, all⟩ := ends
  refine getFinalIntegrals_zero fun c mem => ?_
  obtain ⟨j, inside, rfl⟩ := List.getElem_of_mem mem
  have cut := cleaned j (by omega) i small
  rwa [List.getD_eq_getElem _ _ inside] at cut

end

/-! ## The likelihood -/

section
variable {R : Type}

def withoutInsignificant [Zero R] (sc : List (StreamConstants R))
    (probabilityFunc : ProbabilityFunc R) : ProbabilityFunc R :=
  fun ap constants sg_dx r_points qw_r3_N lbt gPrime reff_xr_rp3 =>
    let probs := probabilityFunc ap constants sg_dx r_points qw_r3_N lbt gPrime reff_xr_rp3
    (probs.1, probs.2.mapIdx fun i prob => if insignificant sc i then 0 else prob)

def SeparationResults.anyIntegral [OfScientific R] (sc : List (StreamConstants R))
    (results : SeparationResults R) : SeparationResults R :=
  { results with streamIntegrals := results.streamIntegrals.mapIdx fun i integral =>
      if insignificant sc i then 1.0 else integral }

variable {sc : List (StreamConstants R)}

theorem withoutInsignificant_eq [Zero R] (none : ∀ i, insignificant sc i = false)
    (probabilityFunc : ProbabilityFunc R) :
    withoutInsignificant sc probabilityFunc = probabilityFunc := by
  funext ap constants sg_dx r_points qw_r3_N lbt gPrime reff_xr_rp3
  simp only [withoutInsignificant, none]
  exact Prod.ext rfl (List.ext_getElem (by simp) fun i _ _ => by simp)

theorem anyIntegral_eq [OfScientific R] (none : ∀ i, insignificant sc i = false)
    (results : SeparationResults R) :
    results.anyIntegral sc = results := by
  have integrals : (results.streamIntegrals.mapIdx fun i integral =>
      if insignificant sc i then 1.0 else integral) = results.streamIntegrals :=
    List.ext_getElem (by simp) fun i _ _ => by simp [none]
  rw [SeparationResults.anyIntegral, integrals]

end

section
variable {R : Type} [Zero R] [Add R] [Neg R] [Sub R] [Mul R] [Div R] [OfScientific R] [NatCast R]
  [IntCast R] [BEq R] [LT R] [DecidableLT R] [LE R] [DecidableLE R]

def pointTmps (L : Libm R) (probabilityFunc : ProbabilityFunc R) (ap : AstronomyParameters R)
    (sc : List (StreamConstants R)) (sg : StreamGauss R) (point : Vec3 R) : R × List R :=
  let rc := calcRConstsLik L point.z ap
  let points := setSplitRPoints L ap sg rc
  starTmps probabilityFunc ap sc sg.dx (fun i => (points i).r_point) (fun i => (points i).qw_r3_N)
    (lb_trig L ⟨point.x, point.y⟩) rc.gPrime (calcReffXrRp3 L point.z rc.gPrime)

omit [NatCast R] [IntCast R] in
theorem likelihoodStar_prob (L : Libm R) (probabilityFunc : ProbabilityFunc R)
    (ap : AstronomyParameters R) (sc : List (StreamConstants R)) (streams : Streams R)
    (results : SeparationResults R) (sg : StreamGauss R) (sums : LikelihoodSums R)
    (point : Vec3 R) :
    let tmps := pointTmps L probabilityFunc ap sc sg point
    let star_prob := starProb ap.number_streams streams results tmps.1 tmps.2
    (likelihoodStar L probabilityFunc ap sc streams results sg sums point).prob =
      if mw_fabs star_prob * SEPARATION_EPS ≤ mw_fabs star_prob then
        sums.prob.add (L.log10 star_prob)
      else { sums.prob with sum := sums.prob.sum - 238.0 } := by
  intro tmps star_prob
  have star : star_prob = (likelihood_probability L probabilityFunc ap sc streams results sg.dx
    (fun i => (setSplitRPoints L ap sg (calcRConstsLik L point.z ap) i).r_point)
    (fun i => (setSplitRPoints L ap sg (calcRConstsLik L point.z ap) i).qw_r3_N)
    (lb_trig L ⟨point.x, point.y⟩) (calcRConstsLik L point.z ap).gPrime
    (calcReffXrRp3 L point.z (calcRConstsLik L point.z ap).gPrime) sums).1 := rfl
  rw [star]
  exact apply_ite LikelihoodSums.prob _ _ _

def SeparationResults.integralsGiven (number_streams : ℕ) (results : SeparationResults R) :
    SeparationResults (Traced R) :=
  ⟨.ofConstant results.likelihood, .ofConstant results.backgroundIntegral,
    .ofConstant results.backgroundLikelihood,
    (List.range number_streams).map fun i => .ofGiven (results.streamIntegrals.getD i 0),
    results.streamLikelihoods.map .ofConstant⟩

def Streams.constant (streams : Streams R) : Streams (Traced R) :=
  ⟨streams.parameters.map fun stream =>
    ⟨.ofConstant stream.epsilon, .ofConstant stream.mu, .ofConstant stream.r,
      .ofConstant stream.theta, .ofConstant stream.phi, .ofConstant stream.sigma,
      .ofConstant stream.epsilonExp⟩, .ofConstant streams.sumExpWeights⟩

variable {L : Libm R} {probabilityFunc : ProbabilityFunc R} {ap : AstronomyParameters R}
  {sc : List (StreamConstants R)} {streams : Streams R} {results : SeparationResults R}

omit [Neg R] [Sub R] [OfScientific R] [NatCast R] [IntCast R] [BEq R] [LT R] [DecidableLT R]
  [LE R] [DecidableLE R] in
theorem starProb_soundIntegrals [DecidableEq R] (bgTmp : R) (streamTmps : List R) :
    (starProb ap.number_streams streams.constant (results.integralsGiven ap.number_streams)
        (.ofConstant bgTmp) (streamTmps.map .ofConstant)).sound = true ↔
      ∀ i < ap.number_streams, results.streamIntegrals.getD i 0 ≠ 0 := by
  have weight : ∀ i : ℕ, (streams.constant.parameters[i]?.elim 0
      fun stream : StreamParameters (Traced R) => stream.epsilonExp).sound = true := by
    intro i
    rw [Streams.constant, List.getElem?_map]
    cases streams.parameters[i]? <;> rfl
  have tmp : ∀ i, ((streamTmps.map Traced.ofConstant).getD i 0).sound = true := by
    intro i
    rw [List.getD_eq_getElem?_getD, List.getElem?_map]
    cases streamTmps[i]? <;> rfl
  have integral : ∀ i < ap.number_streams,
      (results.integralsGiven ap.number_streams).streamIntegrals.getD i 0 =
        .ofGiven (results.streamIntegrals.getD i 0) := by
    intro i inside
    rw [List.getD_eq_getElem?_getD]
    simp [SeparationResults.integralsGiven, inside]
  have term : ∀ i < ap.number_streams, ((streamTmps.map Traced.ofConstant).getD i 0 /
      (results.integralsGiven ap.number_streams).streamIntegrals.getD i 0 *
        (streams.constant.parameters[i]?.elim 0
          fun stream : StreamParameters (Traced R) => stream.epsilonExp)).sound = true ↔
      results.streamIntegrals.getD i 0 ≠ 0 := by
    intro i inside
    rw [integral i inside, Traced.sound_mul, weight i, Bool.and_true,
      Traced.sound_div]
    exact ⟨fun sound => sound.2.2 rfl rfl, fun nonzero => ⟨tmp i, rfl, fun _ _ => nonzero⟩⟩
  rw [starProb, Traced.sound_div, Traced.sound_foldl_add_iff]
  constructor
  · rintro ⟨⟨-, sound⟩, -⟩ i inside
    exact (term i inside).mp (sound i (List.mem_range.mpr inside))
  · intro nonzero
    refine ⟨⟨?_, fun i mem => ?_⟩, rfl, fun given => absurd given Bool.false_ne_true⟩
    · exact (Traced.sound_div _ _).mpr ⟨rfl, rfl, fun given => absurd given Bool.false_ne_true⟩
    · exact (term i (List.mem_range.mp mem)).mpr (nonzero i (List.mem_range.mp mem))

/-- The likelihood is calculated without a division by an integral of a stream that is zero, as
if the streams that do not count had no probability, and their own likelihoods are flagged. -/
structure DropsOut [DecidableEq R] (L : Libm R) (probabilityFunc : ProbabilityFunc R)
    (ap : AstronomyParameters R) (sc : List (StreamConstants R)) (streams : Streams R)
    (results : SeparationResults R) (sg : StreamGauss R) (stars : List (Vec3 R)) : Prop where
  sound : ∀ point ∈ stars, (starProb ap.number_streams streams.constant
    (results.integralsGiven ap.number_streams)
    (.ofConstant (pointTmps L probabilityFunc ap sc sg point).1)
    ((pointTmps L probabilityFunc ap sc sg point).2.map .ofConstant)).sound = true
  likelihood : (likelihood_sum L probabilityFunc ap sc streams results sg stars).likelihood =
    (likelihood_sum L (withoutInsignificant sc probabilityFunc) ap sc streams
      (results.anyIntegral sc) sg stars).likelihood
  flagged : ∀ i, insignificant sc i →
    (likelihood_sum L probabilityFunc ap sc streams results sg stars).streamLikelihoods[i]? =
      some (-238.0 - 3.0)

end

/-! ## The streams that a set of parameters has -/

section
open Extended Extended.Arithmetic

variable {F : Type} [Field F] [LinearOrder F] [IsStrictOrderedRing F]
  {sc : List (StreamConstants (Extended F))}

omit [IsStrictOrderedRing F] in
theorem getStreamConstants_large {L : Libm (Extended F)} {ap : AstronomyParameters (Extended F)}
    {streams : Streams (Extended F)} (constants : getStreamConstants L ap streams = some sc) :
    sc.map (·.large_sigma) = streams.parameters.map fun stream =>
      SIGMA_LIMIT < stream.sigma || stream.sigma < -SIGMA_LIMIT := by
  refine map_of_mapM constants fun stream _ c made => ?_
  split at made
  · cases made
  · exact Option.some.inj made ▸ rfl

omit [IsStrictOrderedRing F] in
theorem setUp_constants {L : Libm (Extended F)} {numArgs : Option (List (Extended F))}
    {s s' : Shared (Extended F)} (set : setUp L numArgs s = some (s', sc)) :
    getStreamConstants L s'.ap s'.streams = some sc := by
  cases numArgs
  all_goals
    simp only [setUp, Option.bind_eq_bind, Option.bind_eq_some_iff, Option.pure_def,
      Option.some.injEq, Prod.mk.injEq] at set
    obtain ⟨_, -, _, -, _, constants, rfl, rfl⟩ := set
    exact constants

omit [IsStrictOrderedRing F] in
theorem none_insignificant {L : Libm (Extended F)} {ap : AstronomyParameters (Extended F)}
    {streams : Streams (Extended F)} (constants : getStreamConstants L ap streams = some sc) :
    (∀ i, insignificant sc i = false) ↔
      ∀ stream ∈ streams.parameters, SIGMA_LIMIT < stream.sigma ∨ stream.sigma < -SIGMA_LIMIT := by
  have large := getStreamConstants_large constants
  have each : (∀ i, insignificant sc i = false) ↔
      ∀ large ∈ sc.map (·.large_sigma), large = true := by
    constructor
    · intro none large mem
      obtain ⟨c, member, rfl⟩ := List.mem_map.mp mem
      obtain ⟨i, inside, rfl⟩ := List.getElem_of_mem member
      have counts := none i
      rw [insignificant, List.getElem?_eq_getElem inside, Option.elim_some,
        Bool.not_eq_false'] at counts
      exact counts
    · intro all i
      rw [insignificant]
      cases found : sc[i]? with
      | none => rfl
      | some c =>
          rw [Option.elim_some, Bool.not_eq_false']
          exact all _ (List.mem_map_of_mem (List.mem_of_getElem? found))
  rw [each, large]
  simp

omit [IsStrictOrderedRing F] in
theorem calculateLikelihood_none : calculateLikelihood (0 : Kahan (Extended F)) 0 0 = nan := by
  have sum : (0 : Kahan (Extended F)).sum + (0 : Kahan (Extended F)).correction = fin 0 :=
    congrArg fin (add_zero 0)
  have none : (((0 - 0 : ℕ) : Extended F)) = fin 0 := congrArg fin Nat.cast_zero
  rw [calculateLikelihood, sum, none, zero_div_zero]
  exact nan_add

variable {P : Program (Extended F)} {s s' : Shared (Extended F)}
  {probabilityFunc : ProbabilityFunc (Extended F)} {o : Oracle (Progress (Extended F))}
  {t : Progress (Extended F)}

theorem significant_of_dropsOut {stars : List (Vec3 (Extended F))}
    (set : setUp P.L P.numArgs s = some (s', sc))
    (places : s'.streams.parameters.length = s'.ap.number_streams)
    (run : P.calculateIntegrals probabilityFunc s'.ap sc o (newProgress s'.ap) = .ok t)
    (drops : DropsOut P.L probabilityFunc s'.ap sc s'.streams
      (getFinalIntegrals (newSeparationResults P.NAN s'.ap.number_streams) t.1)
      (P.getStreamGauss s'.ap.convolve) stars) :
    (∀ i, insignificant sc i = false) ∧
      (stars = [] ∨ ∀ i < s'.ap.number_streams,
        (getFinalIntegrals (newSeparationResults P.NAN s'.ap.number_streams)
          t.1).streamIntegrals.getD i 0 ≠ 0) := by
  obtain ⟨sound, -, flagged⟩ := drops
  have length : sc.length = s'.ap.number_streams :=
    (length_of_mapM (setUp_constants set)).trans places
  have integrals : stars = [] ∨ ∀ i < s'.ap.number_streams,
      (getFinalIntegrals (newSeparationResults P.NAN s'.ap.number_streams)
        t.1).streamIntegrals.getD i 0 ≠ 0 := by
    cases stars with
    | nil => exact .inl rfl
    | cons point _ =>
        exact .inr ((starProb_soundIntegrals _ _).mp (sound point List.mem_cons_self))
  refine ⟨fun i => ?_, integrals⟩
  by_contra counts
  have small : insignificant sc i = true := Bool.not_eq_false _ ▸ counts
  have inside : i < s'.ap.number_streams := by
    by_contra beyond
    rw [insignificant, List.getElem?_eq_none (by omega)] at small
    cases small
  obtain rfl | nonzero := integrals
  · have own := flagged i small
    have empty : (likelihood_sum P.L probabilityFunc s'.ap sc s'.streams
        (getFinalIntegrals (newSeparationResults P.NAN s'.ap.number_streams) t.1)
        (P.getStreamGauss s'.ap.convolve) []).streamLikelihoods =
        List.replicate s'.ap.number_streams nan := by
      rw [← calculateLikelihood_none (F := F)]
      exact List.map_replicate
    rw [empty, List.getElem?_replicate, if_pos inside] at own
    cases own
  · exact nonzero i inside (finalIntegral_zero run small _)

/-- The streams drop out cleanly only where there is none to drop out: the likelihood divides by
the integrals that have been set to zero. -/
theorem dropsOut_iff (set : setUp P.L P.numArgs s = some (s', sc))
    (places : s'.streams.parameters.length = s'.ap.number_streams)
    (run : P.calculateIntegrals probabilityFunc s'.ap sc o (newProgress s'.ap) = .ok t)
    (stars : List (Vec3 (Extended F))) :
    DropsOut P.L probabilityFunc s'.ap sc s'.streams
        (getFinalIntegrals (newSeparationResults P.NAN s'.ap.number_streams) t.1)
        (P.getStreamGauss s'.ap.convolve) stars ↔
      (∀ stream ∈ s'.streams.parameters,
        SIGMA_LIMIT < stream.sigma ∨ stream.sigma < -SIGMA_LIMIT) ∧
      (stars = [] ∨ ∀ i < s'.ap.number_streams,
        (getFinalIntegrals (newSeparationResults P.NAN s'.ap.number_streams)
          t.1).streamIntegrals.getD i 0 ≠ 0) := by
  rw [← none_insignificant (setUp_constants set)]
  constructor
  · exact significant_of_dropsOut set places run
  · rintro ⟨none, integrals⟩
    refine ⟨fun point mem => (starProb_soundIntegrals _ _).mpr ?_, ?_, fun i small => ?_⟩
    · exact integrals.resolve_left (List.ne_nil_of_mem mem)
    · rw [withoutInsignificant_eq none, anyIntegral_eq none]
    · cases (none i).symm.trans small

end

/-! ## A narrow stream -/

section
open Extended Extended.Arithmetic

/-- Functions like those of the library in that an exponential far below zero is zero. -/
def narrowLibm : Libm (Extended ℚ) :=
  ⟨id, fun x => if x < fin (-700) then 0 else fin 1, id, id, id,
    fun x => if 0 < x then x else 0, id, fun y _ => y, fun x _ => x, fun x => x == nan⟩

def narrowProgram : Program (Extended ℚ) where
  L := narrowLibm
  isfinite := fun x => !(x == infinity) && !(x == -infinity) && x == x
  NAN := nan
  ias := fun _ => ⟨fin 20, fin 1, 0, fin 1, 0, fin 1, 1, 1, 1⟩
  getStreamGauss := fun _ => ⟨fun _ => 0, fun _ => fin 1⟩
  stars := [⟨0, 0, fin 20⟩]
  dispatch := ⟨false, true, false, false, fun _ => false, fun _ => false, fun _ => false⟩
  vectorFunc := fun _ _ _ _ _ _ _ => (0, [])
  device := none
  ignoreCheckpoint := false
  cleanupCheckpoint := true
  numArgs := none
  nForwardedArgs := 0

def narrowStream (sigma : ℚ) : Shared (Extended ℚ) where
  ap :=
    { params_per_workunit := 8
      currentWU := 0
      totalWUs := 1
      m_sun_r0 := fin (-8.5)
      q_inv := fin 1
      q_inv_sqr := fin 1
      r0 := fin 12
      convolve := 2
      number_streams := 1
      background_profile := .fastHernquist
      aux_bg_profile := false
      innerPower := fin 1
      outerPower := fin 1
      alpha_delta3 := fin 3
      bg_a := 0
      bg_b := 0
      bg_c := 0
      wedge := 10
      sun_r0 := fin 8.5
      q := fin 1
      modfit := false
      number_integrals := 1
      background_weight := fin 0.5
      thick_disk_weight := fin 0.5 }
  bgp := ⟨fin 1, fin 1, fin 1, fin 0.5, 0, 0, 0⟩
  streams := ⟨[⟨0, 0, fin 20, 0, 0, fin sigma, fin 1⟩], fin 1⟩

def narrowSetUp (sigma : ℚ) : Shared (Extended ℚ) × List (StreamConstants (Extended ℚ)) :=
  (setUp narrowProgram.L none (narrowStream sigma)).getD (narrowStream sigma, [])

/-- The integrals of the one area without a checkpoint. -/
def narrowEnd (sigma : ℚ) : Except (Halt (Progress (Extended ℚ)) (Failure (Extended ℚ)))
    (Progress (Extended ℚ)) :=
  narrowProgram.calculateIntegrals
    (selectStandardFunction narrowLibm (narrowSetUp sigma).1.ap) (narrowSetUp sigma).1.ap
    (narrowSetUp sigma).2 quiet (newProgress (narrowSetUp sigma).1.ap)

def narrowResults (sigma : ℚ) : SeparationResults (Extended ℚ) :=
  getFinalIntegrals (newSeparationResults nan (narrowSetUp sigma).1.ap.number_streams)
    (match narrowEnd sigma with
    | .ok t => t.1
    | .error _ => newEvaluationState (narrowSetUp sigma).1.ap)

theorem narrowResults_eq {sigma : ℚ} {t : Progress (Extended ℚ)} (ended : narrowEnd sigma = .ok t) :
    narrowResults sigma =
      getFinalIntegrals (newSeparationResults nan (narrowSetUp sigma).1.ap.number_streams) t.1 := by
  rw [narrowResults, ended]

theorem narrowEnd_ok (sigma : ℚ) (ends : (narrowEnd sigma).isOk = true) :
    ∃ t, narrowEnd sigma = .ok t := by
  cases ended : narrowEnd sigma with
  | ok t => exact ⟨t, rfl⟩
  | error h =>
      rw [ended] at ends
      cases ends

theorem narrowSetUp_eq {sigma : ℚ}
    (valid : (setUp narrowProgram.L none (narrowStream sigma)).isSome = true) :
    setUp narrowProgram.L none (narrowStream sigma) = some (narrowSetUp sigma) := by
  obtain ⟨p, made⟩ := Option.isSome_iff_exists.mp valid
  rw [narrowSetUp, made, Option.getD_some]

/-- A stream that is wide enough. -/
theorem dropsOut_iff_wide :
    ∃ t, narrowEnd 1 = .ok t ∧
      (DropsOut narrowLibm (selectStandardFunction narrowLibm (narrowSetUp 1).1.ap)
          (narrowSetUp 1).1.ap (narrowSetUp 1).2 (narrowSetUp 1).1.streams
          (getFinalIntegrals (newSeparationResults nan (narrowSetUp 1).1.ap.number_streams) t.1)
          (narrowProgram.getStreamGauss (narrowSetUp 1).1.ap.convolve) [⟨0, 0, fin 20⟩] ↔
        (∀ stream ∈ (narrowSetUp 1).1.streams.parameters,
          SIGMA_LIMIT < stream.sigma ∨ stream.sigma < -SIGMA_LIMIT) ∧
        ([⟨0, 0, fin 20⟩] = ([] : List (Vec3 (Extended ℚ))) ∨
          ∀ i < (narrowSetUp 1).1.ap.number_streams,
            (getFinalIntegrals (newSeparationResults nan (narrowSetUp 1).1.ap.number_streams)
              t.1).streamIntegrals.getD i 0 ≠ 0)) := by
  obtain ⟨t, ended⟩ := narrowEnd_ok 1 (by decide +kernel)
  have set : setUp narrowProgram.L narrowProgram.numArgs (narrowStream 1) =
      some ((narrowSetUp 1).1, (narrowSetUp 1).2) := narrowSetUp_eq (by decide +kernel)
  exact ⟨t, ended, dropsOut_iff set (by decide +kernel) ended [⟨0, 0, fin 20⟩]⟩

/-- A stream with half of the least width: its own likelihood is not a number. -/
theorem not_dropsOut_narrow :
    ¬DropsOut narrowLibm (selectStandardFunction narrowLibm (narrowSetUp 0.00005).1.ap)
        (narrowSetUp 0.00005).1.ap (narrowSetUp 0.00005).2 (narrowSetUp 0.00005).1.streams
        (narrowResults 0.00005)
        (narrowProgram.getStreamGauss (narrowSetUp 0.00005).1.ap.convolve) [⟨0, 0, fin 20⟩] ∧
      (likelihood_sum narrowLibm (selectStandardFunction narrowLibm (narrowSetUp 0.00005).1.ap)
        (narrowSetUp 0.00005).1.ap (narrowSetUp 0.00005).2 (narrowSetUp 0.00005).1.streams
        (narrowResults 0.00005) (narrowProgram.getStreamGauss 2)
        [⟨0, 0, fin 20⟩]).streamLikelihoods = [nan] := by
  refine ⟨fun drops => ?_, by decide +kernel⟩
  obtain ⟨t, ended⟩ := narrowEnd_ok 0.00005 (by decide +kernel)
  have set : setUp narrowProgram.L narrowProgram.numArgs (narrowStream 0.00005) =
      some ((narrowSetUp 0.00005).1, (narrowSetUp 0.00005).2) := narrowSetUp_eq (by decide +kernel)
  rw [narrowResults_eq ended] at drops
  have counts := (significant_of_dropsOut set (by decide +kernel) ended drops).1 0
  have small : insignificant (narrowSetUp 0.00005).2 0 = true := by decide +kernel
  cases counts.symm.trans small

end

end MilkyWay.Separation
