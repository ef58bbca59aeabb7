import MilkyWay.NBody.PotentialAgreement
import MilkyWay.NBody.ReverseOrbit

/-! The array of accelerations against the times of the run. The run starts where the
orbit back ends, after all the turns of its loop, and reads entry `j` at the time of
`10 * j` turns; the samples were taken from today on, where the times of the turns said so. -/

namespace MilkyWay.NBody

open Foundation

section
variable {R : Type} [Field R] [LinearOrder R] [IsStrictOrderedRing R]
variable {T : Type} [Preorder T] [DecidableLE T] [DecidableLT T] [DecidableEq T] [Zero T] [Add T]
  [Sub T] [Div T] [NatCast T]
variable (L : Libm R) (K : Components R) (c : OrbitScene R) (clock : Clock T R)

def OrbitScene.milkyWayAccel (dt : T) (n : ℤ) : Option (Vec3 R) :=
  (if n ≤ 0 then c.backwardTurns L K clock dt (-n).toNat
    else c.forwardTurns L K clock dt n.toNat).map Orbit.mw_acc

/-- The step of the orbit. -/
def tenth (timestep : T) : T := timestep / ((10 : ℕ) : T)

/-- What the run relies on: the orbit ends and no index misses its array, the satellite is
handed over as it is at the start, each step finds its two entries, and the entries are the
accelerations of the Milky Way at their times of the run. -/
structure AlignedResult (ftime tstop timestep : T) (result : Except Fault (ReverseOrbit R)) :
    Prop where
  ends : result ≠ .error .unending
  inRange : result ≠ .error .outOfRange
  start : ∀ r n, result = .ok r → Turns tstop (tenth timestep) n → ∃ o,
    c.backwardTurns L K clock (tenth timestep) n = some o ∧ r.LMCfinalPos = o.LMCx ∧
      r.LMCfinalVel = -o.LMCv
  reads : ∀ r, result = .ok r → ∀ (ctx : NBodyCtx R) (st : NBodyState R),
    ctx.nStep = (clock.ceil (ftime / timestep)).toNat → st.shiftByLMC = some r.shiftByLMC →
      st.step < ctx.nStep → (shiftAt ctx st).isSome = true
  entries : ∀ r n, result = .ok r → Turns tstop (tenth timestep) n → ∀ j < r.shiftByLMC.length,
    r.shiftByLMC[j]? = c.milkyWayAccel L K clock (tenth timestep) (10 * j - n)

/-- The orbit back, given time to end, is in time with the run. -/
def ShiftAligned (ftime tstop timestep : T) : Prop :=
  ∃ enough, ∀ fuel, enough ≤ fuel → AlignedResult L K c clock ftime tstop timestep
    (nbReverseOrbit_LMC L K c clock fuel ftime tstop (tenth timestep))

end

/-! ## Loops of whole tens -/

section
variable {R T : Type} [Field R] [LinearOrder R] [Preorder T] [Zero T] [Add T] [Div T] [NatCast T]
  {clock : Clock T R} {tstop dt : T} {n : ℕ}

theorem tenths_iff_back (back : 0 < tstop) (turns : Turns tstop dt n) :
    clock.Tenths tstop dt n ↔
      (∀ m < n, clock.sampled dt m = true →
        m = 10 * (Nat.count (clock.sampled dt · = true) m + 0)) ∧
      n = 10 * (Nat.count (clock.sampled dt · = true) n + 0) := by
  have some_turn : 0 < n := by
    refine Nat.pos_of_ne_zero fun none => turns.past ?_
    rw [none]
    exact back.le
  rw [tens_iff]
  constructor
  · intro tenths
    refine ⟨fun m lt => ?_, tenths.whole, Nat.zero_le _⟩
    rw [tenths.sampled m lt]
    omega
  · rintro ⟨tens, whole, -⟩
    refine ⟨turns, whole, some_turn, fun m lt => ?_⟩
    rw [tens m lt]
    omega

variable [DecidableEq T]

theorem sampledAhead_iff (positive : 0 < dt) (m : ℕ) :
    sampledAhead clock dt m = true ↔ clock.sampled dt m = true ∧ 0 < m := by
  rw [sampledAhead, Bool.and_eq_true, bne_iff_ne]
  refine and_congr_right fun _ => ?_
  cases m with
  | zero => exact iff_of_false (fun later => later rfl) (lt_irrefl 0)
  | succ m => exact iff_of_true (clock.ticks_pos positive m).ne' m.succ_pos

theorem tenths_iff_ahead {upper : T} (positive : 0 < dt) (turns : Turns upper dt n) :
    clock.Tenths upper dt n ↔
      (∀ m < n, sampledAhead clock dt m = true →
        m = 10 * (Nat.count (sampledAhead clock dt · = true) m + 1)) ∧
      n = 10 * (Nat.count (sampledAhead clock dt · = true) n + 1) := by
  rw [tens_iff]
  constructor
  · intro tenths
    have whole := tenths.whole
    have some_turn := tenths.positive
    refine ⟨fun m lt => ?_, whole, by omega⟩
    rw [sampledAhead_iff positive, tenths.sampled m lt]
    omega
  · rintro ⟨tens, whole, least⟩
    refine ⟨turns, whole, by omega, fun m lt => ?_⟩
    have ten := tens m lt
    rw [sampledAhead_iff positive] at ten
    cases m with
    | zero => exact iff_of_true (clock.sampled_zero positive) rfl
    | succ m =>
        simp only [Nat.succ_pos, and_true] at ten
        rw [ten]
        omega

end

/-! ## Arrays that are in time -/

section
variable {R : Type} [Field R] [LinearOrder R] [IsStrictOrderedRing R]
variable {T : Type} [Preorder T] [DecidableLE T] [DecidableLT T] [DecidableEq T] [Zero T] [Add T]
  [Sub T] [Div T] [NatCast T]
variable {L : Libm R} {K : Components R} {c : OrbitScene R} {clock : Clock T R}
  {ftime tstop timestep dt : T} {o : Orbit R} {shift : List (Vec3 R)} {n n' : ℕ}

omit [IsStrictOrderedRing R] [DecidableLE T] [DecidableLT T] [DecidableEq T] [Sub T] in
theorem milkyWayAccel_past (dt : T) {z : ℤ} {m : ℕ} (past : z = -m) :
    c.milkyWayAccel L K clock dt z = (c.backwardTurns L K clock dt m).map Orbit.mw_acc := by
  rw [OrbitScene.milkyWayAccel, if_pos (by omega), show (-z).toNat = m by omega]

omit [IsStrictOrderedRing R] [DecidableLE T] [DecidableLT T] [DecidableEq T] [Sub T] in
theorem milkyWayAccel_future (dt : T) {z : ℤ} {m : ℕ} (future : z = m) (later : 0 < m) :
    c.milkyWayAccel L K clock dt z = (c.forwardTurns L K clock dt m).map Orbit.mw_acc := by
  rw [OrbitScene.milkyWayAccel, if_neg (by omega), show z.toNat = m by omega]

omit [IsStrictOrderedRing R] [DecidableLE T] in
theorem Shifts.aligned (h : Shifts L K c clock ftime tstop dt n n' o shift) (positive : 0 < dt)
    (back : 0 < tstop) (later : tstop < ftime) (tenths : clock.Tenths tstop dt n)
    (tenths' : clock.Tenths (ftime - tstop) dt n') :
    shift.length = n / 10 + n' / 10 + 1 ∧ ∀ j < shift.length,
      shift[j]? = c.milkyWayAccel L K clock dt (10 * j - n) := by
  obtain ⟨numbered, last⟩ := (tenths_iff_back back h.turns).mp tenths
  obtain ⟨numbered', last'⟩ := (tenths_iff_ahead positive (h.turns' later)).mp tenths'
  have length := h.length
  rw [if_pos later] at length
  refine ⟨by omega, fun j lt => ?_⟩
  rcases Nat.lt_or_ge (n / 10) j with past | before
  · have kept : sampledAhead clock dt (10 * (j - n / 10)) = true ∨ 10 * (j - n / 10) = n' := by
      rcases Nat.lt_or_ge (10 * (j - n / 10)) n' with less | most
      · rw [sampledAhead_iff positive, tenths'.sampled _ less]
        exact .inl ⟨by omega, by omega⟩
      · exact .inr (by omega)
    have number : 10 * (j - n / 10) =
        10 * (Nat.count (sampledAhead clock dt · = true) (10 * (j - n / 10)) + 1) := by
      rcases kept with due | same
      · rcases Nat.lt_or_ge (10 * (j - n / 10)) n' with less | most
        · exact numbered' _ less due
        · rw [show 10 * (j - n / 10) = n' by omega]
          exact last'
      · rw [same]
        exact last'
    have entry := h.after later (10 * (j - n / 10)) (by omega) kept
    rw [show Nat.count (clock.sampled dt · = true) n + 1 +
      Nat.count (sampledAhead clock dt · = true) (10 * (j - n / 10)) = j by omega] at entry
    rw [entry, milkyWayAccel_future dt (m := 10 * (j - n / 10)) (by omega) (by omega)]
  · have kept : clock.sampled dt (n - 10 * j) = true ∨ n - 10 * j = n := by
      rcases Nat.eq_zero_or_pos j with rfl | more
      · exact .inr rfl
      · left
        rw [tenths.sampled _ (by omega)]
        omega
    have number : n - 10 * j =
        10 * (Nat.count (clock.sampled dt · = true) (n - 10 * j) + 0) := by
      rcases kept with due | same
      · rcases Nat.lt_or_ge (n - 10 * j) n with less | most
        · exact numbered _ less due
        · rw [show n - 10 * j = n by omega]
          exact last
      · rw [same]
        exact last
    have entry := h.before (n - 10 * j) (Nat.sub_le _ _) kept
    rw [show Nat.count (clock.sampled dt · = true) n -
      Nat.count (clock.sampled dt · = true) (n - 10 * j) = j by omega] at entry
    rw [entry, milkyWayAccel_past dt (m := n - 10 * j) (by omega)]

omit [LinearOrder R] [IsStrictOrderedRing R] in
theorem shiftAt_isSome {ctx : NBodyCtx R} {st : NBodyState R}
    (fetched : st.shiftByLMC = some shift) (room : st.step + 1 < shift.length) :
    (shiftAt ctx st).isSome = true := by
  have before : st.step < shift.length := by omega
  unfold shiftAt
  split
  · simp only [fetched, Option.bind_eq_bind, Option.bind_some, List.getElem?_eq_getElem before,
      List.getElem?_eq_getElem room]
    rfl
  · rfl

omit [IsStrictOrderedRing R] in
theorem shiftAligned_of (back : 0 < tstop) (positive : 0 < timestep) (later : tstop < ftime)
    (tenths : clock.Tenths tstop (tenth timestep) n)
    (tenths' : clock.Tenths (ftime - tstop) (tenth timestep) n')
    (reach : (clock.ceil (ftime / timestep)).toNat ≤ (n + n') / 10) :
    ShiftAligned L K c clock ftime tstop timestep := by
  have small : 0 < tenth timestep := clock.tenth_pos positive
  have whole := tenths.whole
  have whole' := tenths'.whole
  have last := ((tenths_iff_back back tenths.turns).mp tenths).2
  have last' := ((tenths_iff_ahead small tenths'.turns).mp tenths').2
  have room := tenths.room small
  have room' := tenths'.room small
  refine ⟨n + n' + 1, fun fuel enough => ?_⟩
  have ran : nbReverseOrbit_LMC L K c clock fuel ftime tstop (tenth timestep) = .error .failed ∨
      ∃ rep, nbReverseOrbit_LMC L K c clock fuel ftime tstop (tenth timestep) = .ok rep := by
    refine nbReverseOrbit_LMC_cases later
      (sampleOrbit_cases tenths'.turns (by omega) ?_) (sampleOrbit_cases tenths.turns (by omega) ?_)
    · change Nat.count (sampledAhead clock (tenth timestep) · = true) n' < _
      omega
    · change Nat.count (clock.sampled (tenth timestep) · = true) n < _
      omega
  rcases ran with failed | ⟨rep, run⟩
  · refine ⟨?_, ?_, ?_, ?_, ?_⟩ <;> rw [failed]
    · intro faulty
      cases faulty
    · intro faulty
      cases faulty
    · intro r n run
      cases run
    · intro r run
      cases run
    · intro r n run
      cases run
  · obtain ⟨m, m', o, reported, shifts⟩ := nbReverseOrbit_LMC_ok run
    obtain rfl := shifts.turns.unique tenths.turns
    obtain rfl := (shifts.turns' later).unique tenths'.turns
    obtain ⟨length, entries⟩ := shifts.aligned small back later tenths tenths'
    refine ⟨?_, ?_, ?_, ?_, ?_⟩ <;> rw [run]
    · intro faulty
      cases faulty
    · intro faulty
      cases faulty
    · rintro r k ⟨⟩ turns
      obtain rfl := turns.unique tenths.turns
      exact ⟨o, shifts.handed, by rw [reported], by rw [reported]⟩
    · rintro r ⟨⟩ ctx st steps fetched more
      exact shiftAt_isSome fetched (by omega)
    · rintro r k ⟨⟩ turns
      obtain rfl := turns.unique tenths.turns
      exact entries

end

/-! ## A satellite that moves away -/

noncomputable def unitPull (x : ℝ) : ℝ := 1 / √(1 + x ^ 2) ^ 3 * x

theorem unitPull_pos {x : ℝ} (positive : 0 < x) : 0 < unitPull x := by
  unfold unitPull
  positivity

theorem unitPull_le_one {x : ℝ} (positive : 0 < x) : unitPull x ≤ 1 := by
  have root : x ≤ √(1 + x ^ 2) := Real.le_sqrt_of_sq_le (by linarith)
  have root_one : 1 ≤ √(1 + x ^ 2) := Real.le_sqrt_of_sq_le (by nlinarith)
  have cubed : √(1 + x ^ 2) ≤ √(1 + x ^ 2) ^ 3 := le_self_pow₀ root_one (by norm_num)
  rw [unitPull, one_div, inv_mul_le_iff₀ (by positivity), mul_one]
  exact root.trans cubed

theorem unitPull_lt {x y : ℝ} (far : 1 ≤ x) (lt : x < y) : unitPull y < unitPull x := by
  have sx : √(1 + x ^ 2) ^ 2 = 1 + x ^ 2 := Real.sq_sqrt (by positivity)
  have sy : √(1 + y ^ 2) ^ 2 = 1 + y ^ 2 := Real.sq_sqrt (by positivity)
  have polynomial : y ^ 2 * (1 + x ^ 2) ^ 3 < x ^ 2 * (1 + y ^ 2) ^ 3 := by
    have difference : x ^ 2 * (1 + y ^ 2) ^ 3 - y ^ 2 * (1 + x ^ 2) ^ 3 =
        (y ^ 2 - x ^ 2) * (x ^ 2 * y ^ 2 * (x ^ 2 + y ^ 2) + 3 * (x ^ 2 * y ^ 2) - 1) := by ring
    have first : 0 < y ^ 2 - x ^ 2 := by nlinarith
    have squares : 1 ≤ x ^ 2 * y ^ 2 := one_le_mul_of_one_le_of_one_le (by nlinarith) (by nlinarith)
    have second : 0 < x ^ 2 * y ^ 2 * (x ^ 2 + y ^ 2) + 3 * (x ^ 2 * y ^ 2) - 1 := by
      have rest : 0 ≤ x ^ 2 * y ^ 2 * (x ^ 2 + y ^ 2) := by positivity
      linarith
    linarith [mul_pos first second]
  have cross : y * √(1 + x ^ 2) ^ 3 < x * √(1 + y ^ 2) ^ 3 := by
    refine lt_of_pow_lt_pow_left₀ 2 (by positivity) ?_
    calc (y * √(1 + x ^ 2) ^ 3) ^ 2 = y ^ 2 * (√(1 + x ^ 2) ^ 2) ^ 3 := by ring
      _ = y ^ 2 * (1 + x ^ 2) ^ 3 := by rw [sx]
      _ < x ^ 2 * (1 + y ^ 2) ^ 3 := polynomial
      _ = x ^ 2 * (√(1 + y ^ 2) ^ 2) ^ 3 := by rw [sy]
      _ = (x * √(1 + y ^ 2) ^ 3) ^ 2 := by ring
  rw [unitPull, unitPull, one_div_mul_eq_div, one_div_mul_eq_div, div_lt_div_iff₀ (by positivity)
    (by positivity)]
  exact cross

noncomputable def outward (w dt : ℝ) : ℕ → ℝ × ℝ
  | 0 => (1, w)
  | n + 1 =>
      let u := (outward w dt n).2 - dt / 2 * unitPull (outward w dt n).1
      let x := (outward w dt n).1 + dt * u
      (x, u - dt / 2 * unitPull x)

theorem outward_far {w dt : ℝ} (positive : 0 < dt) {n : ℕ} (fast : n * dt ≤ w) :
    1 ≤ (outward w dt n).1 ∧ w - n * dt ≤ (outward w dt n).2 := by
  induction n with
  | zero =>
      rw [Nat.cast_zero, zero_mul, sub_zero]
      exact ⟨le_rfl, le_rfl⟩
  | succ n ih =>
      push_cast at fast ⊢
      obtain ⟨far, speed⟩ := ih (by linarith)
      have half := mul_le_mul_of_nonneg_left
        (unitPull_le_one (x := (outward w dt n).1) (by linarith)) (half_pos positive).le
      have moved : 1 ≤ (outward w dt (n + 1)).1 := by
        change 1 ≤ (outward w dt n).1 + dt * _
        have step : 0 ≤ dt * ((outward w dt n).2 - dt / 2 * unitPull (outward w dt n).1) :=
          mul_nonneg positive.le (by linarith)
        linarith
      have half' := mul_le_mul_of_nonneg_left (unitPull_le_one (x := (outward w dt (n + 1)).1)
        (by linarith)) (half_pos positive).le
      refine ⟨moved, ?_⟩
      change _ ≤ (outward w dt n).2 - dt / 2 * unitPull (outward w dt n).1 -
        dt / 2 * unitPull (outward w dt (n + 1)).1
      linarith

theorem outward_lt {w dt : ℝ} (positive : 0 < dt) {n m : ℕ} (lt : n < m) (fast : m * dt ≤ w) :
    (outward w dt n).1 < (outward w dt m).1 := by
  induction m with
  | zero => exact absurd lt n.not_lt_zero
  | succ m ih =>
      push_cast at fast
      obtain ⟨far, speed⟩ := outward_far positive (n := m) (w := w) (by linarith)
      have half := mul_le_mul_of_nonneg_left
        (unitPull_le_one (x := (outward w dt m).1) (by linarith)) (half_pos positive).le
      have moved : (outward w dt m).1 < (outward w dt (m + 1)).1 := by
        change _ < (outward w dt m).1 + dt * _
        have step : 0 < dt * ((outward w dt m).2 - dt / 2 * unitPull (outward w dt m).1) :=
          mul_pos positive (by linarith)
        linarith
      rcases Nat.lt_succ_iff_lt_or_eq.mp lt with before | rfl
      · exact (ih before (by linarith)).trans moved
      · exact moved

noncomputable def freeSpace : Potential ℝ where
  sphere := ⟨.none, 0, 0⟩
  disk := ⟨.none, 0, 0, 0, 0, 0⟩
  disk2 := ⟨.none, 0, 0, 0, 0, 0⟩
  halo := ⟨.none, 0, 0, 0, 0, 0, 0, 0, 0, 0, 0, 0, 0, 0⟩

/-- A satellite without friction at a unit distance that moves along an axis. -/
noncomputable def outwardScene (w : ℝ) : OrbitScene ℝ :=
  ⟨freeSpace, 0, 0, ⟨1, 0, 0⟩, ⟨w, 0, 0⟩, false, 1, 1, 0⟩

@[simp] theorem outwardScene_pot (w : ℝ) : (outwardScene w).pot = freeSpace := rfl

theorem freeSpace_acceleration (L : Libm ℝ) (K : Components ℝ) (pos : Vec3 ℝ) (t : ℝ) :
    nbExtAcceleration L K freeSpace pos t = some 0 := by
  change some ((0 : Vec3 ℝ) + 0 + 0 + 0) = some 0
  simp only [add_zero]

theorem plummerAccel_axis (x : ℝ) :
    plummerAccel realLibm.toLibm 0 ⟨x, 0, 0⟩ 1 1 = ⟨unitPull x, 0, 0⟩ := by
  have dist : mw_distv realLibm.toLibm.sqrt 0 ⟨x, 0, 0⟩ = √(x ^ 2) := by
    rw [mw_distv, realLibm_powers.sqrt]
    congr 1
    simp only [sqr, Vec3.zero_x, Vec3.zero_y, Vec3.zero_z]
    ring
  have tmp : realLibm.toLibm.sqrt (realLibm.toLibm.pow 1 2.0 +
      realLibm.toLibm.pow (mw_distv realLibm.toLibm.sqrt 0 ⟨x, 0, 0⟩) 2.0) = √(1 + x ^ 2) := by
    rw [realLibm_powers.two, realLibm_powers.two, realLibm_powers.sqrt, dist, sqr, sqr,
      Real.mul_self_sqrt (sq_nonneg x), one_mul]
  have factor : (1 : ℝ) / realLibm.toLibm.pow (√(1 + x ^ 2)) 3.0 = 1 / √(1 + x ^ 2) ^ 3 := by
    rw [realLibm_powers.three, cube]
    ring
  unfold plummerAccel
  simp only [tmp, factor]
  refine Vec3.ext ?_ ?_ ?_
  · change _ * (x - 0) = _
    rw [sub_zero, unitPull]
  · change _ * ((0 : ℝ) - 0) = 0
    rw [sub_zero, mul_zero]
  · change _ * ((0 : ℝ) - 0) = 0
    rw [sub_zero, mul_zero]

structure OnAxis (x u : ℝ) (o : Orbit ℝ) : Prop where
  LMCx : o.LMCx = ⟨x, 0, 0⟩
  LMCv : o.LMCv = ⟨u, 0, 0⟩
  LMC_acc : o.LMC_acc = ⟨-unitPull x, 0, 0⟩
  mw_acc : o.mw_acc = ⟨-unitPull x, 0, 0⟩

section
variable {K : Components ℝ} {w dt : ℝ} {c : OrbitScene ℝ}
  (scene : ∃ w', c = outwardScene w')
  {accelLMC : Vec3 ℝ → Vec3 ℝ → ℝ → Option (Vec3 ℝ)}
  (still : ∀ LMCx LMCv t, accelLMC LMCx LMCv t = some 0)
include scene still

theorem accelerate_onAxis (x v : Vec3 ℝ) (d u t : ℝ) :
    ∃ o, c.accelerate realLibm.toLibm K accelLMC x v ⟨d, 0, 0⟩ ⟨u, 0, 0⟩ t =
      some o ∧ OnAxis d u o := by
  obtain ⟨w', rfl⟩ := scene
  have pulled : -(⟨unitPull d, 0, 0⟩ : Vec3 ℝ) = ⟨-unitPull d, 0, 0⟩ :=
    Vec3.ext rfl neg_zero neg_zero
  have run : (outwardScene w').accelerate realLibm.toLibm K accelLMC x v ⟨d, 0, 0⟩ ⟨u, 0, 0⟩ t =
      some ⟨x, v, ⟨d, 0, 0⟩, ⟨u, 0, 0⟩,
        0 + plummerAccel realLibm.toLibm x ⟨d, 0, 0⟩ 1 1 + ⟨-unitPull d, 0, 0⟩,
        0 + ⟨-unitPull d, 0, 0⟩, ⟨-unitPull d, 0, 0⟩⟩ := by
    rw [← pulled, ← plummerAccel_axis]
    simp only [OrbitScene.accelerate, still, outwardScene_pot, freeSpace_acceleration]
    rfl
  exact ⟨_, run, rfl, rfl, zero_add _, rfl⟩

theorem turn_onAxis {o : Orbit ℝ} {n : ℕ}
    (h : OnAxis (outward w dt n).1 (outward w dt n).2 o) (t : ℝ) :
    ∃ o', c.turn realLibm.toLibm K accelLMC dt t o = some o' ∧
      OnAxis (outward w dt (n + 1)).1 (outward w dt (n + 1)).2 o' := by
  have two : (2.0 : ℝ) = 2 := by norm_num
  have half : o.LMCv + (dt / 2.0) • o.LMC_acc =
      ⟨(outward w dt n).2 - dt / 2 * unitPull (outward w dt n).1, 0, 0⟩ := by
    rw [h.LMCv, h.LMC_acc, two]
    refine Vec3.ext ?_ ?_ ?_
    · change _ + dt / 2 * -_ = _
      ring
    · exact (zero_add _).trans (mul_zero _)
    · exact (zero_add _).trans (mul_zero _)
  have moved : o.LMCx + dt • (o.LMCv + (dt / 2.0) • o.LMC_acc) =
      ⟨(outward w dt (n + 1)).1, 0, 0⟩ := by
    rw [half, h.LMCx]
    refine Vec3.ext rfl ?_ ?_
    · exact (zero_add _).trans (mul_zero _)
    · exact (zero_add _).trans (mul_zero _)
  obtain ⟨o', run, next⟩ := accelerate_onAxis (K := K) scene still
    (o.x + dt • (o.v + (dt / 2.0) • o.acc)) (o.v + (dt / 2.0) • o.acc) (outward w dt (n + 1)).1
    ((outward w dt n).2 - dt / 2 * unitPull (outward w dt n).1) t
  refine ⟨{ o' with
    v := o'.v + (dt / 2.0) • o'.acc, LMCv := o'.LMCv + (dt / 2.0) • o'.LMC_acc }, ?_, ?_⟩
  · simp only [OrbitScene.turn, moved]
    rw [half, run]
    rfl
  · refine ⟨next.LMCx, ?_, next.LMC_acc, next.mw_acc⟩
    change o'.LMCv + (dt / 2.0) • o'.LMC_acc = _
    rw [next.LMCv, next.LMC_acc, two]
    refine Vec3.ext ?_ ?_ ?_
    · change _ + dt / 2 * -_ = (outward w dt n).2 - dt / 2 * unitPull (outward w dt n).1 -
        dt / 2 * unitPull (outward w dt (n + 1)).1
      ring
    · exact (zero_add _).trans (mul_zero _)
    · exact (zero_add _).trans (mul_zero _)

theorem advance_onAxis {start : Orbit ℝ} (h : OnAxis 1 w start) (time : ℕ → ℝ) (n : ℕ) :
    ∃ o, advance (fun m => c.turn realLibm.toLibm K accelLMC dt (time m)) n start =
      some o ∧ OnAxis (outward w dt n).1 (outward w dt n).2 o := by
  induction n with
  | zero => exact ⟨start, rfl, h⟩
  | succ n ih =>
      obtain ⟨o, run, axis⟩ := ih
      obtain ⟨o', turn, axis'⟩ := turn_onAxis (K := K) scene still axis (time n)
      refine ⟨o', ?_, axis'⟩
      rw [advance_succ, run]
      exact turn

end

section
variable {K : Components ℝ} {w : ℝ}
variable {T : Type} [Preorder T] [Zero T] [Add T] [Div T] [NatCast T]

theorem forwardAccel_still (LMCx LMCv : Vec3 ℝ) (t : ℝ) :
    (outwardScene w).forwardAccel realLibm.toLibm K LMCx LMCv t = some 0 := by
  simp only [OrbitScene.forwardAccel, outwardScene_pot, freeSpace_acceleration]
  exact congrArg some (add_zero _)

theorem reverseAccel_still (LMCx LMCv : Vec3 ℝ) (t : ℝ) :
    (outwardScene w).reverseAccel realLibm.toLibm K LMCx LMCv t = some 0 := by
  simp only [OrbitScene.reverseAccel, outwardScene_pot, freeSpace_acceleration]
  rfl

theorem forward_outward (clock : Clock T ℝ) (dt : T) (w : ℝ) (n : ℕ) :
    ((outwardScene w).forwardTurns realLibm.toLibm K clock dt n).map Orbit.mw_acc =
      some ⟨-unitPull (outward w (clock.value dt) n).1, 0, 0⟩ := by
  obtain ⟨start, run, axis⟩ := accelerate_onAxis (K := K) ⟨w, rfl⟩ forwardAccel_still 0 0 1 w 0
  obtain ⟨o, advanced, axis'⟩ := advance_onAxis (K := K) (w := w) ⟨w, rfl⟩ forwardAccel_still
    axis (fun m => clock.value (ticks dt m)) n
  have reached : (outwardScene w).forwardTurns realLibm.toLibm K clock dt n = some o := by
    rw [OrbitScene.forwardTurns, OrbitScene.ahead]
    exact (congrArg (Option.bind · _) run).trans advanced
  rw [reached]
  exact congrArg some axis'.mw_acc

theorem backward_outward (clock : Clock T ℝ) (dt : T) (w : ℝ) (n : ℕ) :
    ((outwardScene (-w)).backwardTurns realLibm.toLibm K clock dt n).map Orbit.mw_acc =
      some ⟨-unitPull (outward w (clock.value dt) n).1, 0, 0⟩ := by
  have reversed : -(⟨-w, 0, 0⟩ : Vec3 ℝ) = ⟨w, 0, 0⟩ := Vec3.ext (neg_neg w) neg_zero neg_zero
  obtain ⟨start, run, axis⟩ := accelerate_onAxis (K := K) ⟨-w, rfl⟩ reverseAccel_still 0 (-0) 1 w 0
  obtain ⟨o, advanced, axis'⟩ := advance_onAxis (K := K) (w := w) ⟨-w, rfl⟩ reverseAccel_still
    axis (fun m => clock.value (ticks dt m) * -1) n
  rw [← reversed] at run
  have reached : (outwardScene (-w)).backwardTurns realLibm.toLibm K clock dt n = some o := by
    rw [OrbitScene.backwardTurns, OrbitScene.back]
    exact (congrArg (Option.bind · _) run).trans advanced
  rw [reached]
  exact congrArg some axis'.mw_acc

end

theorem outward_injective {dt : ℝ} (positive : 0 < dt) {N n m : ℕ} (le : n ≤ N) (le' : m ≤ N)
    (same : (⟨-unitPull (outward (N * dt) dt n).1, 0, 0⟩ : Vec3 ℝ) =
      ⟨-unitPull (outward (N * dt) dt m).1, 0, 0⟩) : n = m := by
  have fast (k : ℕ) (le : k ≤ N) : k * dt ≤ N * dt :=
    mul_le_mul_of_nonneg_right (Nat.cast_le.mpr le) positive.le
  have pulls := neg_inj.mp (congrArg Vec3.x same)
  rcases Nat.lt_trichotomy n m with less | equal | more
  · have farther := unitPull_lt (outward_far positive (fast n le)).1
      (outward_lt positive less (fast m le'))
    exact absurd pulls farther.ne'
  · exact equal
  · have farther := unitPull_lt (outward_far positive (fast m le')).1
      (outward_lt positive more (fast n le))
    exact absurd pulls farther.ne

/-! ## When the array is in time -/

section
variable {T : Type} [Preorder T] [DecidableLE T] [DecidableLT T] [DecidableEq T] [Zero T] [Add T]
  [Sub T] [Div T] [NatCast T]
variable {clock : Clock T ℝ} {ftime tstop timestep dt : T} {w : ℝ} {n n' N fuel : ℕ} {o : Orbit ℝ}
  {shift : List (Vec3 ℝ)}

noncomputable def orbitCtx (nStep : ℕ) : NBodyCtx ℝ where
  eps2 := 1
  theta := 0
  timestep := 1
  timeEvolve := 1
  treeRSize := 1
  criterion := .exact
  potentialType := .default
  BestLikeStart := 1
  LMC := true
  LMCmass := 1
  LMCscale := 1
  coulomb_log := 0
  nStep := nStep
  pot := freeSpace

noncomputable def orbitState (shift : List (Vec3 ℝ)) (step : ℕ) : NBodyState ℝ where
  rsize := 1
  bodytab := []
  bestLikelihoodBodyTab := []
  acctab := []
  orbitTrace := none
  shiftByLMC := some shift
  LMCpos := 0
  LMCvel := 0
  step := step
  best := ⟨0, 0, 0, 0, 0, 0, 0, 0, 0⟩
  previousForwardTime := 0

theorem length_of_shiftAt {nStep step : ℕ}
    (read : (shiftAt (orbitCtx nStep) (orbitState shift step)).isSome = true) :
    step + 1 < shift.length := by
  by_contra missing
  have past : shift[step + 1]? = none := List.getElem?_eq_none (not_lt.mp missing)
  have none : shiftAt (orbitCtx nStep) (orbitState shift step) = none := by
    change (do
      let acc_i ← shift[step]?
      let acc_i1 ← shift[step + 1]?
      return (acc_i, acc_i1)) = none
    rw [past]
    cases shift[step]? <;> rfl
  rw [none] at read
  cases read

theorem turn_isSome {accelLMC : Vec3 ℝ → Vec3 ℝ → ℝ → Option (Vec3 ℝ)}
    (still : ∀ LMCx LMCv t, accelLMC LMCx LMCv t = some 0) (dt t : ℝ) (o : Orbit ℝ) :
    ((outwardScene w).turn realLibm.toLibm noComponents accelLMC dt t o).isSome = true := by
  simp only [OrbitScene.turn, OrbitScene.accelerate, still, outwardScene_pot,
    freeSpace_acceleration]
  rfl

theorem outward_ne_failed (w : ℝ) (dt : T) :
    nbReverseOrbit_LMC realLibm.toLibm noComponents (outwardScene w) clock fuel ftime tstop dt ≠
      .error .failed := by
  have back_goes : sampleBack realLibm.toLibm noComponents (outwardScene w) clock fuel tstop dt ≠
      .error .failed := by
    obtain ⟨start, run, -⟩ :=
      accelerate_onAxis (K := noComponents) ⟨w, rfl⟩ reverseAccel_still 0 (-0) 1 (-w) 0
    have reversed : -(⟨w, 0, 0⟩ : Vec3 ℝ) = ⟨-w, 0, 0⟩ := Vec3.ext rfl neg_zero neg_zero
    rw [← reversed] at run
    have starts : (outwardScene w).back realLibm.toLibm noComponents = some start := run
    rw [sampleBack, starts]
    exact sampleOrbit_ne_failed fun t o => turn_isSome reverseAccel_still _ _ o
  have ahead_goes : sampleAhead realLibm.toLibm noComponents (outwardScene w) clock fuel ftime
      tstop dt ≠ .error .failed := by
    obtain ⟨start, run, -⟩ :=
      accelerate_onAxis (K := noComponents) ⟨w, rfl⟩ forwardAccel_still 0 0 1 w 0
    have starts : (outwardScene w).ahead realLibm.toLibm noComponents = some start := run
    rw [sampleAhead, starts]
    exact sampleOrbit_ne_failed fun t o => turn_isSome forwardAccel_still _ _ o
  intro failed
  cases back : sampleBack realLibm.toLibm noComponents (outwardScene w) clock fuel tstop dt with
  | error e =>
      have other : e ≠ .failed := fun same => back_goes (same ▸ back)
      by_cases later : tstop < ftime
      · cases ahead : sampleAhead realLibm.toLibm noComponents (outwardScene w) clock fuel ftime
            tstop dt with
        | error e' =>
            simp only [nbReverseOrbit_LMC, if_pos later, ahead] at failed
            cases failed
            exact ahead_goes ahead
        | ok f =>
            simp only [nbReverseOrbit_LMC, if_pos later, ahead, back] at failed
            cases failed
            exact other rfl
      · simp only [nbReverseOrbit_LMC, if_neg later, back] at failed
        cases failed
        exact other rfl
  | ok r =>
      by_cases later : tstop < ftime
      · cases ahead : sampleAhead realLibm.toLibm noComponents (outwardScene w) clock fuel ftime
            tstop dt with
        | error e' =>
            simp only [nbReverseOrbit_LMC, if_pos later, ahead] at failed
            cases failed
            exact ahead_goes ahead
        | ok f =>
            obtain ⟨-, -, shift, run, -⟩ := nbReverseOrbit_LMC_shifts later ahead back
            rw [run] at failed
            cases failed
      · obtain ⟨-, -, shift, run, -⟩ := nbReverseOrbit_LMC_spare later back
        rw [run] at failed
        cases failed

theorem aligned_shifts (aligned : ShiftAligned realLibm.toLibm noComponents (outwardScene w) clock
    ftime tstop timestep) :
    ∃ n n' o shift, Shifts realLibm.toLibm noComponents (outwardScene w) clock ftime tstop
        (tenth timestep) n n' o shift ∧
      (∀ j < shift.length, shift[j]? = (outwardScene w).milkyWayAccel realLibm.toLibm noComponents
        clock (tenth timestep) (10 * j - n)) ∧
      (clock.ceil (ftime / timestep)).toNat < shift.length := by
  obtain ⟨enough, holds⟩ := aligned
  have result := holds enough le_rfl
  cases run : nbReverseOrbit_LMC realLibm.toLibm noComponents (outwardScene w) clock enough ftime
      tstop (tenth timestep) with
  | error e =>
      rw [run] at result
      cases e with
      | outOfRange => exact absurd rfl result.inRange
      | failed => exact absurd run (outward_ne_failed w _)
      | unending => exact absurd rfl result.ends
  | ok rep =>
      rw [run] at result
      obtain ⟨n, n', o, -, shifts⟩ := nbReverseOrbit_LMC_ok run
      refine ⟨n, n', o, rep.shiftByLMC, shifts, result.entries rep n rfl shifts.turns, ?_⟩
      cases steps : (clock.ceil (ftime / timestep)).toNat with
      | zero =>
          have length := shifts.length
          omega
      | succ step => exact length_of_shiftAt (result.reads rep rfl (orbitCtx (step + 1))
          (orbitState rep.shiftByLMC step) steps.symm rfl step.lt_succ_self)

omit [DecidableLE T] in
theorem sample_before (positive : 0 < clock.value dt)
    (shifts : Shifts realLibm.toLibm noComponents (outwardScene (-(N * clock.value dt))) clock ftime
      tstop dt n n' o shift)
    (entries : ∀ j < shift.length, shift[j]? = (outwardScene (-(N * clock.value dt))).milkyWayAccel
      realLibm.toLibm noComponents clock dt (10 * j - n))
    (far : n ≤ N) {m : ℕ} (le : m ≤ n) (kept : clock.sampled dt m = true ∨ m = n)
    (past : 10 * (Nat.count (clock.sampled dt · = true) n -
      Nat.count (clock.sampled dt · = true) m) ≤ n) :
    m = n - 10 * (Nat.count (clock.sampled dt · = true) n -
      Nat.count (clock.sampled dt · = true) m) := by
  have entry := shifts.before m le kept
  have length := shifts.length
  rw [entries _ (by omega), milkyWayAccel_past dt (m := n - 10 * (Nat.count
    (clock.sampled dt · = true) n - Nat.count (clock.sampled dt · = true) m)) (by omega),
    backward_outward, backward_outward, Option.some.injEq] at entry
  exact (outward_injective positive (by omega) (le.trans far) entry).symm

omit [DecidableLE T] in
theorem not_read_after (positive : 0 < clock.value dt) (positive' : 0 < dt)
    (shifts : Shifts realLibm.toLibm noComponents (outwardScene (N * clock.value dt)) clock ftime
      tstop dt n n' o shift)
    (entries : ∀ j < shift.length, shift[j]? = (outwardScene (N * clock.value dt)).milkyWayAccel
      realLibm.toLibm noComponents clock dt (10 * j - n))
    (far : 10 * Nat.count (clock.sampled dt · = true) n ≤ N) :
    10 * Nat.count (clock.sampled dt · = true) n ≤ n := by
  by_contra after
  have entry := shifts.before 0 (Nat.zero_le n) (.inl (clock.sampled_zero positive'))
  have length := shifts.length
  have today : ((outwardScene (N * clock.value dt)).backwardTurns realLibm.toLibm noComponents clock
      dt 0).map Orbit.mw_acc = some ⟨-unitPull (outward (N * clock.value dt) (clock.value dt) 0).1,
        0, 0⟩ := by
    have start := backward_outward (K := noComponents) clock dt (-(N * clock.value dt)) 0
    rwa [neg_neg] at start
  rw [Nat.count_zero, Nat.sub_zero] at entry
  rw [entries _ (by omega), milkyWayAccel_future dt
    (m := 10 * Nat.count (clock.sampled dt · = true) n - n) (by omega) (by omega),
    forward_outward, today, Option.some.injEq] at entry
  have same := outward_injective positive (by omega) (Nat.zero_le N) entry
  omega

omit [DecidableLE T] in
theorem sample_after (positive : 0 < clock.value dt)
    (shifts : Shifts realLibm.toLibm noComponents (outwardScene (N * clock.value dt)) clock ftime
      tstop dt n n' o shift)
    (entries : ∀ j < shift.length, shift[j]? = (outwardScene (N * clock.value dt)).milkyWayAccel
      realLibm.toLibm noComponents clock dt (10 * j - n))
    (whole : n = 10 * Nat.count (clock.sampled dt · = true) n) (later : tstop < ftime)
    (far : n' ≤ N) (far' : 10 * (Nat.count (sampledAhead clock dt · = true) n' + 1) ≤ N) {m : ℕ}
    (le : m ≤ n') (kept : sampledAhead clock dt m = true ∨ m = n') :
    m = 10 * (Nat.count (sampledAhead clock dt · = true) m + 1) := by
  have entry := shifts.after later m le kept
  have length := shifts.length
  have before := Nat.count_monotone (sampledAhead clock dt · = true) le
  rw [if_pos later] at length
  rw [entries _ (by omega), milkyWayAccel_future dt
    (m := 10 * (Nat.count (sampledAhead clock dt · = true) m + 1)) (by omega) (by omega),
    forward_outward, forward_outward, Option.some.injEq] at entry
  exact (outward_injective positive (by omega) (le.trans far) entry).symm

omit [DecidableLE T] in
theorem runs_past (positive : 0 < clock.value dt)
    (shifts : Shifts realLibm.toLibm noComponents (outwardScene (N * clock.value dt)) clock ftime
      tstop dt n n' o shift)
    (entries : ∀ j < shift.length, shift[j]? = (outwardScene (N * clock.value dt)).milkyWayAccel
      realLibm.toLibm noComponents clock dt (10 * j - n))
    (whole : n = 10 * Nat.count (clock.sampled dt · = true) n) (far : 10 ≤ N) : tstop < ftime := by
  by_contra ended
  have entry := shifts.spare ended
  have length := shifts.length
  have moved := (outward_far (w := N * clock.value dt) positive (n := 10)
    (mul_le_mul_of_nonneg_right (Nat.cast_le.mpr far) positive.le)).1
  have pulled := unitPull_pos (lt_of_lt_of_le one_pos moved)
  rw [entries _ (by omega), milkyWayAccel_future dt (m := 10) (by omega) (by norm_num),
    forward_outward, Option.some.injEq] at entry
  have same : -unitPull (outward (N * clock.value dt) (clock.value dt) 10).1 = 0 :=
    congrArg Vec3.x entry
  linarith

/-- The array is in time for every orbit just if the run goes past today, both loops over the
time take a multiple of ten turns of which each tenth is sampled, and the run takes no more
steps than there are tens of turns. -/
theorem nbReverseOrbit_LMC_aligned_iff (clock : Clock T ℝ) (back : 0 < tstop)
    (positive : 0 < timestep) :
    (∀ K c, ShiftAligned realLibm.toLibm K c clock ftime tstop timestep) ↔
      tstop < ftime ∧ ∃ n n', clock.Tenths tstop (tenth timestep) n ∧
        clock.Tenths (ftime - tstop) (tenth timestep) n' ∧
          (clock.ceil (ftime / timestep)).toNat ≤ (n + n') / 10 := by
  have small : 0 < tenth timestep := clock.tenth_pos positive
  have step : 0 < clock.value (tenth timestep) := clock.value_pos small
  constructor
  · intro aligned
    obtain ⟨n, n', _, _, still, -, -⟩ := aligned_shifts (aligned noComponents (outwardScene 0))
    obtain ⟨N, far, counted, far', counted', some_steps⟩ : ∃ N, n ≤ N ∧
        10 * Nat.count (clock.sampled (tenth timestep) · = true) n ≤ N ∧ n' ≤ N ∧
        10 * (Nat.count (sampledAhead clock (tenth timestep) · = true) n' + 1) ≤ N ∧ 10 ≤ N :=
      ⟨n + 10 * Nat.count (clock.sampled (tenth timestep) · = true) n + n' +
        10 * (Nat.count (sampledAhead clock (tenth timestep) · = true) n' + 1),
        by omega, by omega, by omega, by omega, by omega⟩
    obtain ⟨m, k, _, shift, out, entries, reach⟩ := aligned_shifts
      (aligned noComponents (outwardScene (N * clock.value (tenth timestep))))
    obtain ⟨m', k', _, shift', inward, entries', -⟩ := aligned_shifts
      (aligned noComponents (outwardScene (-(N * clock.value (tenth timestep)))))
    obtain rfl := out.turns.unique still.turns
    obtain rfl := inward.turns.unique out.turns
    have first := not_read_after step small out entries counted
    have whole : m' = 10 * Nat.count (clock.sampled (tenth timestep) · = true) m' := by
      have today := sample_before step inward entries' far (Nat.zero_le m')
        (.inl (clock.sampled_zero small)) (by rwa [Nat.count_zero, Nat.sub_zero])
      rw [Nat.count_zero, Nat.sub_zero] at today
      omega
    have later := runs_past step out entries whole some_steps
    obtain rfl := (out.turns' later).unique (still.turns' later)
    have tenths : clock.Tenths tstop (tenth timestep) m' := by
      refine (tenths_iff_back back inward.turns).mpr ⟨fun i lt due => ?_, whole⟩
      have taken := sample_before step inward entries' far lt.le (.inl due) (by omega)
      have before := Nat.count_monotone (clock.sampled (tenth timestep) · = true) lt.le
      omega
    have tenths' : clock.Tenths (ftime - tstop) (tenth timestep) k :=
      (tenths_iff_ahead small (out.turns' later)).mpr
        ⟨fun i lt due => sample_after step out entries whole later far' counted' lt.le (.inl due),
          sample_after step out entries whole later far' counted' le_rfl (.inr rfl)⟩
    have whole' := ((tenths_iff_ahead small (out.turns' later)).mp tenths').2
    have length := out.length
    rw [if_pos later] at length
    exact ⟨later, m', k, tenths, tenths', by omega⟩
  · rintro ⟨later, n, n', tenths, tenths', reach⟩ K c
    exact shiftAligned_of back positive later tenths tenths' reach

/-- In nine eighths there are ten turns of an eighth. -/
theorem nbReverseOrbit_LMC_aligned_nines : (0 : Double) < ⟨9 / 8⟩ ∧ (0 : Double) < ⟨5 / 4⟩ ∧
    ∀ K c, ShiftAligned realLibm.toLibm K c Clock.double ⟨9 / 4⟩ ⟨9 / 8⟩ ⟨5 / 4⟩ := by
  have back : (0 : Double) < ⟨9 / 8⟩ := by decide +kernel
  have positive : (0 : Double) < ⟨5 / 4⟩ := by decide +kernel
  refine ⟨back, positive, ?_⟩
  have eighth : tenth (⟨5 / 4⟩ : Double) = ⟨1 / 8⟩ := by decide +kernel
  have rest : (⟨9 / 4⟩ : Double) - ⟨9 / 8⟩ = ⟨9 / 8⟩ := by decide +kernel
  have steps : (Clock.double.ceil ((⟨9 / 4⟩ : Double) / ⟨5 / 4⟩)).toNat = 2 := by decide +kernel
  have tenths : Clock.double.Tenths ⟨9 / 8⟩ ⟨1 / 8⟩ 10 :=
    ⟨⟨by decide +kernel, by decide +kernel⟩, by decide, by decide, by decide +kernel⟩
  refine (nbReverseOrbit_LMC_aligned_iff Clock.double back positive).mpr
    ⟨by decide +kernel, 10, 10, ?_, ?_, ?_⟩
  · rw [eighth]
    exact tenths
  · rw [eighth, rest]
    exact tenths
  · rw [steps]

/-- In whole timesteps the second entry is the sample ten turns before today, which is read
at the time of one turn before it. -/
theorem nbReverseOrbit_LMC_late : ¬ShiftAligned realLibm.toLibm noComponents (outwardScene (-2))
    Clock.double ⟨5 / 2⟩ ⟨5 / 4⟩ ⟨5 / 4⟩ := by
  have eighth : tenth (⟨5 / 4⟩ : Double) = ⟨1 / 8⟩ := by decide +kernel
  have turns : Turns (⟨5 / 4⟩ : Double) ⟨1 / 8⟩ 11 := ⟨by decide +kernel, by decide +kernel⟩
  have sampled : Clock.double.sampled ⟨1 / 8⟩ 10 = true := by decide +kernel
  have counted : Nat.count (Clock.double.sampled ⟨1 / 8⟩ · = true) 11 = 2 := by decide +kernel
  have counted' : Nat.count (Clock.double.sampled ⟨1 / 8⟩ · = true) 10 = 1 := by decide +kernel
  have speed : (2 : ℝ) = (16 : ℕ) * Clock.double.value ⟨1 / 8⟩ := by
    change (2 : ℝ) = (16 : ℕ) * ((1 / 8 : ℚ) : ℝ)
    norm_num
  intro aligned
  obtain ⟨n, n', o, shift, shifts, entries, -⟩ := aligned_shifts aligned
  rw [eighth] at shifts entries
  rw [speed] at shifts entries
  obtain rfl := shifts.turns.unique turns
  have step : 0 < Clock.double.value ⟨1 / 8⟩ := by
    change (0 : ℝ) < ((1 / 8 : ℚ) : ℝ)
    norm_num
  have late := sample_before step shifts entries (by decide) (m := 10) (by decide) (.inl sampled)
    (by rw [counted, counted']; decide)
  rw [counted, counted'] at late
  cases late

end

end MilkyWay.NBody
