import MilkyWay.Foundation.Clock
import MilkyWay.NBody.Plain

/-! The orbit back from today with the satellite. Backwards and, for runs that go past
today, forwards, accelerations of the Milky Way are kept where the time of the turn says
so; the array for the run is the first samples reversed and the others behind them. The
times are numbers of their own, whose arithmetic may round. -/

namespace MilkyWay.NBody

open Foundation

/-- The dwarf and the satellite, the accelerations there and that of the Milky Way. -/
structure Orbit (R : Type) where
  x : Vec3 R
  v : Vec3 R
  LMCx : Vec3 R
  LMCv : Vec3 R
  acc : Vec3 R
  LMC_acc : Vec3 R
  mw_acc : Vec3 R

/-- Where the bodies are today and what moves them. -/
structure OrbitScene (R : Type) where
  pot : Potential R
  pos : Vec3 R
  vel : Vec3 R
  LMCposition : Vec3 R
  LMCvelocity : Vec3 R
  LMCDynaFric : Bool
  LMCmass : R
  LMCscale : R
  coulomb_log : R

structure ReverseOrbit (R : Type) where
  finalPos : Vec3 R
  finalVel : Vec3 R
  LMCfinalPos : Vec3 R
  LMCfinalVel : Vec3 R
  shiftByLMC : List (Vec3 R)

section
variable {R : Type} [Field R] [LinearOrder R] [IsStrictOrderedRing R]
variable (L : Libm R) (K : Components R) (c : OrbitScene R)

namespace OrbitScene

def forwardAccel (LMCx LMCv : Vec3 R) (t : R) : Option (Vec3 R) := do
  let ext ← nbExtAcceleration L K c.pot LMCx t
  let DF_acc ← dynamicalFriction_LMC L K c.pot LMCx LMCv c.LMCmass c.LMCDynaFric t c.coulomb_log
  return ext + DF_acc

def reverseAccel (LMCx LMCv : Vec3 R) (t : R) : Option (Vec3 R) := do
  let LMC_acc ← nbExtAcceleration L K c.pot LMCx t
  if c.LMCDynaFric then
    let DF_acc ← dynamicalFriction_LMC L K c.pot LMCx LMCv c.LMCmass true t c.coulomb_log
    return LMC_acc + -DF_acc
  else return LMC_acc

def accelerate (accelLMC : Vec3 R → Vec3 R → R → Option (Vec3 R)) (x v LMCx LMCv : Vec3 R)
    (t : R) : Option (Orbit R) := do
  let mw_acc := -plummerAccel L 0 LMCx c.LMCmass c.LMCscale
  let LMC_acc ← accelLMC LMCx LMCv t
  let acc ← nbExtAcceleration L K c.pot x t
  let tmp := plummerAccel L x LMCx c.LMCmass c.LMCscale
  return ⟨x, v, LMCx, LMCv, acc + tmp + mw_acc, LMC_acc + mw_acc, mw_acc⟩

def turn (accelLMC : Vec3 R → Vec3 R → R → Option (Vec3 R)) (dt t : R) (o : Orbit R) :
    Option (Orbit R) := do
  let dt_half := dt / 2.0
  let v := o.v + dt_half • o.acc
  let x := o.x + dt • v
  let LMCv := o.LMCv + dt_half • o.LMC_acc
  let LMCx := o.LMCx + dt • LMCv
  let o ← c.accelerate L K accelLMC x v LMCx LMCv t
  return { o with v := o.v + dt_half • o.acc, LMCv := o.LMCv + dt_half • o.LMC_acc }

def ahead : Option (Orbit R) :=
  c.accelerate L K (c.forwardAccel L K) c.pos c.vel c.LMCposition c.LMCvelocity 0

/-- The bodies today with their velocities reversed. -/
def back : Option (Orbit R) :=
  c.accelerate L K (c.reverseAccel L K) c.pos (-c.vel) c.LMCposition (-c.LMCvelocity) 0

/-- The bodies some steps before today, as they are computed backwards. -/
def backward (dt : R) (n : ℕ) : Option (Orbit R) :=
  (c.back L K).bind (advance (fun m => c.turn L K (c.reverseAccel L K) dt (m * dt * -1)) n)

section
variable {T : Type} [Preorder T] [Zero T] [Add T] [Div T] [NatCast T] (clock : Clock T R)

def forwardTurns (dt : T) (n : ℕ) : Option (Orbit R) :=
  (c.ahead L K).bind (advance (fun m =>
    c.turn L K (c.forwardAccel L K) (clock.value dt) (clock.value (ticks dt m))) n)

def backwardTurns (dt : T) (n : ℕ) : Option (Orbit R) :=
  (c.back L K).bind (advance (fun m =>
    c.turn L K (c.reverseAccel L K) (clock.value dt) (clock.value (ticks dt m) * -1)) n)

end

end OrbitScene

section
variable {T : Type} [Preorder T] [DecidableLE T] [DecidableLT T] [DecidableEq T] [Zero T] [Add T]
  [Sub T] [Div T] [NatCast T] (clock : Clock T R)

/-- A loop over the time that keeps the accelerations of the Milky Way that are due, and
the one it ends with. -/
def sampleOrbit (due : T → Bool) (step : T → Orbit R → Option (Orbit R)) (upper dt : T)
    (start : Option (Orbit R)) (size fuel : ℕ) : Except Fault (Recorder (Orbit R) (Vec3 R)) := do
  let o ← Fault.ofOption start
  let r ← timeLoop upper dt (fun t => Recorder.turn (due t) Orbit.mw_acc (step t)) fuel 0
    ⟨o, List.replicate size 0, 0⟩
  let array ← writeAt r.array r.count r.state.mw_acc
  return { r with array := array }

def sampleAhead (fuel : ℕ) (ftime tstop dt : T) : Except Fault (Recorder (Orbit R) (Vec3 R)) :=
  let exSteps := (clock.ceil ((ftime - tstop) / dt) + 1).natAbs
  sampleOrbit (fun t => clock.toUnsigned (t / dt) % 10 == 0 && t != 0)
    (fun t => c.turn L K (c.forwardAccel L K) (clock.value dt) (clock.value t))
    (ftime - tstop) dt (c.ahead L K) (exSteps + 1) fuel

def sampleBack (fuel : ℕ) (tstop dt : T) : Except Fault (Recorder (Orbit R) (Vec3 R)) :=
  let steps := (clock.ceil (tstop / dt) + 1).natAbs
  sampleOrbit (fun t => clock.toUnsigned (t / dt) % 10 == 0)
    (fun t => c.turn L K (c.reverseAccel L K) (clock.value dt) (clock.value t * -1))
    tstop dt (c.back L K) (steps + 1) fuel

/-- The orbit back from today for a time `tstop`, for a run of the time `ftime`. -/
def nbReverseOrbit_LMC (fuel : ℕ) (ftime tstop dt : T) : Except Fault (ReverseOrbit R) := do
  let (forArray, k) ←
    if tstop < ftime then do
      let r ← sampleAhead L K c clock fuel ftime tstop dt
      pure (r.array, r.count)
    else pure ([], 0)
  let r ← sampleBack L K c clock fuel tstop dt
  let i := r.count
  let shiftByLMC ← copyInto (List.replicate (i + k + 2) 0) r.array 0 (i - ·) (i + 1)
  let shiftByLMC ←
    if tstop < ftime then copyInto shiftByLMC forArray (i + 1) id (k + 1) else pure shiftByLMC
  return ⟨r.state.x, -r.state.v, r.state.LMCx, -r.state.LMCv, shiftByLMC⟩

end

/-! ## What a loop keeps -/

structure Sampled (sampled : ℕ → Bool) (orbit : ℕ → Option (Orbit R)) (n size : ℕ)
    (r : Recorder (Orbit R) (Vec3 R)) : Prop where
  state : orbit n = some r.state
  length : r.array.length = size
  count : r.count = Nat.count (sampled · = true) n
  room : r.count < size
  entries : ∀ m ≤ n, sampled m = true ∨ m = n →
    r.array[Nat.count (sampled · = true) m]? = (orbit m).map Orbit.mw_acc

section
variable {T : Type} [Preorder T] [DecidableLE T] [Zero T] [Add T]
variable {due : T → Bool} {step : T → Orbit R → Option (Orbit R)} {upper dt : T}
  {start : Option (Orbit R)} {size n fuel : ℕ} {r : Recorder (Orbit R) (Vec3 R)}

omit [LinearOrder R] [IsStrictOrderedRing R] in
theorem sampleOrbit_turns (turns : Turns upper dt n) (enough : n + 1 ≤ fuel) (o : Orbit R) :
    sampleOrbit due step upper dt (some o) size fuel = (do
      let r ← (List.range n).foldlM
        (fun r (m : ℕ) => Recorder.turn (due (ticks dt m)) Orbit.mw_acc (step (ticks dt m)) r)
        ⟨o, List.replicate size 0, 0⟩
      let array ← writeAt r.array r.count r.state.mw_acc
      return { r with array := array }) := by
  have loop : timeLoop upper dt (fun t => Recorder.turn (due t) Orbit.mw_acc (step t)) fuel 0
      ⟨o, List.replicate size 0, 0⟩ = _ := timeLoop_turns turns enough _
  rw [← loop]
  rfl

omit [LinearOrder R] [IsStrictOrderedRing R] in
theorem sampleOrbit_cases (turns : Turns upper dt n) (enough : n + 1 ≤ fuel)
    (room : Nat.count (fun m => due (ticks dt m) = true) n < size) :
    sampleOrbit due step upper dt start size fuel = .error .failed ∨
      ∃ r, sampleOrbit due step upper dt start size fuel = .ok r := by
  cases start with
  | none => exact .inl rfl
  | some o =>
      rw [sampleOrbit_turns turns enough]
      have length : (List.replicate size (0 : Vec3 R)).length = size := List.length_replicate
      rcases record_cases (fun m => due (ticks dt m)) Orbit.mw_acc (fun m => step (ticks dt m)) o
          (List.replicate size 0) n (by rw [length]; exact room.le) with
        ⟨failed, -⟩ | ⟨r, succeeds, recorded⟩
      · rw [failed]
        exact .inl rfl
      · have lt : r.count < r.array.length := by
          rw [recorded.count, recorded.length, length]
          exact room
        rw [succeeds, ok_bind, writeAt_eq lt]
        exact .inr ⟨_, rfl⟩

omit [LinearOrder R] [IsStrictOrderedRing R] in
theorem sampleOrbit_ok (run : sampleOrbit due step upper dt start size fuel = .ok r) :
    ∃ n, Turns upper dt n ∧ Sampled (fun m => due (ticks dt m))
      (fun n => start.bind (advance (fun m => step (ticks dt m)) n)) n size r := by
  cases start with
  | none => cases run
  | some o =>
      obtain ⟨n, turns, enough⟩ : ∃ n, Turns upper dt n ∧ n + 1 ≤ fuel := by
        cases loop : timeLoop upper dt (fun t => Recorder.turn (due t) Orbit.mw_acc (step t)) fuel 0
            ⟨o, List.replicate size 0, 0⟩ with
        | error e =>
            change (do let r ← timeLoop upper dt _ fuel 0 _; _) = _ at run
            rw [loop] at run
            cases run
        | ok r =>
            obtain ⟨n, turns, le⟩ := timeLoop_ended (m := 0) (fun k lt => absurd lt k.not_lt_zero)
              loop
            exact ⟨n, turns, by omega⟩
      rw [sampleOrbit_turns turns enough] at run
      cases loop : (List.range n).foldlM
          (fun r (m : ℕ) => Recorder.turn (due (ticks dt m)) Orbit.mw_acc (step (ticks dt m)) r)
          (⟨o, List.replicate size 0, 0⟩ : Recorder (Orbit R) (Vec3 R)) with
      | error e =>
          rw [loop] at run
          cases run
      | ok r₀ =>
          obtain ⟨recorded, -⟩ := recorded_of_ok loop
          rw [List.length_replicate] at recorded
          rw [loop, ok_bind, writeAt] at run
          split at run
          · rename_i lt
            cases run
            have room : Nat.count (fun m => due (ticks dt m) = true) n < size := by
              rwa [← recorded.length, ← recorded.count]
            refine ⟨n, turns, recorded.state, ?_, recorded.count, ?_, ?_⟩
            · rw [List.length_set, recorded.length]
            · rwa [← recorded.count] at room
            · exact fun m le kept => recorded.entry room le kept
          · cases run

omit [LinearOrder R] [IsStrictOrderedRing R] in
theorem sampleOrbit_ne_failed {o : Orbit R} (goes : ∀ t o, (step t o).isSome = true) :
    sampleOrbit due step upper dt (some o) size fuel ≠ .error .failed := by
  have turn_goes (t : T) (r : Recorder (Orbit R) (Vec3 R)) :
      Recorder.turn (due t) Orbit.mw_acc (step t) r ≠ .error .failed := by
    obtain ⟨o', turn⟩ := Option.isSome_iff_exists.mp (goes t r.state)
    intro failed
    rw [Recorder.turn] at failed
    split at failed
    · rw [Recorder.write, writeAt] at failed
      split at failed
      · change (do let state ← Fault.ofOption (step t r.state); _) = _ at failed
        rw [turn] at failed
        cases failed
      · cases failed
    · change (do let state ← Fault.ofOption (step t r.state); _) = _ at failed
      rw [turn] at failed
      cases failed
  intro failed
  change (do let r ← timeLoop upper dt _ fuel 0 _; _) = _ at failed
  cases loop : timeLoop upper dt (fun t => Recorder.turn (due t) Orbit.mw_acc (step t)) fuel 0
      (⟨o, List.replicate size 0, 0⟩ : Recorder (Orbit R) (Vec3 R)) with
  | error e =>
      rw [loop] at failed
      cases failed
      exact timeLoop_ne_failed turn_goes _ _ _ loop
  | ok r =>
      rw [loop, ok_bind, writeAt] at failed
      split at failed
      · cases failed
      · cases failed

end

/-! ## The array for the run -/

section
variable {T : Type} [Preorder T] [DecidableLE T] [DecidableLT T] [DecidableEq T] [Zero T] [Add T]
  [Sub T] [Div T] [NatCast T] (clock : Clock T R)

def sampledAhead (dt : T) (n : ℕ) : Bool := clock.sampled dt n && ticks dt n != 0

/-- What the array for the run holds after the turns of both loops: the state that is handed
over, the samples before today from the first on, those after today and the end of the loop
forwards. -/
structure Shifts (ftime tstop dt : T) (n n' : ℕ) (o : Orbit R) (shift : List (Vec3 R)) :
    Prop where
  turns : Turns tstop dt n
  turns' : tstop < ftime → Turns (ftime - tstop) dt n'
  handed : c.backwardTurns L K clock dt n = some o
  length : shift.length = Nat.count (clock.sampled dt · = true) n + 2 +
    if tstop < ftime then Nat.count (sampledAhead clock dt · = true) n' else 0
  before : ∀ m ≤ n, clock.sampled dt m = true ∨ m = n →
    shift[Nat.count (clock.sampled dt · = true) n - Nat.count (clock.sampled dt · = true) m]? =
      (c.backwardTurns L K clock dt m).map Orbit.mw_acc
  after : tstop < ftime → ∀ m ≤ n', sampledAhead clock dt m = true ∨ m = n' →
    shift[Nat.count (clock.sampled dt · = true) n + 1 +
        Nat.count (sampledAhead clock dt · = true) m]? =
      (c.forwardTurns L K clock dt m).map Orbit.mw_acc
  spare : ¬tstop < ftime → shift[Nat.count (clock.sampled dt · = true) n + 1]? = some 0

variable {L K c} {clock} {ftime tstop dt : T} {fuel n n' : ℕ} {r f : Recorder (Orbit R) (Vec3 R)}
  {rep : ReverseOrbit R}

omit [IsStrictOrderedRing R] [DecidableLT T] [DecidableEq T] [Sub T] in
theorem sampleBack_ok (run : sampleBack L K c clock fuel tstop dt = .ok r) :
    ∃ n, Turns tstop dt n ∧ Sampled (clock.sampled dt) (c.backwardTurns L K clock dt) n
      ((clock.ceil (tstop / dt) + 1).natAbs + 1) r :=
  sampleOrbit_ok run

omit [IsStrictOrderedRing R] [DecidableLT T] in
theorem sampleAhead_ok (run : sampleAhead L K c clock fuel ftime tstop dt = .ok r) :
    ∃ n, Turns (ftime - tstop) dt n ∧
      Sampled (sampledAhead clock dt) (c.forwardTurns L K clock dt) n
        ((clock.ceil ((ftime - tstop) / dt) + 1).natAbs + 1) r :=
  sampleOrbit_ok run

omit [IsStrictOrderedRing R] in
theorem nbReverseOrbit_LMC_shifts (later : tstop < ftime)
    (ahead : sampleAhead L K c clock fuel ftime tstop dt = .ok f)
    (back : sampleBack L K c clock fuel tstop dt = .ok r) :
    ∃ n n' shift, nbReverseOrbit_LMC L K c clock fuel ftime tstop dt =
        .ok ⟨r.state.x, -r.state.v, r.state.LMCx, -r.state.LMCv, shift⟩ ∧
      Shifts L K c clock ftime tstop dt n n' r.state shift := by
  obtain ⟨n, turns, sampled⟩ := sampleBack_ok back
  obtain ⟨n', turns', sampled'⟩ := sampleAhead_ok ahead
  obtain ⟨half, shift, copy, copy', size, -, reversed, behind, -⟩ :=
    copies_ok (0 : Vec3 R) (i := r.count) (k := f.count) (A := r.array) (B := f.array)
      (by rw [sampled.length]; exact sampled.room) (by rw [sampled'.length]; exact sampled'.room)
  refine ⟨n, n', shift, ?_, turns, fun _ => turns', sampled.state, ?_, ?_, ?_, ?_⟩
  · simp only [nbReverseOrbit_LMC, if_pos later, ahead, back, ok_bind, pure_bind, copy, copy']
    rfl
  · rw [if_pos later, size, sampled.count, sampled'.count]
    omega
  · intro m le kept
    have before : Nat.count (clock.sampled dt · = true) m ≤ r.count := by
      rw [sampled.count]
      exact Nat.count_monotone _ le
    rw [← sampled.entries m le kept, ← sampled.count, reversed _ (Nat.sub_le _ _),
      Nat.sub_sub_self before]
  · intro _ m le kept
    have before : Nat.count (sampledAhead clock dt · = true) m ≤ f.count := by
      rw [sampled'.count]
      exact Nat.count_monotone _ le
    rw [← sampled'.entries m le kept, ← sampled.count, behind _ before]
  · exact fun ended => absurd later ended

omit [IsStrictOrderedRing R] in
theorem nbReverseOrbit_LMC_spare (ended : ¬tstop < ftime)
    (back : sampleBack L K c clock fuel tstop dt = .ok r) :
    ∃ n n' shift, nbReverseOrbit_LMC L K c clock fuel ftime tstop dt =
        .ok ⟨r.state.x, -r.state.v, r.state.LMCx, -r.state.LMCv, shift⟩ ∧
      Shifts L K c clock ftime tstop dt n n' r.state shift := by
  obtain ⟨n, turns, sampled⟩ := sampleBack_ok back
  obtain ⟨half, -, copy, -, -, reversed, -, -, size, spare⟩ :=
    copies_ok (0 : Vec3 R) (i := r.count) (k := 0) (A := r.array) (B := [0])
      (by rw [sampled.length]; exact sampled.room) Nat.one_pos
  refine ⟨n, 0, half, ?_, turns, fun later => absurd later ended, sampled.state, ?_, ?_, ?_, ?_⟩
  · simp only [nbReverseOrbit_LMC, if_neg ended, back, ok_bind, pure_bind, copy]
    rfl
  · rw [if_neg ended, size, sampled.count]
  · intro m le kept
    have before : Nat.count (clock.sampled dt · = true) m ≤ r.count := by
      rw [sampled.count]
      exact Nat.count_monotone _ le
    rw [← sampled.entries m le kept, ← sampled.count, reversed _ (Nat.sub_le _ _),
      Nat.sub_sub_self before]
  · exact fun later => absurd later ended
  · intro _
    rw [← sampled.count]
    exact spare

omit [IsStrictOrderedRing R] in
theorem nbReverseOrbit_LMC_ok (run : nbReverseOrbit_LMC L K c clock fuel ftime tstop dt = .ok rep) :
    ∃ n n' o, rep = ⟨o.x, -o.v, o.LMCx, -o.LMCv, rep.shiftByLMC⟩ ∧
      Shifts L K c clock ftime tstop dt n n' o rep.shiftByLMC := by
  by_cases later : tstop < ftime
  · cases ahead : sampleAhead L K c clock fuel ftime tstop dt with
    | error e =>
        simp only [nbReverseOrbit_LMC, if_pos later, ahead] at run
        cases run
    | ok f =>
        cases back : sampleBack L K c clock fuel tstop dt with
        | error e =>
            simp only [nbReverseOrbit_LMC, if_pos later, ahead, back] at run
            cases run
        | ok r =>
            obtain ⟨n, n', shift, run', shifts⟩ := nbReverseOrbit_LMC_shifts later ahead back
            rw [run] at run'
            cases run'
            exact ⟨n, n', r.state, rfl, shifts⟩
  · cases back : sampleBack L K c clock fuel tstop dt with
    | error e =>
        simp only [nbReverseOrbit_LMC, if_neg later, back] at run
        cases run
    | ok r =>
        obtain ⟨n, n', shift, run', shifts⟩ := nbReverseOrbit_LMC_spare later back
        rw [run] at run'
        cases run'
        exact ⟨n, n', r.state, rfl, shifts⟩

omit [IsStrictOrderedRing R] in
theorem nbReverseOrbit_LMC_cases (later : tstop < ftime)
    (ahead : sampleAhead L K c clock fuel ftime tstop dt = .error .failed ∨
      ∃ f, sampleAhead L K c clock fuel ftime tstop dt = .ok f)
    (back : sampleBack L K c clock fuel tstop dt = .error .failed ∨
      ∃ r, sampleBack L K c clock fuel tstop dt = .ok r) :
    nbReverseOrbit_LMC L K c clock fuel ftime tstop dt = .error .failed ∨
      ∃ rep, nbReverseOrbit_LMC L K c clock fuel ftime tstop dt = .ok rep := by
  rcases ahead with failed | ⟨f, ahead⟩
  · left
    rw [nbReverseOrbit_LMC, if_pos later]
    simp only [failed]
    rfl
  · rcases back with failed | ⟨r, back⟩
    · left
      rw [nbReverseOrbit_LMC, if_pos later]
      simp only [ahead, failed]
      rfl
    · obtain ⟨-, -, shift, run, -⟩ := nbReverseOrbit_LMC_shifts later ahead back
      exact .inr ⟨_, run⟩

end

end

end MilkyWay.NBody
