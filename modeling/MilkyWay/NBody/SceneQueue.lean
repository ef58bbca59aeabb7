import MilkyWay.NBody.State
import MilkyWay.Foundation.Ring

/-! The scene that a simulation shares with the graphics process, for one graphics process
at a time. The simulation pushes snapshots to a circular queue and the graphics pops them,
each one load, store or word of a snapshot at a time; the values that time, the other
settings of the graphics and the operating system supply are free. `World.ring` is what the
two see of each other as the ring of the library. -/

namespace MilkyWay.NBody.SceneQueue

open Foundation

def NBODY_CIRC_QUEUE_SIZE : ℕ := 3

def NBODY_QUEUE_WAIT_PERIODS : ℕ := 7

/-! ## The scene -/

inductive SceneInfo where
  | currentStep
  | currentTime
  | timeEvolve
  | rootCenterOfMass (i : Fin 3)
deriving DecidableEq

inductive FloatPos where
  | x
  | y
  | z
  | ignore
deriving DecidableEq

/-- The words of a snapshot. -/
inductive Word (nbody : ℕ) where
  | info (field : SceneInfo)
  | body (i : Fin nbody) (field : FloatPos)
deriving DecidableEq

structure Scene (V : Type) where
  head : ℕ
  tail : ℕ
  info : ℕ → SceneInfo → V
  sceneData : ℕ → FloatPos → V

structure Settings where
  attachedPID : ℤ
  attachedLock : ℤ
  paused : ℤ
  blockSimulationOnGraphics : ℤ
  updatePeriod : ℤ
  lastUpdateTime : ℤ

variable {R V : Type} {nbody nSteps : ℕ}

def nbSceneGetQueueBuffer (nbody nSteps buffer : ℕ) : ℕ := nSteps + buffer * nbody

def nbSceneGetOrbitTrace : ℕ := 0

def Scene.readWord (nSteps : ℕ) (scene : Scene V) (buffer : ℕ) : Word nbody → V
  | .info field => scene.info buffer field
  | .body i field => scene.sceneData (nbSceneGetQueueBuffer nbody nSteps buffer + i) field

def Scene.writeWord (nSteps : ℕ) (scene : Scene V) (buffer : ℕ) (v : V) : Word nbody → Scene V
  | .info field => { scene with
      info := Function.update scene.info buffer
        (Function.update (scene.info buffer) field v) }
  | .body i field =>
      let a := nbSceneGetQueueBuffer nbody nSteps buffer + i
      { scene with
        sceneData := Function.update scene.sceneData a
          (Function.update (scene.sceneData a) field v) }

/-- What the simulation shows: the part of its state and context that a push reads. A run
makes no more steps than it has asked for. -/
structure Shown (R : Type) (nbody nSteps : ℕ) where
  step : ℕ
  step_le : step ≤ nSteps
  timestep : R
  timeEvolve : R
  cmPos : Vec3 R
  bodytab : Fin nbody → Body R
  orbitTrace : ℕ → Vec3 R

def shown (ctx : NBodyCtx R) (st : NBodyState R) (cmPos : Vec3 R) (le : st.step ≤ ctx.nStep)
    (orbitTrace : ℕ → Vec3 R) : Shown R st.bodytab.length ctx.nStep where
  step := st.step
  step_le := le
  timestep := ctx.timestep
  timeEvolve := ctx.timeEvolve
  cmPos := cmPos
  bodytab := st.bodytab.get
  orbitTrace := Function.update orbitTrace st.step cmPos

/-- The conversions to the words of the scene. -/
structure Casts (R V : Type) where
  ofStep : ℕ → V
  float : R → V
  ofFlag : Bool → V

variable [NatCast R] [Mul R]

/-- The snapshot that `nbWriteSnapshot` writes. -/
def snapshot (C : Casts R V) (x : Shown R nbody nSteps) : Word nbody → V
  | .info .currentStep => C.ofStep x.step
  | .info .currentTime => C.float (x.step * x.timestep)
  | .info .timeEvolve => C.float x.timeEvolve
  | .info (.rootCenterOfMass i) => C.float (![x.cmPos.x, x.cmPos.y, x.cmPos.z] i)
  | .body i .x => C.float (x.bodytab i).pos.x
  | .body i .y => C.float (x.bodytab i).pos.y
  | .body i .z => C.float (x.bodytab i).pos.z
  | .body i .ignore => C.ofFlag ((x.bodytab i).type < 0)

/-- Entry `i` of the orbit trace is copied to the scene. -/
def nbUpdateDisplayedOrbitTrace (C : Casts R V) (x : Shown R nbody nSteps) (i : ℕ)
    (scene : Scene V) : Scene V :=
  let a := nbSceneGetOrbitTrace + i
  let p := x.orbitTrace i
  { scene with sceneData := Function.update scene.sceneData a fun
      | .x => C.float p.x
      | .y => C.float p.y
      | .z => C.float p.z
      | .ignore => scene.sceneData a .ignore }

/-! ## The caller of the queue -/

inductive DisplayStatus where
  | success
  | error
  | graphicsTimeout
  | graphicsDead

/-- Where `nbPushCircularQueue` returns to. -/
inductive Push where
  | forced
  | always
  | periodic (now : ℤ)
  | blocking (attempt : ℕ)

/-- Where the simulation is in `nbUpdateDisplayedBodies` or
`nbForceUpdateDisplayedBodies`. -/
inductive Caller where
  | done (rc : DisplayStatus)
  | loadAttachedPID
  | loadBlock
  | loadUpdatePeriod
  | loadLastUpdateTime (updatePeriod : ℤ)
  | push (k : Push)
  | pushed (k : Push) (updated : Bool)
  | stillAttached (attempt : ℕ)
  | waited (pid : ℤ)
  | release (lock : Fin 4)
  | loadPaused

structure Answers where
  now : ℤ
  alive : Bool
  timedOut : Bool

/-- The store to the lock that is next in `nbReleaseSceneLocks`. -/
def nbReleaseSceneLock (set : Settings) : Fin 4 → Settings
  | 0 => { set with paused := 0 }
  | 1 => { set with blockSimulationOnGraphics := 0 }
  | 2 => { set with attachedLock := 0 }
  | 3 => { set with attachedPID := 0 }

/-- The next thing the caller does, outside of the queue. -/
def Caller.step (set : Settings) (a : Answers) : Caller → Settings × Caller
  | .done rc => (set, .done rc)
  | .loadAttachedPID =>
      (set, if set.attachedPID = 0 then .done .success else .loadBlock)
  | .loadBlock =>
      (set, if set.blockSimulationOnGraphics ≠ 0 then .push (.blocking 0) else .loadUpdatePeriod)
  | .loadUpdatePeriod =>
      (set, if set.updatePeriod ≠ 0 then .loadLastUpdateTime set.updatePeriod else .push .always)
  | .loadLastUpdateTime updatePeriod =>
      (set, if a.now - set.lastUpdateTime ≥ updatePeriod then .push (.periodic a.now)
        else .done .success)
  | .push k => (set, .push k)
  | .pushed .forced updated => (set, .done (if updated then .success else .error))
  | .pushed .always _ => (set, .done .success)
  | .pushed (.periodic now) updated =>
      (if updated then { set with lastUpdateTime := now } else set, .done .success)
  | .pushed (.blocking attempt) updated =>
      if updated then ({ set with lastUpdateTime := a.now }, .done .success)
      else (set, .stillAttached attempt)
  | .stillAttached attempt =>
      (set, if set.attachedPID ≠ 0 ∧ attempt < NBODY_QUEUE_WAIT_PERIODS then
        .push (.blocking (attempt + 1)) else .waited set.attachedPID)
  | .waited pid =>
      (set, if pid = 0 then .done .graphicsDead
        else if a.alive then .loadPaused else .release 0)
  | .release lock => (nbReleaseSceneLock set lock,
      if lock = 3 then .done .graphicsDead else .release (lock + 1))
  | .loadPaused =>
      (set, if set.paused ≠ 0 ∨ !a.timedOut then .push (.blocking 0) else .done .graphicsTimeout)

/-! ## Both processes -/

/-- Where the simulation is in `nbPushCircularQueue`. The words of a snapshot are written
in any order, as the loop over the bodies is parallel. -/
inductive Pusher (nbody : ℕ) where
  | idle
  | loadHead (tail : ℕ)
  | nbWriteSnapshot (tail : ℕ) (left : Set (Word nbody))
  | orbitTrace (tail i : ℕ)

/-- The scene, the simulation and the graphics. What was accepted by the queue and what the
graphics has received is kept beside them. -/
structure World (R V : Type) (nbody nSteps : ℕ) where
  scene : Scene V
  settings : Settings
  shown : Shown R nbody nSteps
  caller : Caller
  pusher : Pusher nbody
  graphics : Ring.Consumer (Word nbody) V
  accepted : List (Word nbody → V)
  received : List (Word nbody → V)

/-- One step of the simulation. -/
inductive SimulationStep (C : Casts R V) : World R V nbody nSteps → World R V nbody nSteps → Prop
  | nbUpdateDisplayedBodies (w) (rc : DisplayStatus) (x : Shown R nbody nSteps)
      (pc : w.caller = .done rc) (idle : w.pusher = .idle) :
      SimulationStep C w { w with shown := x, caller := .loadAttachedPID }
  | nbForceUpdateDisplayedBodies (w) (rc : DisplayStatus) (x : Shown R nbody nSteps)
      (pc : w.caller = .done rc) (idle : w.pusher = .idle) :
      SimulationStep C w { w with shown := x, caller := .push .forced }
  | caller (w) (a : Answers) (idle : w.pusher = .idle) :
      SimulationStep C w { w with
        settings := (w.caller.step w.settings a).1
        caller := (w.caller.step w.settings a).2 }
  | loadTail (w) (k : Push) (pc : w.caller = .push k) (idle : w.pusher = .idle) :
      SimulationStep C w { w with pusher := .loadHead w.scene.tail }
  | full (w) (k : Push) (t : ℕ) (pc : w.caller = .push k) (pc' : w.pusher = .loadHead t)
      (full : (t + 1) % NBODY_CIRC_QUEUE_SIZE = w.scene.head) :
      SimulationStep C w { w with caller := .pushed k false, pusher := .idle }
  | room (w) (t : ℕ) (pc : w.pusher = .loadHead t)
      (room : (t + 1) % NBODY_CIRC_QUEUE_SIZE ≠ w.scene.head) :
      SimulationStep C w { w with pusher := .nbWriteSnapshot t Set.univ }
  | nbWriteSnapshot (w) (t : ℕ) (left : Set (Word nbody)) (word : Word nbody)
      (pc : w.pusher = .nbWriteSnapshot t left) :
      SimulationStep C w { w with
        scene := w.scene.writeWord nSteps t (snapshot C w.shown word) word
        pusher := .nbWriteSnapshot t (left \ {word}) }
  | written (w) (t : ℕ) (pc : w.pusher = .nbWriteSnapshot t ∅) :
      SimulationStep C w { w with pusher := .orbitTrace t 0 }
  | orbitTrace (w) (t i : ℕ) (pc : w.pusher = .orbitTrace t i) (lt : i < w.shown.step) :
      SimulationStep C w { w with
        scene := nbUpdateDisplayedOrbitTrace C w.shown i w.scene
        pusher := .orbitTrace t (i + 1) }
  | storeTail (w) (k : Push) (t i : ℕ) (pc : w.caller = .push k)
      (pc' : w.pusher = .orbitTrace t i) (last : i = w.shown.step) :
      SimulationStep C w { w with
        scene := { w.scene with tail := (t + 1) % NBODY_CIRC_QUEUE_SIZE }
        caller := .pushed k true
        pusher := .idle
        accepted := w.accepted ++ [snapshot C w.shown] }

/-- One step of the graphics, which may be left at any point of a pop for another one. -/
inductive GraphicsStep : World R V nbody nSteps → World R V nbody nSteps → Prop
  | settings (w) (settings : Settings) : GraphicsStep w { w with settings }
  | popHead (w) (idle : w.graphics = .idle) :
      GraphicsStep w { w with graphics := .headRead w.scene.head }
  | popEmpty (w) (h : ℕ) (pc : w.graphics = .headRead h) (empty : h = w.scene.tail) :
      GraphicsStep w { w with graphics := .idle }
  | popFound (w) (h : ℕ) (pc : w.graphics = .headRead h) (found : h ≠ w.scene.tail) :
      GraphicsStep w { w with graphics := .reading h fun _ => none }
  | popWord (w) (h : ℕ) (got : Word nbody → Option V) (word : Word nbody)
      (pc : w.graphics = .reading h got) :
      GraphicsStep w { w with
        graphics := .reading h
          (Function.update got word (some (w.scene.readWord nSteps h word))) }
  | storeHead (w) (h : ℕ) (x : Word nbody → V)
      (pc : w.graphics = .reading h fun word => some (x word)) :
      GraphicsStep w { w with
        scene := { w.scene with head := (h + 1) % NBODY_CIRC_QUEUE_SIZE }
        graphics := .idle
        received := w.received ++ [x] }
  | detach (w) : GraphicsStep w { w with graphics := .idle }

def Step (C : Casts R V) (w w' : World R V nbody nSteps) : Prop :=
  SimulationStep C w w' ∨ GraphicsStep w w'

structure Created (w : World R V nbody nSteps) : Prop where
  head : w.scene.head = 0
  tail : w.scene.tail = 0
  caller : ∃ rc, w.caller = .done rc
  pusher : w.pusher = .idle
  graphics : w.graphics = .idle
  accepted : w.accepted = []
  received : w.received = []

/-- Every interleaving of the two from a created scene. -/
def Reachable (C : Casts R V) (w : World R V nbody nSteps) : Prop :=
  ∃ w₀, Created w₀ ∧ Relation.ReflTransGen (Step C) w₀ w

/-! ## The scene as a ring -/

def Pusher.producer (C : Casts R V) (x : Shown R nbody nSteps) :
    Pusher nbody → Ring.Producer (Word nbody) V
  | .idle => .idle
  | .loadHead t => .tailRead (snapshot C x) t
  | .nbWriteSnapshot t left => .writing (snapshot C x) t left
  | .orbitTrace t _ => .writing (snapshot C x) t ∅

def World.ring (C : Casts R V) (w : World R V nbody nSteps) : Ring.State (Word nbody) V where
  head := w.scene.head
  tail := w.scene.tail
  slot := w.scene.readWord nSteps
  producer := w.pusher.producer C w.shown
  consumer := w.graphics
  accepted := w.accepted
  delivered := w.received

omit [NatCast R] [Mul R] in
theorem queueBuffer_injective {b b' : ℕ} {i i' : Fin nbody}
    (same : nbSceneGetQueueBuffer nbody nSteps b + i = nbSceneGetQueueBuffer nbody nSteps b' + i') :
    b = b' ∧ i = i' := by
  have flat : i + nbody * b = i' + nbody * b' := by
    rw [nbSceneGetQueueBuffer, nbSceneGetQueueBuffer, Nat.mul_comm b, Nat.mul_comm b'] at same
    omega
  have pos : 0 < nbody := i.pos
  have slot : b = b' := by
    have := congrArg (· / nbody) flat
    simpa [Nat.add_mul_div_left _ _ pos, Nat.div_eq_of_lt i.isLt, Nat.div_eq_of_lt i'.isLt] using
      this
  subst slot
  exact ⟨rfl, Fin.ext (Nat.add_right_cancel flat)⟩

omit [NatCast R] [Mul R] in
theorem readWord_writeWord (scene : Scene V) (b : ℕ) (v : V) (word : Word nbody) :
    (scene.writeWord nSteps b v word).readWord nSteps =
      Function.update (scene.readWord nSteps) b
        (Function.update (scene.readWord nSteps b) word v) := by
  funext b' word'
  by_cases hb : b' = b
  · subst hb
    rw [Function.update_self]
    cases word with
    | info field =>
        cases word' with
        | info field' => simp [Scene.writeWord, Scene.readWord, Function.update_apply]
        | body i' field' => simp [Scene.writeWord, Scene.readWord]
    | body i field =>
        cases word' with
        | info field' => simp [Scene.writeWord, Scene.readWord]
        | body i' field' =>
            by_cases hi : i' = i
            · subst hi
              simp [Scene.writeWord, Scene.readWord, Function.update_apply]
            · have apart : nbSceneGetQueueBuffer nbody nSteps b' + i' ≠
                  nbSceneGetQueueBuffer nbody nSteps b' + i :=
                fun same => hi (queueBuffer_injective same).2
              simp [Scene.writeWord, Scene.readWord, Function.update_of_ne apart, hi]
  · rw [Function.update_of_ne hb]
    cases word with
    | info field =>
        cases word' with
        | info field' => simp [Scene.writeWord, Scene.readWord, Function.update_of_ne hb]
        | body i' field' => rfl
    | body i field =>
        cases word' with
        | info field' => rfl
        | body i' field' =>
            have apart : nbSceneGetQueueBuffer nbody nSteps b' + i' ≠
                nbSceneGetQueueBuffer nbody nSteps b + i :=
              fun same => hb (queueBuffer_injective same).1
            simp [Scene.writeWord, Scene.readWord, Function.update_of_ne apart]

omit [NatCast R] [Mul R] in
theorem readWord_orbitTrace (C : Casts R V) (x : Shown R nbody nSteps) {i : ℕ} (lt : i < x.step)
    (scene : Scene V) (b : ℕ) (word : Word nbody) :
    (nbUpdateDisplayedOrbitTrace C x i scene).readWord nSteps b word =
      scene.readWord nSteps b word := by
  cases word with
  | info field => rfl
  | body j field =>
      have apart : nbSceneGetQueueBuffer nbody nSteps b + j ≠ nbSceneGetOrbitTrace + i := by
        have le := x.step_le
        simp only [nbSceneGetQueueBuffer, nbSceneGetOrbitTrace]
        omega
      simp [nbUpdateDisplayedOrbitTrace, Scene.readWord, Function.update_of_ne apart]

omit [NatCast R] [Mul R] in
@[simp] theorem writeWord_head (scene : Scene V) (b : ℕ) (v : V) (word : Word nbody) :
    (scene.writeWord nSteps b v word).head = scene.head := by cases word <;> rfl

omit [NatCast R] [Mul R] in
@[simp] theorem writeWord_tail (scene : Scene V) (b : ℕ) (v : V) (word : Word nbody) :
    (scene.writeWord nSteps b v word).tail = scene.tail := by cases word <;> rfl

theorem SimulationStep.ring {C : Casts R V} {w w' : World R V nbody nSteps}
    (step : SimulationStep C w w') :
    w'.ring C = w.ring C ∨ Ring.Step NBODY_CIRC_QUEUE_SIZE (w.ring C) (w'.ring C) := by
  cases step with
  | nbUpdateDisplayedBodies rc x pc idle => exact .inl (by simp [World.ring, idle, Pusher.producer])
  | nbForceUpdateDisplayedBodies rc x pc idle =>
      exact .inl (by simp [World.ring, idle, Pusher.producer])
  | caller a idle => exact .inl rfl
  | loadTail k pc idle =>
      exact .inr (.push (w.ring C) (snapshot C w.shown)
        (by simp [World.ring, idle, Pusher.producer]))
  | full k t pc pc' full =>
      exact .inr (.full (w.ring C) (snapshot C w.shown) t
        (by simp [World.ring, pc', Pusher.producer]) full)
  | room t pc room =>
      exact .inr (.begin (w.ring C) (snapshot C w.shown) t
        (by simp [World.ring, pc, Pusher.producer]) room)
  | nbWriteSnapshot t left word pc =>
      have written := Ring.Step.write (N := NBODY_CIRC_QUEUE_SIZE) (w.ring C) (snapshot C w.shown)
        t left word (by simp [World.ring, pc, Pusher.producer])
      simp only [World.ring, readWord_writeWord, writeWord_head, writeWord_tail] at written ⊢
      exact .inr written
  | written t pc => exact .inl (by simp [World.ring, pc, Pusher.producer])
  | orbitTrace t i pc lt =>
      have slot : ((nbUpdateDisplayedOrbitTrace C w.shown i w.scene).readWord nSteps :
          ℕ → Word nbody → V) = w.scene.readWord nSteps :=
        funext fun b => funext fun word => readWord_orbitTrace C w.shown lt w.scene b word
      simp only [World.ring, pc, Pusher.producer, slot]
      exact .inl rfl
  | storeTail k t i pc pc' last =>
      exact .inr (.publish (w.ring C) (snapshot C w.shown) t
        (by simp [World.ring, pc', Pusher.producer]))

theorem GraphicsStep.ring (C : Casts R V) {w w' : World R V nbody nSteps}
    (step : GraphicsStep w w') :
    w'.ring C = w.ring C ∨ Ring.Step NBODY_CIRC_QUEUE_SIZE (w.ring C) (w'.ring C) := by
  cases step with
  | settings settings => exact .inl rfl
  | popHead idle => exact .inr (.pop (w.ring C) idle)
  | popEmpty h pc empty => exact .inr (.empty (w.ring C) h pc empty)
  | popFound h pc found => exact .inr (.found (w.ring C) h pc found)
  | popWord h got word pc => exact .inr (.read (w.ring C) h got word pc)
  | storeHead h x pc => exact .inr (.advance (w.ring C) h x pc)
  | detach => exact .inr (.leave (w.ring C))

theorem Step.inv {C : Casts R V} {w w' : World R V nbody nSteps} (step : Step C w w')
    (inv : Ring.Inv NBODY_CIRC_QUEUE_SIZE (w.ring C)) :
    Ring.Inv NBODY_CIRC_QUEUE_SIZE (w'.ring C) := by
  rcases step.elim SimulationStep.ring (GraphicsStep.ring C) with same | step
  · rw [same]
    exact inv
  · exact inv.step step

theorem Created.inv {C : Casts R V} {w : World R V nbody nSteps} (h : Created w) :
    Ring.Inv NBODY_CIRC_QUEUE_SIZE (w.ring C) := by
  have idle : (w.ring C).producer = .idle := by simp [World.ring, h.pusher, Pusher.producer]
  have idle' : (w.ring C).consumer = .idle := h.graphics
  have span : Ring.held NBODY_CIRC_QUEUE_SIZE (w.ring C) = [] := by
    simp only [Ring.held, World.ring, h.head, h.tail]
    rw [Ring.span_self (by decide)]
    rfl
  refine ⟨?_, ?_, ?_, ?_, ?_⟩
  · show w.scene.head < _
    rw [h.head]
    decide
  · show w.scene.tail < _
    rw [h.tail]
    decide
  · rw [idle]
    trivial
  · rw [idle']
    trivial
  · rw [span, List.append_nil]
    exact h.accepted.trans h.received.symm

theorem Reachable.inv {C : Casts R V} {w : World R V nbody nSteps} (h : Reachable C w) :
    Ring.Inv NBODY_CIRC_QUEUE_SIZE (w.ring C) := by
  obtain ⟨w₀, created, run⟩ := h
  induction run with
  | refl => exact created.inv
  | tail _ step ih => exact step.inv ih

/-! ## Emptying the queue -/

def words (nbody : ℕ) : List (Word nbody) :=
  [.info .currentStep, .info .currentTime, .info .timeEvolve] ++
    (List.finRange 3).map (fun i => .info (.rootCenterOfMass i)) ++
    (List.finRange nbody).flatMap fun i => [.body i .x, .body i .y, .body i .z, .body i .ignore]

theorem mem_words (word : Word nbody) : word ∈ words nbody := by
  cases word with
  | info field => cases field <;> simp [words]
  | body i field => cases field <;> simp [words]

def GraphicsRun : World R V nbody nSteps → World R V nbody nSteps → Prop :=
  Relation.ReflTransGen GraphicsStep

/-- What has been read of slot `h` once the words of `l` have been read. -/
def readWords (scene : Scene V) (nSteps h : ℕ) (got : Word nbody → Option V)
    (l : List (Word nbody)) (word : Word nbody) : Option V :=
  if word ∈ l then some (scene.readWord nSteps h word) else got word

omit [NatCast R] [Mul R] in
theorem read_words (l : List (Word nbody)) {w : World R V nbody nSteps} {h : ℕ}
    {got : Word nbody → Option V} (pc : w.graphics = .reading h got) :
    GraphicsRun w { w with graphics := .reading h (readWords w.scene nSteps h got l) } := by
  induction l with
  | nil =>
      have same : readWords w.scene nSteps h got [] = got := by
        funext word
        simp [readWords]
      rw [same, ← pc]
      exact .refl
  | cons word l ih =>
      have same : readWords w.scene nSteps h got (word :: l) =
          Function.update (readWords w.scene nSteps h got l) word
            (some (w.scene.readWord nSteps h word)) := by
        funext word'
        by_cases here : word' = word
        · subst here
          simp [readWords]
        · simp [readWords, here]
      rw [same]
      exact ih.tail (.popWord { w with
        graphics := .reading h (readWords w.scene nSteps h got l) } h _ word rfl)

def afterPop (w : World R V nbody nSteps) (h : ℕ) : World R V nbody nSteps := { w with
  scene := { w.scene with head := (h + 1) % NBODY_CIRC_QUEUE_SIZE }
  graphics := .idle
  received := w.received ++ [w.scene.readWord nSteps h] }

omit [NatCast R] [Mul R] in
theorem finish_pop {w : World R V nbody nSteps} {h : ℕ} {got : Word nbody → Option V}
    (pc : w.graphics = .reading h got) : GraphicsRun w (afterPop w h) := by
  refine (read_words (words nbody) pc).tail ?_
  have all : readWords w.scene nSteps h got (words nbody) =
      fun word => some (w.scene.readWord nSteps h word) := by
    funext word
    rw [readWords, if_pos (mem_words word)]
  rw [all]
  exact .storeHead { w with graphics := .reading h _ } h (w.scene.readWord nSteps h) rfl

omit [NatCast R] [Mul R] in
theorem pop_found {w : World R V nbody nSteps} (idle : w.graphics = .idle)
    (found : w.scene.head ≠ w.scene.tail) : GraphicsRun w (afterPop w w.scene.head) := by
  have first := GraphicsStep.popHead w idle
  have second := GraphicsStep.popFound { w with graphics := .headRead w.scene.head } w.scene.head
    rfl found
  exact .head first (.head second (finish_pop (w := { w with
    graphics := .reading w.scene.head fun _ => none }) rfl))

theorem GraphicsRun.inv {C : Casts R V} {w w' : World R V nbody nSteps} (run : GraphicsRun w w')
    (inv : Ring.Inv NBODY_CIRC_QUEUE_SIZE (w.ring C)) :
    Ring.Inv NBODY_CIRC_QUEUE_SIZE (w'.ring C) := by
  induction run with
  | refl => exact inv
  | tail _ step ih => exact Step.inv (.inr step) ih

theorem drain {C : Casts R V} (n : ℕ) {w : World R V nbody nSteps}
    (inv : Ring.Inv NBODY_CIRC_QUEUE_SIZE (w.ring C)) (idle : w.graphics = .idle)
    (pending : (Ring.span NBODY_CIRC_QUEUE_SIZE w.scene.head w.scene.tail).length = n) :
    ∃ w', GraphicsRun w w' ∧ w'.accepted = w.accepted ∧ w'.received = w.accepted := by
  have head_lt : w.scene.head < NBODY_CIRC_QUEUE_SIZE := inv.head_lt
  have tail_lt : w.scene.tail < NBODY_CIRC_QUEUE_SIZE := inv.tail_lt
  induction n generalizing w with
  | zero =>
      have fifo : w.accepted = w.received ++
        (Ring.span NBODY_CIRC_QUEUE_SIZE w.scene.head w.scene.tail).map _ := inv.fifo
      rw [List.eq_nil_of_length_eq_zero pending, List.map_nil, List.append_nil] at fifo
      exact ⟨w, .refl, rfl, fifo.symm⟩
  | succ n ih =>
      have found : w.scene.head ≠ w.scene.tail := by
        intro same
        rw [same, Ring.span_self tail_lt] at pending
        cases pending
      have run := pop_found idle found
      rw [Ring.span_pop head_lt tail_lt found] at pending
      obtain ⟨w', rest, accepted, received⟩ := ih (run.inv inv) rfl (Nat.succ.inj pending)
        (Ring.next_lt head_lt _) tail_lt
      exact ⟨w', run.trans rest, accepted, received⟩

omit [NatCast R] [Mul R] in
theorem end_pop (w : World R V nbody nSteps) :
    ∃ w', GraphicsRun w w' ∧ w'.graphics = .idle ∧ w'.accepted = w.accepted := by
  cases pc : w.graphics with
  | idle => exact ⟨w, .refl, pc, rfl⟩
  | headRead h =>
      by_cases empty : h = w.scene.tail
      · exact ⟨_, .single (.popEmpty w h pc empty), rfl, rfl⟩
      · exact ⟨_, .head (.popFound w h pc empty) (finish_pop (w := { w with
          graphics := .reading h fun _ => none }) rfl), rfl, rfl⟩
  | reading h got => exact ⟨_, finish_pop pc, rfl, rfl⟩

theorem SimulationStep.keeps {C : Casts R V} {w w' : World R V nbody nSteps} {h : ℕ}
    {got : Word nbody → Option V} (step : SimulationStep C w w')
    (inv : Ring.Inv NBODY_CIRC_QUEUE_SIZE (w.ring C)) (reads : w.graphics = .reading h got) :
    (w'.scene.readWord nSteps h : Word nbody → V) = w.scene.readWord nSteps h := by
  cases step with
  | nbWriteSnapshot t left word pc =>
      have writes : (w.ring C).producer = .writing (snapshot C w.shown) t left := by
        simp [World.ring, pc, Pusher.producer]
      have apart : t ≠ h := inv.apart writes reads
      rw [readWord_writeWord, Function.update_of_ne apart.symm]
  | orbitTrace t i pc lt => exact funext fun word => readWord_orbitTrace C w.shown lt w.scene h word
  | _ => rfl

/-- In every interleaving the graphics has received the accepted snapshots in order, each
once, and those it has not received stand in the queue, from where it can pop them; the
slot it reads is not the one that is written, and no step of the simulation changes it. -/
theorem nbPushCircularQueue_safe (C : Casts R V) (w : World R V nbody nSteps)
    (reach : Reachable C w) :
    w.accepted = w.received ++ (Ring.span NBODY_CIRC_QUEUE_SIZE w.scene.head w.scene.tail).map
        (w.scene.readWord nSteps) ∧
      (∃ w', GraphicsRun w w' ∧ w'.accepted = w.accepted ∧ w'.received = w.accepted) ∧
      (∀ t h left got, w.pusher = .nbWriteSnapshot t left → w.graphics = .reading h got → t ≠ h) ∧
      ∀ w' h got, SimulationStep C w w' → w.graphics = .reading h got →
        (w'.scene.readWord nSteps h : Word nbody → V) = w.scene.readWord nSteps h := by
  have inv := reach.inv
  refine ⟨inv.fifo, ?_, ?_, ?_⟩
  · obtain ⟨w₁, run, idle, accepted⟩ := end_pop w
    obtain ⟨w₂, rest, accepted₂, received⟩ := drain _ (run.inv inv) idle rfl
    exact ⟨w₂, run.trans rest, accepted₂.trans accepted, received.trans accepted⟩
  · intro t h left got pc reads
    have writes : (w.ring C).producer = .writing (snapshot C w.shown) t left := by
      simp [World.ring, pc, Pusher.producer]
    exact inv.apart writes reads
  · exact fun w' h got step reads => step.keeps inv reads

/-! ## An instance over the rational numbers -/

def ratCasts : Casts ℚ ℚ := ⟨fun n => n, id, fun b => if b then 1 else 0⟩

def oneBody : Shown ℚ 1 2 :=
  ⟨1, by decide, 1, 2, ⟨1, 0, 0⟩, fun _ => { pos := ⟨1, 0, 0⟩, mass := 1, vel := 0 }, fun _ => 0⟩

def created : World ℚ ℚ 1 2 where
  scene := ⟨0, 0, fun _ _ => 0, fun _ _ => 0⟩
  settings := ⟨0, 0, 0, 0, 0, 0⟩
  shown := oneBody
  caller := .done .success
  pusher := .idle
  graphics := .idle
  accepted := []
  received := []

def writeSnapshot (C : Casts R V) (x : Shown R nbody nSteps) (t : ℕ) (scene : Scene V)
    (l : List (Word nbody)) : Scene V :=
  l.foldl (fun scene word => scene.writeWord nSteps t (snapshot C x word) word) scene

theorem write_words {C : Casts R V} (l : List (Word nbody)) {w : World R V nbody nSteps} {t : ℕ}
    {left : Set (Word nbody)} (pc : w.pusher = .nbWriteSnapshot t left) :
    Relation.ReflTransGen (Step C) w { w with
      scene := writeSnapshot C w.shown t w.scene l
      pusher := .nbWriteSnapshot t (left \ {word | word ∈ l}) } := by
  induction l generalizing w left with
  | nil =>
      have same : left \ {word | word ∈ ([] : List (Word nbody))} = left := by simp
      rw [same, ← pc]
      exact .refl
  | cons word l ih =>
      have same : (left \ {word}) \ {x | x ∈ l} = left \ {x | x ∈ word :: l} := by
        ext x
        simp [not_or, and_assoc]
      refine .head (.inl (.nbWriteSnapshot w t left word pc)) ?_
      rw [← same]
      exact ih rfl

def pushed : World ℚ ℚ 1 2 := { created with
  scene := { nbUpdateDisplayedOrbitTrace ratCasts oneBody 0
    (writeSnapshot ratCasts oneBody 0 created.scene (words 1)) with tail := 1 }
  accepted := [snapshot ratCasts oneBody] }

def begun : Scene ℚ :=
  pushed.scene.writeWord 2 1 (snapshot ratCasts oneBody (.info .currentStep))
    (.info .currentStep : Word 1)

/-- The graphics has read a word of the first snapshot while the next one is being written. -/
def writing : World ℚ ℚ 1 2 := { pushed with
  caller := .push .forced
  scene := begun
  pusher := .nbWriteSnapshot 1 (Set.univ \ {.info .currentStep})
  graphics := .reading 0 (Function.update (fun _ => none) (.info .timeEvolve)
    (some (begun.readWord 2 0 (.info .timeEvolve : Word 1)))) }

theorem created_pushed : Relation.ReflTransGen (Step ratCasts) created pushed := by
  refine .head (.inl (.nbForceUpdateDisplayedBodies _ .success oneBody rfl rfl)) ?_
  refine .head (.inl (.loadTail _ .forced rfl rfl)) ?_
  refine .head (.inl (.room _ 0 rfl (by decide))) ?_
  refine (write_words (words 1) rfl).trans ?_
  have none_left : Set.univ \ {word | word ∈ words 1} = ∅ := by
    ext word
    simp [mem_words]
  rw [none_left]
  refine .head (.inl (.written _ 0 rfl)) ?_
  refine .head (.inl (.orbitTrace _ 0 0 rfl (by decide))) ?_
  refine .head (.inl (.storeTail _ .forced 0 1 rfl rfl rfl)) ?_
  exact .single (.inl (.caller _ ⟨0, true, true⟩ rfl))

theorem created_writing : Reachable ratCasts writing := by
  refine ⟨created, ⟨rfl, rfl, ⟨_, rfl⟩, rfl, rfl, rfl, rfl⟩, created_pushed.trans ?_⟩
  refine .head (.inl (.nbForceUpdateDisplayedBodies _ .success oneBody rfl rfl)) ?_
  refine .head (.inl (.loadTail _ .forced rfl rfl)) ?_
  refine .head (.inr (.popHead _ rfl)) ?_
  refine .head (.inl (.room _ 1 rfl (by decide))) ?_
  refine .head (.inr (.popFound _ 0 rfl (by decide))) ?_
  refine .head (.inl (.nbWriteSnapshot _ 1 Set.univ (.info .currentStep) rfl)) ?_
  exact .single (.inr (.popWord _ 0 _ (.info .timeEvolve) rfl))

theorem nbPushCircularQueue_safe_writing :
    writing.accepted = writing.received ++
        (Ring.span NBODY_CIRC_QUEUE_SIZE writing.scene.head writing.scene.tail).map
          (writing.scene.readWord 2) ∧
      (∃ w', GraphicsRun writing w' ∧ w'.accepted = writing.accepted ∧
        w'.received = writing.accepted) ∧
      (∀ t h left got, writing.pusher = .nbWriteSnapshot t left →
        writing.graphics = .reading h got → t ≠ h) ∧
      ∀ w' h got, SimulationStep ratCasts writing w' → writing.graphics = .reading h got →
        (w'.scene.readWord 2 h : Word 1 → ℚ) = writing.scene.readWord 2 h :=
  nbPushCircularQueue_safe ratCasts writing created_writing

end MilkyWay.NBody.SceneQueue
