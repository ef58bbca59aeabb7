import MilkyWay.NBody.Checkpoint

/-! Reading any file as a checkpoint: what is read before it is checked, and when a file that
is refused leaves the state and the context alone. -/

namespace MilkyWay.NBody

open Foundation

variable {R : Type}

structure ReadResult (R : Type) where
  failed : Bool
  ctx : NBodyCtx R
  st : NBodyState R

/-- Read the actual checkpoint file to resume, if it can be opened; it may not close. -/
def nbReadCheckpoint [Zero R] (B : Build R) (L : Layout R) (closes : Bool) (file : Option Bytes)
    (ctx : NBodyCtx R) (st : NBodyState R) : Option (ReadResult R) :=
  match file with
  | none => some ⟨true, ctx, st⟩
  | some [] => some ⟨true, ctx, st⟩
  | some file => do
    let r ← nbThawState B L st file
    if r.failed then return ⟨true, r.ctx, r.st⟩
    else if !closes then return ⟨true, r.ctx, r.st⟩
    else return ⟨false, r.ctx, { r.st with acctab := List.replicate r.st.bodytab.length 0 }⟩

/-! ## Where things are in a file -/

section
variable (L : Layout R) (file : Bytes)

def headerIn : NBodyCheckpointHeader R := L.header.decode (file.take L.header.size)

def bytesAt : Bytes := (file.drop L.header.size).drop L.sizeT.size

def sizeIn : ℕ := (L.sizeT.decode ((file.drop L.header.size).take L.sizeT.size)).toNat

def stateIn : Scalars R := L.state.decode ((bytesAt L file).take (sizeIn L file))

def arraysAt : Bytes := (bytesAt L file).drop (sizeIn L file)

def bodiesSize : ℕ := (headerIn L file).nbody.toNat * L.body.size

def traceSize : ℕ := (headerIn L file).nOrbitTrace.toNat * L.vector.size

def shiftSize : ℕ := (headerIn L file).nShiftLMC.toNat * L.vector.size

def satelliteIn : ℕ := if shiftSize L file = 0 then 0 else L.vector.size + L.vector.size

def arraysSize : ℕ :=
  bodiesSize L file + bodiesSize L file + traceSize L file +
    (shiftSize L file + satelliteIn L file)

def tailIn : ℕ :=
  L.header.size + L.sizeT.size + sizeIn L file + arraysSize L file

def supposedSize : ℕ :=
  L.hdrSize + 2 * bodiesSize L file + traceSize L file + shiftSize L file + 2 * L.vector.size +
    sizeIn L file + L.sizeT.size

structure Consistent : Prop where
  header : (headerIn L file).header = hdr
  size : supposedSize L file = file.length
  realSize : (headerIn L file).realSize = L.realSize
  ptrSize : (headerIn L file).ptrSize = L.ptrSize
  majorVersion : (headerIn L file).majorVersion = L.majorVersion
  minorVersion : (headerIn L file).minorVersion = L.minorVersion
  tail : strncmp (file.drop (tailIn L file)) tail = some true

/-! ## What a file puts into the state -/

def overlayScalars (st : NBodyState R) (oldSt : Scalars R) : NBodyState R :=
  { st with
    rsize := oldSt.rsize
    lastCheckpoint := oldSt.lastCheckpoint
    step := oldSt.step
    effNBody := oldSt.effNBody
    best := { st.best with bestLikelihood := oldSt.bestLikelihood }
    bestLikelihood_count := oldSt.bestLikelihood_count
    ignoreResponsive := oldSt.ignoreResponsive
    usesExact := oldSt.usesExact
    usesQuad := oldSt.usesQuad
    dirty := oldSt.dirty
    usesCL := oldSt.usesCL
    reportProgress := oldSt.reportProgress
    treeIncest := oldSt.treeIncest
    structureError := oldSt.structureError }

def overlayBodies (n : ℕ) (st : NBodyState R) (p : Bytes) : NBodyState R :=
  { st with
    bodytab := L.body.decodeArray n (p.take (n * L.body.size))
    bestLikelihoodBodyTab :=
      L.body.decodeArray n ((p.drop (n * L.body.size)).take (n * L.body.size)) }

def overlayTrace (n : ℕ) (st : NBodyState R) (p : Bytes) : NBodyState R :=
  if n * L.vector.size ≠ 0 then
    { st with orbitTrace := some (L.vector.decodeArray n (p.take (n * L.vector.size))) }
  else st

def overlayShift (n : ℕ) (st : NBodyState R) (p : Bytes) : NBodyState R :=
  if n * L.vector.size ≠ 0 then
    let q := p.drop (n * L.vector.size)
    { st with
      shiftByLMC := some (L.vector.decodeArray n (p.take (n * L.vector.size)))
      LMCpos := L.vector.decode (q.take L.vector.size)
      LMCvel := L.vector.decode ((q.drop L.vector.size).take L.vector.size) }
  else st

def overlay (st : NBodyState R) : NBodyState R :=
  let p := arraysAt L file
  let st := overlayScalars st (stateIn L file)
  let st := overlayBodies L (headerIn L file).nbody.toNat st p
  let p := p.drop (bodiesSize L file + bodiesSize L file)
  let st := overlayTrace L (headerIn L file).nOrbitTrace.toNat st p
  overlayShift L (headerIn L file).nShiftLMC.toNat st (p.drop (traceSize L file))

def withoutArrays (st : NBodyState R) : NBodyState R :=
  { st with bodytab := [], bestLikelihoodBodyTab := [], orbitTrace := none, shiftByLMC := none }

def Admitted (B : Build R) (st : NBodyState R) : Prop :=
  st.usesCL = (stateIn L file).usesCL ∧ (B.ndebug ∨ 0 < (stateIn L file).nbody) ∧
    (B.ndebug ∨ st.bodytab = [] ∧ st.acctab = [])

end

section
variable {L : Layout R}

theorem get_bind {α : Type} (n : ℕ) (p : Bytes) (k : Bytes × Bytes → Option α) :
    (Foundation.get n p >>= k) = if n ≤ p.length then k (p.take n, p.drop n) else none := by
  rw [Foundation.get]
  split_ifs <;> rfl

theorem thawBodies_eq (n : ℕ) (st : NBodyState R) (p : Bytes) :
    thawBodies L n st p =
      if n * L.body.size + n * L.body.size ≤ p.length then
        some (overlayBodies L n st p, p.drop (n * L.body.size + n * L.body.size))
      else none := by
  simp only [thawBodies, get_bind, List.length_drop, List.drop_drop]
  split_ifs <;> first | omega | rfl

theorem thawTrace_eq (n : ℕ) (st : NBodyState R) (p : Bytes) :
    thawTrace L n st p =
      if n * L.vector.size ≤ p.length then
        some (overlayTrace L n st p, p.drop (n * L.vector.size))
      else none := by
  unfold thawTrace overlayTrace
  by_cases none : n * L.vector.size = 0
  · rw [if_neg (not_not.mpr none), if_neg (not_not.mpr none), none, if_pos (Nat.zero_le _)]
    rfl
  · rw [if_pos none, if_pos none, get_bind]
    rfl

theorem thawShift_eq (n : ℕ) (st : NBodyState R) (p : Bytes) :
    thawShift L n st p =
      let satellite := if n * L.vector.size = 0 then 0 else L.vector.size + L.vector.size
      if n * L.vector.size + satellite ≤ p.length then
        some (overlayShift L n st p, p.drop (n * L.vector.size + satellite))
      else none := by
  unfold thawShift overlayShift
  by_cases none : n * L.vector.size = 0
  · rw [if_neg (not_not.mpr none), if_neg (not_not.mpr none), none]
    exact (if_pos (Nat.zero_le _)).symm
  · simp only [if_pos none, if_neg none, get_bind, List.length_drop, List.drop_drop]
    split_ifs <;> first | omega | rfl

theorem thawArrays_eq (file : Bytes) (st : NBodyState R) (p : Bytes) :
    thawArrays L (headerIn L file) st p =
      if arraysSize L file ≤ p.length then
        some (overlayShift L (headerIn L file).nShiftLMC.toNat
          (overlayTrace L (headerIn L file).nOrbitTrace.toNat
            (overlayBodies L (headerIn L file).nbody.toNat st p)
            (p.drop (bodiesSize L file + bodiesSize L file)))
          ((p.drop (bodiesSize L file + bodiesSize L file)).drop (traceSize L file)),
          p.drop (arraysSize L file))
      else none := by
  have shift := thawShift_eq (L := L) (headerIn L file).nShiftLMC.toNat
    (overlayTrace L (headerIn L file).nOrbitTrace.toNat
      (overlayBodies L (headerIn L file).nbody.toNat st p)
      (p.drop (bodiesSize L file + bodiesSize L file)))
    ((p.drop (bodiesSize L file + bodiesSize L file)).drop (traceSize L file))
  change _ = (if shiftSize L file + satelliteIn L file ≤ _ then _ else none) at shift
  rw [List.length_drop, List.length_drop] at shift
  rw [thawArrays, thawBodies_eq]
  by_cases bodies : bodiesSize L file + bodiesSize L file ≤ p.length
  · rw [if_pos (by exact bodies), Option.bind_eq_bind, Option.bind_some]
    dsimp only
    rw [thawTrace_eq]
    by_cases trace : traceSize L file ≤ p.length - (bodiesSize L file + bodiesSize L file)
    · rw [if_pos (by rw [List.length_drop]; exact trace), Option.bind_some]
      refine shift.trans ?_
      by_cases room : arraysSize L file ≤ p.length
      · rw [if_pos room, if_pos (by unfold arraysSize at room; omega), List.drop_drop,
          List.drop_drop]
        rfl
      · rw [if_neg room, if_neg (by unfold arraysSize at room; omega)]
    · rw [if_neg (by rw [List.length_drop]; exact trace), if_neg (by unfold arraysSize; omega)]
      rfl
  · rw [if_neg (by exact bodies), if_neg (by unfold arraysSize; omega)]
    rfl

variable {B : Build R} {st : NBodyState R} {file : Bytes}

def headSize (L : Layout R) (file : Bytes) : ℕ := L.header.size + L.sizeT.size + sizeIn L file

theorem thawHead_eq (nonempty : file ≠ []) (room : headSize L file ≤ file.length)
    (admitted : Admitted L file B st) :
    thawHead B L st file =
      some (headerIn L file, sizeIn L file, overlayScalars st (stateIn L file),
        arraysAt L file) := by
  obtain ⟨usesCL, nbody, fresh⟩ := admitted
  unfold headSize at room
  have notEmpty : B.assert (file.length ≠ 0) = some () :=
    if_pos (.inr (List.length_pos_of_ne_nil nonempty).ne')
  have first : B.assert (0 < (stateIn L file).nbody) = some () := if_pos nbody
  have second : B.assert (st.bodytab = [] ∧ st.acctab = []) = some () := if_pos fresh
  have same : (st.usesCL != (stateIn L file).usesCL) = false := by
    rw [usesCL, bne_self_eq_false]
  simp only [thawHead, get_bind, notEmpty, List.length_drop, Option.bind_eq_bind, Option.bind_some]
  rw [if_pos (by omega), if_pos (by omega), if_pos (by change sizeIn L file ≤ _; omega)]
  refine (if_neg (ne_true_of_eq_false same)).trans ?_
  change (do
    B.assert (0 < (stateIn L file).nbody)
    B.assert (st.bodytab = [] ∧ st.acctab = [])
    return _) >>= _ = _
  rw [first, second]
  rfl

theorem nbThawState_eq (nonempty : file ≠ []) (room : tailIn L file ≤ file.length)
    (admitted : Admitted L file B st) :
    nbThawState B L st file =
      thawCheck L (headerIn L file) (sizeIn L file) (overlay L file st) file
        (file.drop (tailIn L file)) := by
  have rest : file.drop (tailIn L file) = (arraysAt L file).drop (arraysSize L file) := by
    simp only [arraysAt, bytesAt, List.drop_drop]
    congr 1
  have arrays : arraysSize L file ≤ (arraysAt L file).length := by
    simp only [arraysAt, bytesAt, List.length_drop]
    unfold tailIn at room
    omega
  rw [nbThawState, thawHead_eq nonempty (by unfold tailIn at room; unfold headSize; omega) admitted,
    Option.bind_eq_bind, Option.bind_some]
  dsimp only
  rw [thawArrays_eq, if_pos arrays, Option.bind_eq_bind, Option.bind_some, rest]
  rfl

theorem thawHead_some {x : NBodyCheckpointHeader R × ℕ × NBodyState R × Bytes}
    (run : thawHead B L st file = some x) :
    headSize L file ≤ file.length ∧ Admitted L file B st := by
  rw [thawHead, get_bind] at run
  split_ifs at run with header
  rw [Option.bind_eq_bind, Option.bind_eq_some_iff] at run
  obtain ⟨-, -, run⟩ := run
  rw [get_bind] at run
  split_ifs at run with number
  dsimp only at run
  rw [get_bind] at run
  split_ifs at run with state different
  rw [Option.bind_eq_bind, Option.bind_eq_some_iff] at run
  obtain ⟨s, cloned, -⟩ := run
  simp only [clonePartialNBodyState, Option.bind_eq_bind, Option.bind_eq_some_iff] at cloned
  obtain ⟨_, nbody, _, fresh, -⟩ := cloned
  refine ⟨?_, ?_, ?_, ?_⟩
  · change sizeIn L file ≤ ((file.drop L.header.size).drop L.sizeT.size).length at state
    rw [List.length_drop] at number state
    rw [List.length_drop] at state
    unfold headSize
    omega
  · have same : ¬(st.usesCL != (stateIn L file).usesCL) = true := different
    simpa using same
  · by_contra none
    cases (if_neg none).symm.trans nbody
  · by_contra none
    cases (if_neg none).symm.trans fresh

theorem nbThawState_some (nonempty : file ≠ []) {r : Thawed R}
    (run : nbThawState B L st file = some r) :
    tailIn L file ≤ file.length ∧ Admitted L file B st := by
  simp only [nbThawState, Option.bind_eq_bind, Option.bind_eq_some_iff, Prod.exists] at run
  obtain ⟨cpHdr, sizeOfData, s, p, head, s', p', arrays, -⟩ := run
  obtain ⟨room, admitted⟩ := thawHead_some head
  rw [thawHead_eq nonempty room admitted, Option.some.injEq, Prod.mk.injEq, Prod.mk.injEq,
    Prod.mk.injEq] at head
  obtain ⟨rfl, rfl, rfl, rfl⟩ := head
  rw [thawArrays_eq] at arrays
  split_ifs at arrays with all
  refine ⟨?_, admitted⟩
  simp only [arraysAt, bytesAt, List.length_drop] at all
  unfold tailIn
  unfold headSize at room
  omega

/-! ## Files that are refused -/

/-- Reading succeeds with a file that is consistent, or fails and leaves the context and the
state as they were; it does not abort and reads nothing beyond the end of the file. -/
def ReadsAtomically (L : Layout R) (file : Option Bytes) (ctx : NBodyCtx R) (st : NBodyState R) :
    Option (ReadResult R) → Prop
  | none => False
  | some r => if r.failed then r.ctx = ctx ∧ r.st = st else ∃ f, file = some f ∧ Consistent L f

/-- The condition: there is nothing to read, or all that is asked for is in the file, the file
is admitted, and it is consistent and closes, or it repeats what the context and the state
hold already. -/
def Rereads (B : Build R) (L : Layout R) (closes : Bool) (file : Option Bytes)
    (ctx : NBodyCtx R) (st : NBodyState R) : Prop :=
  ∀ f, file = some f → f ≠ [] →
    tailIn L f ≤ f.length ∧ Admitted L f B st ∧
      (nbVerifyCheckpointHeader L (headerIn L f) f.length (supposedSize L f) = true ∧
          (headerIn L f).ctx = ctx ∧ overlay L f st = st ∨
        nbVerifyCheckpointHeader L (headerIn L f) f.length (supposedSize L f) = false ∧
          (strncmp (f.drop (tailIn L f)) tail = some false ∧ (headerIn L f).ctx = ctx ∧
              withoutArrays (overlay L f st) = st ∨
            strncmp (f.drop (tailIn L f)) tail = some true ∧
              (closes ∨ (headerIn L f).ctx = ctx ∧ overlay L f st = st)))

theorem consistent_of_verified {L : Layout R} (f : Bytes)
    (verified : nbVerifyCheckpointHeader L (headerIn L f) f.length (supposedSize L f) = false)
    (found : strncmp (f.drop (tailIn L f)) tail = some true) : Consistent L f := by
  simp only [nbVerifyCheckpointHeader, Bool.or_eq_false_iff, bne_eq_false_iff_eq] at verified
  obtain ⟨⟨⟨⟨⟨header, size⟩, real⟩, ptr⟩, major⟩, minor⟩ := verified
  exact ⟨header, size, real, ptr, major, minor, found⟩

theorem nbReadCheckpoint_iff [Zero R] (B : Build R) (L : Layout R) (closes : Bool)
    (file : Option Bytes) (ctx : NBodyCtx R) (st : NBodyState R) :
    ReadsAtomically L file ctx st (nbReadCheckpoint B L closes file ctx st) ↔
      Rereads B L closes file ctx st := by
  match file with
  | none => exact ⟨nofun, fun _ => ⟨rfl, rfl⟩⟩
  | some [] => exact ⟨fun _ f same nonempty => absurd (Option.some.inj same).symm nonempty,
      fun _ => ⟨rfl, rfl⟩⟩
  | some (b :: f) =>
      generalize same : b :: f = file
      have nonempty : file ≠ [] := same ▸ List.cons_ne_nil b f
      have all : Rereads B L closes (some file) ctx st ↔ _ :=
        ⟨fun rereads => rereads file rfl nonempty, fun holds f same _ => by
          cases same
          exact holds⟩
      rw [all, nbReadCheckpoint]
      case x => exact nonempty
      by_cases readable : tailIn L file ≤ file.length ∧ Admitted L file B st
      · rw [nbThawState_eq nonempty readable.1 readable.2, and_iff_right readable.1,
          and_iff_right readable.2]
        have verified := consistent_of_verified (L := L) file
        have size : L.hdrSize + 2 * ((headerIn L file).nbody.toNat * L.body.size) +
            (headerIn L file).nOrbitTrace.toNat * L.vector.size +
            (headerIn L file).nShiftLMC.toNat * L.vector.size + 2 * L.vector.size +
            sizeIn L file + L.sizeT.size = supposedSize L file := rfl
        unfold thawCheck
        dsimp only
        rw [size]
        cases refused :
          nbVerifyCheckpointHeader L (headerIn L file) file.length (supposedSize L file)
        · match found : strncmp (file.drop (tailIn L file)) tail with
          | none => simp [ReadsAtomically]
          | some false => simp [ReadsAtomically, withoutArrays]
          | some true =>
              cases closes with
              | false => simp [ReadsAtomically]
              | true => simpa [ReadsAtomically] using verified refused found
        · simp [ReadsAtomically]
      · match run : nbThawState B L st file with
        | none => exact ⟨False.elim, fun holds => readable ⟨holds.1, holds.2.1⟩⟩
        | some r => exact absurd (nbThawState_some nonempty run) readable

end

/-- A file of one byte, which is shorter than the header that is read. -/
theorem nbReadCheckpoint_one :
    ¬ReadsAtomically (layoutOf rowCtx (lmcState [bodyAtRest] none)) (some [0]) rowCtx
      (lmcState [] none)
      (nbReadCheckpoint rowBuild (layoutOf rowCtx (lmcState [bodyAtRest] none)) true (some [0])
        rowCtx (lmcState [] none)) :=
  id

end MilkyWay.NBody
