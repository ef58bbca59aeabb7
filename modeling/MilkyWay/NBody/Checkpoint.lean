import MilkyWay.Foundation.Buffer
import MilkyWay.NBody.State

/-! The checkpoint file of a run. `nbFreezeState` writes it, `nbThawState` reads it and
`cpFileSize` is the size the file is given; `nbThawState_nbFreezeState` says exactly
when the three agree. -/

namespace MilkyWay.NBody

open Foundation

variable {R : Type}

structure Scalars (R : Type) where
  rsize : R
  structureError : Bool
  lastCheckpoint : ℤ
  step : ℕ
  nbody : ℕ
  effNBody : ℤ
  bestLikelihood : R
  bestLikelihood_count : ℤ
  ignoreResponsive : Bool
  usesExact : Bool
  usesQuad : Bool
  dirty : Bool
  usesCL : Bool
  reportProgress : Bool
  treeIncest : Bool

def NBodyState.scalars (st : NBodyState R) : Scalars R where
  rsize := st.rsize
  structureError := st.structureError
  lastCheckpoint := st.lastCheckpoint
  step := st.step
  nbody := st.bodytab.length
  effNBody := st.effNBody
  bestLikelihood := st.best.bestLikelihood
  bestLikelihood_count := st.bestLikelihood_count
  ignoreResponsive := st.ignoreResponsive
  usesExact := st.usesExact
  usesQuad := st.usesQuad
  dirty := st.dirty
  usesCL := st.usesCL
  reportProgress := st.reportProgress
  treeIncest := st.treeIncest

structure NBodyCheckpointHeader (R : Type) where
  header : String
  majorVersion : BitVec 32
  minorVersion : BitVec 32
  nbody : BitVec 32
  step : BitVec 32
  realSize : BitVec 32
  ptrSize : BitVec 32
  nOrbitTrace : BitVec 32
  nShiftLMC : BitVec 32
  treeIncest : BitVec 32
  rsize : R
  ctx : NBodyCtx R

/-- The layout of the program's data in memory. -/
structure Layout (R : Type) where
  header : Codec (NBodyCheckpointHeader R)
  sizeT : Codec (BitVec 64)
  state : Image (NBodyState.scalars (R := R))
  body : Codec (Body R)
  vector : Codec (Vec3 R)
  realSize : BitVec 32
  ptrSize : BitVec 32
  majorVersion : BitVec 32
  minorVersion : BitVec 32
  state_size : state.size < 2 ^ 64
  state_size_fits : sizeT.fits (BitVec.ofNat 64 state.size)
  vector_pos : 0 < vector.size

def entries {α : Type} (array : Option (List α)) : ℕ := (array.getD []).length

def hdr : String := "mwnbody"

/-- The end marker with the zero that ends it. -/
def tail : Bytes := [101, 110, 100, 0]

def Layout.hdrSize (L : Layout R) : ℕ := L.header.size + tail.length

def nbPrepareWriteCheckpointHeader (L : Layout R) (ctx : NBodyCtx R) (st : NBodyState R) :
    NBodyCheckpointHeader R where
  header := hdr
  majorVersion := L.majorVersion
  minorVersion := L.minorVersion
  nbody := BitVec.ofNat 32 st.bodytab.length
  step := BitVec.ofNat 32 st.step
  realSize := L.realSize
  ptrSize := L.ptrSize
  nOrbitTrace := BitVec.ofNat 32 (entries st.orbitTrace)
  nShiftLMC := BitVec.ofNat 32 (entries st.shiftByLMC)
  treeIncest := if st.treeIncest then 1 else 0
  rsize := st.rsize
  ctx

/-- The size of the file. Twice the number of bodies is computed as an `int`, which has
no value from 2^31 on. -/
def cpFileSize (L : Layout R) (st : NBodyState R) : Option ℕ :=
  if 2 * st.bodytab.length < 2 ^ 31 then
    some (L.hdrSize + 2 * st.bodytab.length * L.body.size + entries st.orbitTrace * L.vector.size +
      entries st.shiftByLMC * L.vector.size + 2 * L.vector.size + L.state.size + L.sizeT.size)
  else none

/-- The mapping of a file of the right size, whatever the file was before. -/
def nbOpenCheckpointHandle (L : Layout R) (st : NBodyState R) (previous : Bytes) : Option Bytes :=
  (cpFileSize L st).map fun size => (previous ++ List.replicate size 0).take size

def tracePieces (L : Layout R) (st : NBodyState R) : List Bytes :=
  match st.orbitTrace with
  | none => []
  | some orbitTrace => [L.vector.encodeArray orbitTrace]

def shiftPieces (L : Layout R) (st : NBodyState R) : List Bytes :=
  match st.shiftByLMC with
  | none => []
  | some shiftByLMC =>
      [L.vector.encodeArray shiftByLMC, L.vector.encode st.LMCpos, L.vector.encode st.LMCvel]

def frozenPieces (L : Layout R) (ctx : NBodyCtx R) (st : NBodyState R) : List Bytes :=
  [L.header.encode (nbPrepareWriteCheckpointHeader L ctx st),
    L.sizeT.encode (BitVec.ofNat 64 L.state.size), L.state.encode st,
    L.body.encodeArray st.bodytab, L.body.encodeArray st.bestLikelihoodBodyTab] ++
  (tracePieces L st ++ shiftPieces L st)

/-- The file that is written and the place of its end marker. -/
def nbFreezeState (L : Layout R) (ctx : NBodyCtx R) (st : NBodyState R) (mptr : Bytes) :
    Option (Bytes × ℕ) := do
  let (done, p) ← (frozenPieces L ctx st).foldlM put ([], mptr)
  let (file, rest) ← put (done, p) tail
  return (file ++ rest, done.length)

/-- Make a checkpoint over a file. -/
def nbWriteCheckpoint (L : Layout R) (ctx : NBodyCtx R) (st : NBodyState R) (previous : Bytes) :
    Option (Bytes × ℕ) := do
  let mptr ← nbOpenCheckpointHandle L st previous
  nbFreezeState L ctx st mptr

def nbReadCheckpointHeader (cp : NBodyCheckpointHeader R) (st : NBodyState R) : NBodyState R :=
  { st with step := cp.step.toNat, rsize := cp.rsize, treeIncest := cp.treeIncest != 0 }

def clonePartialNBodyState (B : Build R) (st : NBodyState R) (oldSt : Scalars R) :
    Option (NBodyState R) := do
  B.assert (0 < oldSt.nbody)
  B.assert (st.bodytab = [] ∧ st.acctab = [])
  return { st with
    rsize := oldSt.rsize
    lastCheckpoint := oldSt.lastCheckpoint
    step := oldSt.step
    effNBody := oldSt.effNBody
    best := { st.best with bestLikelihood := oldSt.bestLikelihood }
    bestLikelihood_count := oldSt.bestLikelihood_count
    ignoreResponsive := oldSt.ignoreResponsive
    usesExact := oldSt.usesExact
    usesQuad := oldSt.usesQuad
    dirty := oldSt.dirty
    usesCL := oldSt.usesCL
    reportProgress := oldSt.reportProgress
    treeIncest := oldSt.treeIncest
    structureError := oldSt.structureError }

/-- What reading a file gives: whether it has failed, the context and the state, and the
place at which the end marker is looked for. -/
structure Thawed (R : Type) where
  failed : Bool
  ctx : NBodyCtx R
  st : NBodyState R
  tailAt : ℕ

/-- The header and the sizes do not fit this program or the file. -/
def nbVerifyCheckpointHeader (L : Layout R) (cpHdr : NBodyCheckpointHeader R) (fileSize : ℕ)
    (supposedCheckpointSize : ℕ) : Bool :=
  cpHdr.header != hdr || supposedCheckpointSize != fileSize || cpHdr.realSize != L.realSize ||
    cpHdr.ptrSize != L.ptrSize || cpHdr.majorVersion != L.majorVersion ||
    cpHdr.minorVersion != L.minorVersion

def thawBodies (L : Layout R) (nbody : ℕ) (st : NBodyState R) (p : Bytes) :
    Option (NBodyState R × Bytes) := do
  let (bodies, p) ← get (nbody * L.body.size) p
  let (best, p) ← get (nbody * L.body.size) p
  return ({ st with
    bodytab := L.body.decodeArray nbody bodies
    bestLikelihoodBodyTab := L.body.decodeArray nbody best }, p)

def thawTrace (L : Layout R) (nOrbitTrace : ℕ) (st : NBodyState R) (p : Bytes) :
    Option (NBodyState R × Bytes) :=
  if nOrbitTrace * L.vector.size ≠ 0 then do
    let (bytes, p) ← get (nOrbitTrace * L.vector.size) p
    return ({ st with orbitTrace := some (L.vector.decodeArray nOrbitTrace bytes) }, p)
  else some (st, p)

def thawShift (L : Layout R) (nShiftLMC : ℕ) (st : NBodyState R) (p : Bytes) :
    Option (NBodyState R × Bytes) :=
  if nShiftLMC * L.vector.size ≠ 0 then do
    let (bytes, p) ← get (nShiftLMC * L.vector.size) p
    let (pos, p) ← get L.vector.size p
    let (vel, p) ← get L.vector.size p
    return ({ st with
      shiftByLMC := some (L.vector.decodeArray nShiftLMC bytes)
      LMCpos := L.vector.decode pos, LMCvel := L.vector.decode vel }, p)
  else some (st, p)

def thawHead (B : Build R) (L : Layout R) (st : NBodyState R) (file : Bytes) :
    Option (NBodyCheckpointHeader R × ℕ × NBodyState R × Bytes) := do
  let (bytes, p) ← get L.header.size file
  let cpHdr := L.header.decode bytes
  let st := nbReadCheckpointHeader cpHdr st
  B.assert (file.length ≠ 0)
  let (bytes, p) ← get L.sizeT.size p
  let sizeOfData := (L.sizeT.decode bytes).toNat
  let (bytes, p) ← get sizeOfData p
  let extractedSt := L.state.decode bytes
  if st.usesCL != extractedSt.usesCL then none
  else
    let st ← clonePartialNBodyState B st extractedSt
    return (cpHdr, sizeOfData, st, p)

def thawArrays (L : Layout R) (cpHdr : NBodyCheckpointHeader R) (st : NBodyState R) (p : Bytes) :
    Option (NBodyState R × Bytes) := do
  let (st, p) ← thawBodies L cpHdr.nbody.toNat st p
  let (st, p) ← thawTrace L cpHdr.nOrbitTrace.toNat st p
  thawShift L cpHdr.nShiftLMC.toNat st p

def thawCheck (L : Layout R) (cpHdr : NBodyCheckpointHeader R) (sizeOfData : ℕ)
    (st : NBodyState R) (file p : Bytes) : Option (Thawed R) := do
  let supposedCheckpointSize := L.hdrSize + 2 * (cpHdr.nbody.toNat * L.body.size) +
    cpHdr.nOrbitTrace.toNat * L.vector.size + cpHdr.nShiftLMC.toNat * L.vector.size +
    2 * L.vector.size + sizeOfData + L.sizeT.size
  let tailAt := file.length - p.length
  if nbVerifyCheckpointHeader L cpHdr file.length supposedCheckpointSize then
    return ⟨true, cpHdr.ctx, st, tailAt⟩
  let found ← strncmp p tail
  return ⟨!found, cpHdr.ctx, if found then st else
    { st with bodytab := [], bestLikelihoodBodyTab := [], orbitTrace := none, shiftByLMC := none },
    tailAt⟩

/-- Read a file into a new state. -/
def nbThawState (B : Build R) (L : Layout R) (st : NBodyState R) (file : Bytes) :
    Option (Thawed R) := do
  let (cpHdr, sizeOfData, st, p) ← thawHead B L st file
  let (st, p) ← thawArrays L cpHdr st p
  thawCheck L cpHdr sizeOfData st file p

/-! ## Writing -/

section
variable (L : Layout R) (ctx : NBodyCtx R) (st : NBodyState R)

def frozen : Bytes := (frozenPieces L ctx st).flatten

def satelliteSize : ℕ := if st.shiftByLMC = none then 0 else 2 * L.vector.size

theorem frozen_eq : frozen L ctx st =
    L.header.encode (nbPrepareWriteCheckpointHeader L ctx st) ++
      (L.sizeT.encode (BitVec.ofNat 64 L.state.size) ++ (L.state.encode st ++
        (L.body.encodeArray st.bodytab ++ (L.body.encodeArray st.bestLikelihoodBodyTab ++
          ((tracePieces L st).flatten ++ (shiftPieces L st).flatten))))) := by
  simp only [frozen, frozenPieces, List.flatten_append, List.flatten_cons, List.flatten_nil,
    List.append_nil, List.append_assoc]

theorem length_tracePieces :
    (tracePieces L st).flatten.length = entries st.orbitTrace * L.vector.size := by
  unfold tracePieces entries
  cases st.orbitTrace <;> simp

theorem length_shiftPieces : (shiftPieces L st).flatten.length =
    entries st.shiftByLMC * L.vector.size + satelliteSize L st := by
  unfold shiftPieces entries satelliteSize
  cases st.shiftByLMC with
  | none => simp
  | some shiftByLMC => simp [L.vector.length_encode, two_mul]

theorem length_frozen (best : st.bestLikelihoodBodyTab.length = st.bodytab.length) :
    (frozen L ctx st).length = L.header.size + L.sizeT.size + L.state.size +
      2 * (st.bodytab.length * L.body.size) + entries st.orbitTrace * L.vector.size +
      (entries st.shiftByLMC * L.vector.size + satelliteSize L st) := by
  simp only [frozen_eq, List.length_append, L.header.length_encode, L.sizeT.length_encode,
    L.state.length_encode, Image.length_encodeArray, length_tracePieces, length_shiftPieces, best]
  omega

theorem nbWriteCheckpoint_eq (best : st.bestLikelihoodBodyTab.length = st.bodytab.length)
    (previous : Bytes) {size : ℕ} (fits : cpFileSize L st = some size) :
    ∃ rest, nbWriteCheckpoint L ctx st previous =
        some (frozen L ctx st ++ (tail ++ rest), (frozen L ctx st).length) ∧
      (frozen L ctx st ++ (tail ++ rest)).length = size := by
  have opened : nbOpenCheckpointHandle L st previous =
      some ((previous ++ List.replicate size 0).take size) := by
    rw [nbOpenCheckpointHandle, fits, Option.map_some]
  have mapped : ((previous ++ List.replicate size 0).take size).length = size := by
    rw [List.length_take, List.length_append, List.length_replicate]
    omega
  generalize (previous ++ List.replicate size 0).take size = mptr at opened mapped
  have written := length_frozen L ctx st best
  have satellite : satelliteSize L st ≤ 2 * L.vector.size := by
    unfold satelliteSize
    split <;> omega
  have room : (frozen L ctx st).length + tail.length ≤ size := by
    unfold cpFileSize at fits
    split at fits
    · have assoc := Nat.mul_assoc 2 st.bodytab.length L.body.size
      simp only [Layout.hdrSize, Option.some.injEq] at fits
      omega
    · cases fits
  have pieces : (frozenPieces L ctx st).foldlM put ([], mptr) =
      some (frozen L ctx st, mptr.drop (frozen L ctx st).length) := by
    rw [foldlM_put]
    exact if_pos (by rw [mapped]; exact le_of_add_le_left room)
  have last : put (frozen L ctx st, mptr.drop (frozen L ctx st).length) tail =
      some (frozen L ctx st ++ tail, (mptr.drop (frozen L ctx st).length).drop tail.length) :=
    if_pos (by rw [List.length_drop, mapped]; omega)
  refine ⟨(mptr.drop (frozen L ctx st).length).drop tail.length, ?_, ?_⟩
  · rw [nbWriteCheckpoint, opened, Option.bind_eq_bind, Option.bind_some, nbFreezeState, pieces,
      Option.bind_eq_bind, Option.bind_some]
    dsimp only
    rw [last, Option.bind_some, Option.pure_def, List.append_assoc]
  · simp only [List.length_append, List.length_drop, mapped]
    omega

end

/-! ## Reading back -/

def thawed (st c : NBodyState R) : NBodyState R := { st with
  rsize := c.rsize
  structureError := c.structureError
  bodytab := c.bodytab
  bestLikelihoodBodyTab := c.bestLikelihoodBodyTab
  orbitTrace := if entries c.orbitTrace = 0 then st.orbitTrace else c.orbitTrace
  shiftByLMC := if entries c.shiftByLMC = 0 then st.shiftByLMC else c.shiftByLMC
  LMCpos := if entries c.shiftByLMC = 0 then st.LMCpos else c.LMCpos
  LMCvel := if entries c.shiftByLMC = 0 then st.LMCvel else c.LMCvel
  lastCheckpoint := c.lastCheckpoint
  step := c.step
  effNBody := c.effNBody
  treeIncest := c.treeIncest
  best := { st.best with bestLikelihood := c.best.bestLikelihood }
  bestLikelihood_count := c.bestLikelihood_count
  ignoreResponsive := c.ignoreResponsive
  usesExact := c.usesExact
  usesQuad := c.usesQuad
  dirty := c.dirty
  usesCL := c.usesCL
  reportProgress := c.reportProgress }

section
variable {B : Build R} {L : Layout R} {ctx : NBodyCtx R} {st c : NBodyState R}

/-- The values in the state are values of the program's types. -/
structure Fits (L : Layout R) (ctx : NBodyCtx R) (c : NBodyState R) : Prop where
  header : L.header.fits (nbPrepareWriteCheckpointHeader L ctx c)
  state : L.state.fits c
  bodies : ∀ b ∈ c.bodytab, L.body.fits b
  best : ∀ b ∈ c.bestLikelihoodBodyTab, L.body.fits b
  trace : ∀ v ∈ c.orbitTrace.getD [], L.vector.fits v
  shift : ∀ v ∈ c.shiftByLMC.getD [], L.vector.fits v
  LMCpos : L.vector.fits c.LMCpos
  LMCvel : L.vector.fits c.LMCvel

theorem thawBodies_frozen (fits : Fits L ctx c)
    (best : c.bestLikelihoodBodyTab.length = c.bodytab.length) (p : Bytes) :
    thawBodies L c.bodytab.length st
      (L.body.encodeArray c.bodytab ++ (L.body.encodeArray c.bestLikelihoodBodyTab ++ p)) =
    some ({ st with
      bodytab := c.bodytab, bestLikelihoodBodyTab := c.bestLikelihoodBodyTab }, p) := by
  have second := L.body.get_encodeArray c.bestLikelihoodBodyTab p
  have decoded := L.body.decodeArray_encodeArray c.bestLikelihoodBodyTab fits.best
  rw [best, List.map_id] at decoded
  rw [best] at second
  rw [thawBodies, Image.get_encodeArray, Option.bind_eq_bind, Option.bind_some]
  dsimp only
  rw [second, Option.bind_some, L.body.decodeArray_encodeArray c.bodytab fits.bodies, List.map_id,
    decoded, Option.pure_def]

theorem exists_of_entries {α : Type} {array : Option (List α)} (h : entries array ≠ 0) :
    ∃ l, array = some l ∧ l.length = entries array := by
  cases array with
  | none => exact absurd rfl h
  | some l => exact ⟨l, rfl, rfl⟩

theorem flatten_eq_nil {pieces : List Bytes} {n m : ℕ} (length : pieces.flatten.length = n * m)
    (none : n = 0) : pieces.flatten = [] :=
  List.eq_nil_of_length_eq_zero (by rw [length, none, Nat.zero_mul])

theorem thawTrace_frozen (fits : Fits L ctx c) (p : Bytes) :
    thawTrace L (entries c.orbitTrace) st ((tracePieces L c).flatten ++ p) =
      some ({ st with
        orbitTrace := if entries c.orbitTrace = 0 then st.orbitTrace else c.orbitTrace }, p) := by
  by_cases none : entries c.orbitTrace = 0
  · rw [flatten_eq_nil (length_tracePieces L c) none, none, if_pos rfl, thawTrace, Nat.zero_mul,
      if_neg (not_not.mpr rfl), List.nil_append]
  · obtain ⟨l, some_, length⟩ := exists_of_entries none
    have pieces : (tracePieces L c).flatten = L.vector.encodeArray l := by
      rw [tracePieces, some_, List.flatten_cons, List.flatten_nil, List.append_nil]
    have bytes : entries c.orbitTrace * L.vector.size ≠ 0 :=
      Nat.mul_ne_zero none L.vector_pos.ne'
    rw [thawTrace, if_pos bytes, if_neg none, pieces, ← length, L.vector.get_encodeArray,
      Option.bind_eq_bind, Option.bind_some]
    dsimp only
    have all : ∀ v ∈ l, L.vector.fits v := by
      have := fits.trace
      rw [some_] at this
      exact this
    rw [L.vector.decodeArray_encodeArray l all, List.map_id, some_, Option.pure_def]

theorem thawShift_frozen (fits : Fits L ctx c) (entriesIfAny : c.shiftByLMC ≠ some [])
    (p : Bytes) :
    thawShift L (entries c.shiftByLMC) st ((shiftPieces L c).flatten ++ p) =
      some ({ st with
        shiftByLMC := if entries c.shiftByLMC = 0 then st.shiftByLMC else c.shiftByLMC
        LMCpos := if entries c.shiftByLMC = 0 then st.LMCpos else c.LMCpos
        LMCvel := if entries c.shiftByLMC = 0 then st.LMCvel else c.LMCvel }, p) := by
  by_cases none : entries c.shiftByLMC = 0
  · have isNone : c.shiftByLMC = Option.none := by
      cases h : c.shiftByLMC with
      | none => rfl
      | some l =>
          rw [h] at none entriesIfAny
          exact absurd (congrArg some (List.eq_nil_of_length_eq_zero none)) entriesIfAny
    rw [shiftPieces, isNone, List.flatten_nil, List.nil_append]
    show thawShift L 0 st p = _
    rw [thawShift, Nat.zero_mul, if_neg (not_not.mpr rfl)]
    rfl
  · obtain ⟨l, some_, length⟩ := exists_of_entries none
    have pieces : (shiftPieces L c).flatten ++ p = L.vector.encodeArray l ++
        (L.vector.encode c.LMCpos ++ (L.vector.encode c.LMCvel ++ p)) := by
      simp only [shiftPieces, some_, List.flatten_cons, List.flatten_nil, List.append_nil,
        List.append_assoc]
    have bytes : entries c.shiftByLMC * L.vector.size ≠ 0 :=
      Nat.mul_ne_zero none L.vector_pos.ne'
    rw [thawShift, if_pos bytes, if_neg none, if_neg none, if_neg none, pieces, ← length,
      L.vector.get_encodeArray, Option.bind_eq_bind, Option.bind_some]
    dsimp only
    rw [L.vector.get_encode, Option.bind_some]
    dsimp only
    rw [L.vector.get_encode, Option.bind_some]
    dsimp only
    have all : ∀ v ∈ l, L.vector.fits v := by
      have := fits.shift
      rw [some_] at this
      exact this
    rw [L.vector.decodeArray_encodeArray l all, List.map_id,
      L.vector.decode_encode c.LMCpos fits.LMCpos, L.vector.decode_encode c.LMCvel fits.LMCvel,
      some_, Option.pure_def]
    rfl

def headOf (st c : NBodyState R) : NBodyState R := { st with
  rsize := c.rsize
  structureError := c.structureError
  lastCheckpoint := c.lastCheckpoint
  step := c.step
  effNBody := c.effNBody
  treeIncest := c.treeIncest
  best := { st.best with bestLikelihood := c.best.bestLikelihood }
  bestLikelihood_count := c.bestLikelihood_count
  ignoreResponsive := c.ignoreResponsive
  usesExact := c.usesExact
  usesQuad := c.usesQuad
  dirty := c.dirty
  usesCL := c.usesCL
  reportProgress := c.reportProgress }

theorem clonePartialNBodyState_eq (nonempty : B.ndebug ∨ 0 < c.bodytab.length)
    (fresh : B.ndebug ∨ st.bodytab = [] ∧ st.acctab = []) :
    clonePartialNBodyState B st c.scalars = some (headOf st c) := by
  have first : B.assert (0 < c.scalars.nbody) = some () := if_pos nonempty
  have second : B.assert (st.bodytab = [] ∧ st.acctab = []) = some () := if_pos fresh
  rw [clonePartialNBodyState, first, Option.bind_eq_bind, Option.bind_some, second,
    Option.bind_some]
  rfl

theorem thawHead_frozen (fits : Fits L ctx c) (nonempty : B.ndebug ∨ 0 < c.bodytab.length)
    (fresh : B.ndebug ∨ st.bodytab = [] ∧ st.acctab = []) (usesCL : st.usesCL = c.usesCL)
    {file p : Bytes} (more : p ≠ [])
    (written : file = L.header.encode (nbPrepareWriteCheckpointHeader L ctx c) ++
      (L.sizeT.encode (BitVec.ofNat 64 L.state.size) ++ (L.state.encode c ++ p))) :
    thawHead B L st file =
      some (nbPrepareWriteCheckpointHeader L ctx c, L.state.size, headOf st c, p) := by
  have size : (BitVec.ofNat 64 L.state.size).toNat = L.state.size := by
    rw [BitVec.toNat_ofNat, Nat.mod_eq_of_lt L.state_size]
  have notEmpty : B.assert (file.length ≠ 0) = some () := by
    refine if_pos (.inr ?_)
    have := List.length_pos_of_ne_nil more
    simp only [written, List.length_append]
    omega
  have first : get L.header.size file =
      some (L.header.encode (nbPrepareWriteCheckpointHeader L ctx c),
        L.sizeT.encode (BitVec.ofNat 64 L.state.size) ++ (L.state.encode c ++ p)) := by
    rw [written, L.header.get_encode]
  have sameCL : (st.usesCL != c.usesCL) = false := by rw [usesCL, bne_self_eq_false]
  have cloned : clonePartialNBodyState B (nbReadCheckpointHeader
      (nbPrepareWriteCheckpointHeader L ctx c) st) c.scalars = _ :=
    clonePartialNBodyState_eq nonempty fresh
  simp only [thawHead, first, notEmpty, L.sizeT.get_encode,
    L.sizeT.decode_encode _ L.state_size_fits, id_eq, size, L.state.get_encode,
    L.state.decode_encode c fits.state, L.header.decode_encode _ fits.header, Option.bind_eq_bind,
    Option.bind_some, cloned, Option.pure_def]
  exact if_neg (ne_true_of_eq_false sameCL)

structure Readable (B : Build R) (st c : NBodyState R) : Prop where
  bodies : c.bodytab.length < 2 ^ 32
  best : c.bestLikelihoodBodyTab.length = c.bodytab.length
  trace : entries c.orbitTrace < 2 ^ 32
  shift : entries c.shiftByLMC < 2 ^ 32
  satellite : c.shiftByLMC ≠ some []
  nonempty : B.ndebug ∨ 0 < c.bodytab.length
  fresh : B.ndebug ∨ st.bodytab = [] ∧ st.acctab = []
  usesCL : st.usesCL = c.usesCL

theorem header_counts (h : Readable B st c) :
    (nbPrepareWriteCheckpointHeader L ctx c).nbody.toNat = c.bodytab.length ∧
    (nbPrepareWriteCheckpointHeader L ctx c).nOrbitTrace.toNat = entries c.orbitTrace ∧
    (nbPrepareWriteCheckpointHeader L ctx c).nShiftLMC.toNat = entries c.shiftByLMC :=
  ⟨(BitVec.toNat_ofNat _ _).trans (Nat.mod_eq_of_lt h.bodies),
    (BitVec.toNat_ofNat _ _).trans (Nat.mod_eq_of_lt h.trace),
    (BitVec.toNat_ofNat _ _).trans (Nat.mod_eq_of_lt h.shift)⟩

theorem thawArrays_frozen (fits : Fits L ctx c) (h : Readable B st c) (p : Bytes) :
    thawArrays L (nbPrepareWriteCheckpointHeader L ctx c) (headOf st c)
      (L.body.encodeArray c.bodytab ++ (L.body.encodeArray c.bestLikelihoodBodyTab ++
        ((tracePieces L c).flatten ++ ((shiftPieces L c).flatten ++ p)))) =
      some (thawed st c, p) := by
  obtain ⟨nbody, nOrbitTrace, nShiftLMC⟩ :
    (nbPrepareWriteCheckpointHeader L ctx c).nbody.toNat = _ ∧ _ ∧ _ := header_counts h
  rw [thawArrays, nbody, nOrbitTrace, nShiftLMC, thawBodies_frozen fits h.best, Option.bind_eq_bind,
    Option.bind_some]
  dsimp only
  rw [thawTrace_frozen fits, Option.bind_some]
  dsimp only
  rw [thawShift_frozen fits h.satellite]
  rfl

theorem thawCheck_frozen (h : Readable B st c) {rest file : Bytes}
    (written : file = frozen L ctx c ++ (tail ++ rest))
    (size : cpFileSize L c = some file.length) (s : NBodyState R) :
    thawCheck L (nbPrepareWriteCheckpointHeader L ctx c) L.state.size s file (tail ++ rest) =
      some ⟨false, ctx, s, (frozen L ctx c).length⟩ := by
  obtain ⟨nbody, nOrbitTrace, nShiftLMC⟩ :
    (nbPrepareWriteCheckpointHeader L ctx c).nbody.toNat = _ ∧ _ ∧ _ := header_counts h
  have supposed : L.hdrSize + 2 * (c.bodytab.length * L.body.size) +
      entries c.orbitTrace * L.vector.size + entries c.shiftByLMC * L.vector.size +
      2 * L.vector.size + L.state.size + L.sizeT.size = file.length := by
    unfold cpFileSize at size
    split at size
    · rw [Option.some.injEq] at size
      rw [← size, Nat.mul_assoc]
    · cases size
  have verified : nbVerifyCheckpointHeader L (nbPrepareWriteCheckpointHeader L ctx c) file.length
      file.length = false := by
    simp [nbVerifyCheckpointHeader, nbPrepareWriteCheckpointHeader]
  have place : file.length - (tail ++ rest).length = (frozen L ctx c).length := by
    rw [written, List.length_append, Nat.add_sub_cancel]
  rw [thawCheck, nbody, nOrbitTrace, nShiftLMC, supposed, verified, place, strncmp_append]
  rfl

theorem nbThawState_frozen (fits : Fits L ctx c) (h : Readable B st c) {rest file : Bytes}
    (written : file = frozen L ctx c ++ (tail ++ rest))
    (size : cpFileSize L c = some file.length) :
    nbThawState B L st file = some ⟨false, ctx, thawed st c, (frozen L ctx c).length⟩ := by
  have pieces := written
  rw [frozen_eq] at pieces
  simp only [List.append_assoc] at pieces
  have more : L.body.encodeArray c.bodytab ++ (L.body.encodeArray c.bestLikelihoodBodyTab ++
      ((tracePieces L c).flatten ++ ((shiftPieces L c).flatten ++ (tail ++ rest)))) ≠ [] := by
    simp [tail]
  rw [nbThawState, thawHead_frozen fits h.nonempty h.fresh h.usesCL more pieces,
    Option.bind_eq_bind, Option.bind_some]
  dsimp only
  rw [thawArrays_frozen fits h]
  exact thawCheck_frozen h written size _

/-! ## Only readable checkpoints are restored -/

omit c in
theorem thawBodies_cases {n : ℕ} {s : NBodyState R} {p p' : Bytes}
    (run : thawBodies L n st p = some (s, p')) :
    p.length = 2 * (n * L.body.size) + p'.length ∧ s.orbitTrace = st.orbitTrace ∧
      s.shiftByLMC = st.shiftByLMC := by
  simp only [thawBodies, Option.bind_eq_bind, Option.bind_eq_some_iff, Option.pure_def,
    Option.some.injEq, Prod.mk.injEq, Prod.exists] at run
  obtain ⟨bodies, q, first, best, q', second, rfl, rfl⟩ := run
  obtain ⟨rfl, length⟩ := get_eq_some first
  obtain ⟨rfl, length'⟩ := get_eq_some second
  refine ⟨?_, rfl, rfl⟩
  simp only [List.length_append]
  omega

omit c in
theorem thawTrace_cases {n : ℕ} {s : NBodyState R} {p p' : Bytes}
    (run : thawTrace L n st p = some (s, p')) (none : st.orbitTrace = none) :
    p.length = n * L.vector.size + p'.length ∧ entries s.orbitTrace = n ∧
      s.shiftByLMC = st.shiftByLMC := by
  unfold thawTrace at run
  split at run
  · simp only [Option.bind_eq_bind, Option.bind_eq_some_iff, Option.pure_def,
      Option.some.injEq, Prod.mk.injEq, Prod.exists] at run
    obtain ⟨bytes, q, first, rfl, rfl⟩ := run
    obtain ⟨rfl, length⟩ := get_eq_some first
    refine ⟨?_, L.vector.length_decodeArray n bytes, rfl⟩
    rw [List.length_append, length]
  · rename_i empty
    cases run
    have zero : n = 0 := by
      have := not_not.mp empty
      exact (Nat.mul_eq_zero.mp this).resolve_right L.vector_pos.ne'
    refine ⟨?_, ?_, rfl⟩
    · rw [zero, Nat.zero_mul, Nat.zero_add]
    · rw [none, zero]
      rfl

omit c in
theorem thawShift_cases {n : ℕ} {s : NBodyState R} {p p' : Bytes}
    (run : thawShift L n st p = some (s, p')) (none : st.shiftByLMC = none) :
    p.length = n * L.vector.size + (if n = 0 then 0 else 2 * L.vector.size) + p'.length ∧
      entries s.shiftByLMC = n ∧ s.orbitTrace = st.orbitTrace := by
  unfold thawShift at run
  split at run
  · rename_i some_
    simp only [Option.bind_eq_bind, Option.bind_eq_some_iff, Option.pure_def,
      Option.some.injEq, Prod.mk.injEq, Prod.exists] at run
    obtain ⟨bytes, q, first, pos, q', second, vel, q'', third, rfl, rfl⟩ := run
    obtain ⟨rfl, length⟩ := get_eq_some first
    obtain ⟨rfl, length'⟩ := get_eq_some second
    obtain ⟨rfl, length''⟩ := get_eq_some third
    have notZero : n ≠ 0 := fun zero => some_ (by rw [zero, Nat.zero_mul])
    refine ⟨?_, L.vector.length_decodeArray n bytes, rfl⟩
    rw [if_neg notZero]
    simp only [List.length_append]
    omega
  · rename_i empty
    cases run
    have zero : n = 0 := by
      have := not_not.mp empty
      exact (Nat.mul_eq_zero.mp this).resolve_right L.vector_pos.ne'
    refine ⟨?_, ?_, rfl⟩
    · rw [zero, if_pos rfl, Nat.zero_mul, Nat.zero_add]
    · rw [none, zero]
      rfl

omit c in
theorem thawCheck_cases {cpHdr : NBodyCheckpointHeader R} {sizeOfData : ℕ} {file p : Bytes}
    {r : Thawed R} (run : thawCheck L cpHdr sizeOfData st file p = some r)
    (ok : r.failed = false) : r.tailAt = file.length - p.length ∧ r.st = st := by
  unfold thawCheck at run
  simp only [Option.bind_eq_bind] at run
  split at run
  · cases run
    cases ok
  · rw [Option.bind_eq_some_iff] at run
    obtain ⟨found, -, run⟩ := run
    cases run
    cases found with
    | true => exact ⟨rfl, rfl⟩
    | false => cases ok

theorem thawHead_nonempty (fits : Fits L ctx c)
    {x : NBodyCheckpointHeader R × ℕ × NBodyState R × Bytes}
    {file p : Bytes} (written : file = L.header.encode (nbPrepareWriteCheckpointHeader L ctx c) ++
      (L.sizeT.encode (BitVec.ofNat 64 L.state.size) ++ (L.state.encode c ++ p)))
    (run : thawHead B L st file = some x) : B.ndebug ∨ 0 < c.bodytab.length := by
  by_contra empty
  have fails : ∀ s : NBodyState R, clonePartialNBodyState B s c.scalars = none := by
    intro s
    have first : B.assert (0 < c.scalars.nbody) = none := if_neg empty
    rw [clonePartialNBodyState, first, Option.bind_eq_bind, Option.bind_none]
  have size : (BitVec.ofNat 64 L.state.size).toNat = L.state.size := by
    rw [BitVec.toNat_ofNat, Nat.mod_eq_of_lt L.state_size]
  have first : get L.header.size file =
      some (L.header.encode (nbPrepareWriteCheckpointHeader L ctx c),
        L.sizeT.encode (BitVec.ofNat 64 L.state.size) ++ (L.state.encode c ++ p)) := by
    rw [written, L.header.get_encode]
  simp only [thawHead, first, L.sizeT.get_encode, L.sizeT.decode_encode _ L.state_size_fits, id_eq,
    size, L.state.get_encode, L.state.decode_encode c fits.state,
    L.header.decode_encode _ fits.header, Option.bind_eq_bind, Option.bind_some, fails,
    Option.bind_none, ite_self] at run
  rw [Option.bind_eq_some_iff] at run
  obtain ⟨_, -, run⟩ := run
  cases run

theorem thawArrays_cases {cpHdr : NBodyCheckpointHeader R} {s : NBodyState R} {p p' : Bytes}
    (run : thawArrays L cpHdr st p = some (s, p')) (noTrace : st.orbitTrace = none)
    (noShift : st.shiftByLMC = none) :
    p.length = 2 * (cpHdr.nbody.toNat * L.body.size) +
        cpHdr.nOrbitTrace.toNat * L.vector.size + cpHdr.nShiftLMC.toNat * L.vector.size +
        (if cpHdr.nShiftLMC.toNat = 0 then 0 else 2 * L.vector.size) + p'.length ∧
      entries s.orbitTrace = cpHdr.nOrbitTrace.toNat ∧
      entries s.shiftByLMC = cpHdr.nShiftLMC.toNat := by
  simp only [thawArrays, Option.bind_eq_bind, Option.bind_eq_some_iff, Prod.exists] at run
  obtain ⟨s₁, p₁, bodies, s₂, p₂, trace, shift⟩ := run
  obtain ⟨length₁, trace₁, shift₁⟩ := thawBodies_cases bodies
  obtain ⟨length₂, trace₂, shift₂⟩ := thawTrace_cases trace (trace₁.trans noTrace)
  obtain ⟨length₃, shift₃, trace₃⟩ := thawShift_cases shift
    (shift₂.trans (shift₁.trans noShift))
  refine ⟨by omega, ?_, shift₃⟩
  rw [trace₃]
  exact trace₂

end

/-! ## The round trip -/

/-- A new state to read a checkpoint into. -/
structure Fresh (st : NBodyState R) : Prop where
  bodytab : st.bodytab = []
  acctab : st.acctab = []
  orbitTrace : st.orbitTrace = none
  shiftByLMC : st.shiftByLMC = none

structure Restored (c st : NBodyState R) : Prop where
  step : st.step = c.step
  bodytab : st.bodytab = c.bodytab
  bestLikelihoodBodyTab : st.bestLikelihoodBodyTab = c.bestLikelihoodBodyTab
  rsize : st.rsize = c.rsize
  treeIncest : st.treeIncest = c.treeIncest
  orbitTrace : st.orbitTrace.getD [] = c.orbitTrace.getD []
  satellite : entries c.shiftByLMC ≠ 0 → st.shiftByLMC = c.shiftByLMC ∧
    st.LMCpos = c.LMCpos ∧ st.LMCvel = c.LMCvel

/-- Writing a checkpoint of `c` over a file stays within the file, and reading it into `st`
succeeds, looks for the end marker where it was written and restores `c` and `ctx`. -/
def RoundTrip (B : Build R) (L : Layout R) (ctx : NBodyCtx R) (c st : NBodyState R)
    (previous : Bytes) : Prop :=
  ∃ file tailAt r, nbWriteCheckpoint L ctx c previous = some (file, tailAt) ∧
    cpFileSize L c = some file.length ∧ nbThawState B L st file = some r ∧ r.failed = false ∧
    r.tailAt = tailAt ∧ r.ctx = ctx ∧ Restored c r.st

/-- The sizes of the state fit the types that count them, and there is no array of
accelerations without entries. -/
def Storable (B : Build R) (c : NBodyState R) : Prop :=
  c.bodytab.length < 2 ^ 30 ∧ entries c.orbitTrace < 2 ^ 32 ∧ entries c.shiftByLMC < 2 ^ 32 ∧
    c.shiftByLMC ≠ some [] ∧ (B.ndebug ∨ 0 < c.bodytab.length)

section
variable {B : Build R} {L : Layout R} {ctx : NBodyCtx R} {c st : NBodyState R} {previous : Bytes}

theorem RoundTrip.storable (fits : Fits L ctx c)
    (best : c.bestLikelihoodBodyTab.length = c.bodytab.length) (fresh : Fresh st)
    (usesCL : st.usesCL = c.usesCL) (trip : RoundTrip B L ctx c st previous) : Storable B c := by
  obtain ⟨file, tailAt, r, written, size, read, ok, place, -, restored⟩ := trip
  obtain ⟨rest, written', -⟩ := nbWriteCheckpoint_eq L ctx c best previous size
  rw [written', Option.some.injEq, Prod.mk.injEq] at written
  obtain ⟨rfl, rfl⟩ := written
  have bodies : c.bodytab.length < 2 ^ 30 := by
    unfold cpFileSize at size
    split at size
    · omega
    · cases size
  have pieces := frozen_eq L ctx c
  have length := length_frozen L ctx c best
  generalize hfile : frozen L ctx c ++ (tail ++ rest) = file at read size
  have split : file = L.header.encode (nbPrepareWriteCheckpointHeader L ctx c) ++
      (L.sizeT.encode (BitVec.ofNat 64 L.state.size) ++ (L.state.encode c ++
        (L.body.encodeArray c.bodytab ++ (L.body.encodeArray c.bestLikelihoodBodyTab ++
          ((tracePieces L c).flatten ++ ((shiftPieces L c).flatten ++ (tail ++ rest))))))) := by
    rw [← hfile, pieces]
    simp only [List.append_assoc]
  simp only [nbThawState, Option.bind_eq_bind, Option.bind_eq_some_iff, Prod.exists] at read
  obtain ⟨cpHdr, sizeOfData, s, p, head, s', p', arrays, check⟩ := read
  have nonempty := thawHead_nonempty fits split head
  have more : L.body.encodeArray c.bodytab ++ (L.body.encodeArray c.bestLikelihoodBodyTab ++
      ((tracePieces L c).flatten ++ ((shiftPieces L c).flatten ++ (tail ++ rest)))) ≠ [] := by
    simp [tail]
  rw [thawHead_frozen fits nonempty (.inr ⟨fresh.bodytab, fresh.acctab⟩) usesCL more split,
    Option.some.injEq, Prod.mk.injEq, Prod.mk.injEq, Prod.mk.injEq] at head
  obtain ⟨rfl, rfl, rfl, rfl⟩ := head
  obtain ⟨read, trace, shift⟩ := thawArrays_cases arrays fresh.orbitTrace fresh.shiftByLMC
  obtain ⟨at_, rfl⟩ := thawCheck_cases check ok
  have nbody : (nbPrepareWriteCheckpointHeader L ctx c).nbody.toNat = c.bodytab.length :=
    (BitVec.toNat_ofNat _ _).trans (Nat.mod_eq_of_lt (by omega))
  have traceFits : entries c.orbitTrace < 2 ^ 32 := by
    have counted := trace.trans (BitVec.toNat_ofNat _ _)
    rw [entries, restored.orbitTrace] at counted
    have := Nat.mod_lt (entries c.orbitTrace) (Nat.two_pow_pos 32)
    rw [entries] at this ⊢
    omega
  have shiftFits : entries c.shiftByLMC < 2 ^ 32 := by
    by_cases none : entries c.shiftByLMC = 0
    · rw [none]
      exact Nat.two_pow_pos 32
    · have counted := shift.trans (BitVec.toNat_ofNat _ _)
      rw [(restored.satellite none).1] at counted
      have := Nat.mod_lt (entries c.shiftByLMC) (Nat.two_pow_pos 32)
      omega
  refine ⟨bodies, traceFits, shiftFits, ?_, nonempty⟩
  intro emptyShift
  -- The satellite stands where the end marker is looked for.
  have nOrbitTrace : (nbPrepareWriteCheckpointHeader L ctx c).nOrbitTrace.toNat =
      entries c.orbitTrace := (BitVec.toNat_ofNat _ _).trans (Nat.mod_eq_of_lt traceFits)
  have zero : entries c.shiftByLMC = 0 := by rw [emptyShift]; rfl
  have nShiftLMC : (nbPrepareWriteCheckpointHeader L ctx c).nShiftLMC.toNat = 0 := by
    rw [nbPrepareWriteCheckpointHeader, zero]
    rfl
  have satellite : satelliteSize L c = 2 * L.vector.size :=
    if_neg (by rw [emptyShift]; exact nofun)
  have total : file.length = (frozen L ctx c).length + (tail.length + rest.length) := by
    rw [← hfile, List.length_append, List.length_append]
  have size := L.vector_pos
  rw [place] at at_
  simp only [List.length_append, Image.length_encodeArray, length_tracePieces,
    length_shiftPieces, best, nbody, nOrbitTrace, nShiftLMC, zero, satellite, if_true] at read
  omega

theorem Storable.thaws {file : Bytes} {tailAt : ℕ} (fits : Fits L ctx c)
    (best : c.bestLikelihoodBodyTab.length = c.bodytab.length) (fresh : Fresh st)
    (usesCL : st.usesCL = c.usesCL) (storable : Storable B c)
    (written : nbWriteCheckpoint L ctx c previous = some (file, tailAt)) :
    cpFileSize L c = some file.length ∧
      nbThawState B L st file = some ⟨false, ctx, thawed st c, tailAt⟩ := by
  obtain ⟨bodies, trace, shift, satellite, nonempty⟩ := storable
  have size : cpFileSize L c = some _ := if_pos (by omega)
  obtain ⟨rest, written', length⟩ := nbWriteCheckpoint_eq L ctx c best previous size
  rw [written', Option.some.injEq, Prod.mk.injEq] at written
  obtain ⟨rfl, rfl⟩ := written
  have readable : Readable B st c := ⟨by omega, best, trace, shift, satellite, nonempty,
    .inr ⟨fresh.bodytab, fresh.acctab⟩, usesCL⟩
  exact ⟨length ▸ size, nbThawState_frozen fits readable rfl (length ▸ size)⟩

theorem Storable.writes (L : Layout R) (ctx : NBodyCtx R) (previous : Bytes)
    (best : c.bestLikelihoodBodyTab.length = c.bodytab.length)
    (storable : Storable B c) :
    ∃ file tailAt, nbWriteCheckpoint L ctx c previous = some (file, tailAt) := by
  have size : cpFileSize L c = some _ := if_pos (by have := storable.1; omega)
  obtain ⟨rest, written, -⟩ := nbWriteCheckpoint_eq L ctx c best previous size
  exact ⟨_, _, written⟩

theorem Storable.roundTrip (fits : Fits L ctx c)
    (best : c.bestLikelihoodBodyTab.length = c.bodytab.length) (fresh : Fresh st)
    (usesCL : st.usesCL = c.usesCL) (storable : Storable B c) :
    RoundTrip B L ctx c st previous := by
  obtain ⟨file, tailAt, written⟩ := Storable.writes L ctx previous best storable
  obtain ⟨size, read⟩ := storable.thaws fits best fresh usesCL written
  refine ⟨_, _, _, written, size, read, rfl, rfl, rfl, rfl, rfl, rfl, rfl, rfl, ?_, ?_⟩
  · show (if entries c.orbitTrace = 0 then st.orbitTrace else c.orbitTrace).getD [] = _
    split
    · rename_i zero
      rw [fresh.orbitTrace, List.eq_nil_of_length_eq_zero zero]
      rfl
    · rfl
  · intro some_
    exact ⟨if_neg some_, if_neg some_, if_neg some_⟩

end

/-- A checkpoint is restored exactly when the state is storable. -/
theorem nbThawState_nbFreezeState (B : Build R) (L : Layout R) (ctx : NBodyCtx R)
    (c st : NBodyState R) (previous : Bytes) (fits : Fits L ctx c)
    (best : c.bestLikelihoodBodyTab.length = c.bodytab.length) (fresh : Fresh st)
    (usesCL : st.usesCL = c.usesCL) :
    RoundTrip B L ctx c st previous ↔ Storable B c :=
  ⟨fun trip => trip.storable fits best fresh usesCL,
    fun storable => storable.roundTrip fits best fresh usesCL⟩

/-- The state of one body at rest with an array of accelerations. -/
def lmcState (bodies : List (Body ℚ)) (shiftByLMC : Option (List (Vec3 ℚ))) : NBodyState ℚ where
  rsize := 4
  bodytab := bodies
  bestLikelihoodBodyTab := bodies
  acctab := []
  orbitTrace := none
  shiftByLMC
  LMCpos := 0
  LMCvel := 0
  best := ⟨0, 0, 0, 0, 0, 0, 0, 0, 0⟩
  previousForwardTime := 0

def bodyAtRest : Body ℚ := { pos := 0, mass := 1, vel := 0 }

/-- A layout for the values of one state. -/
def layoutOf [DecidableEq R] (ctx : NBodyCtx R) (c : NBodyState R) : Layout R where
  header := .only 2 ⟨hdr, 1, 0, BitVec.ofNat 32 c.bodytab.length, BitVec.ofNat 32 c.step, 8, 8,
    BitVec.ofNat 32 (entries c.orbitTrace), BitVec.ofNat 32 (entries c.shiftByLMC),
    if c.treeIncest then 1 else 0, c.rsize, ctx⟩
  sizeT := .only 8 3
  state := .only 3 c
  body := .table ⟨c.LMCpos, .wild, c.rsize, 0, 0, c.LMCvel⟩ (c.bodytab ++ c.bestLikelihoodBodyTab)
  vector := .table c.LMCpos
    (c.LMCpos :: c.LMCvel :: (c.orbitTrace.getD [] ++ c.shiftByLMC.getD []))
  realSize := 8
  ptrSize := 8
  majorVersion := 1
  minorVersion := 0
  state_size := show 3 < 2 ^ 64 by norm_num
  state_size_fits := rfl
  vector_pos := Nat.succ_pos _

theorem layoutOf_fits [DecidableEq R] (ctx : NBodyCtx R) (c : NBodyState R) :
    Fits (layoutOf ctx c) ctx c where
  header := rfl
  state := rfl
  bodies _ h := List.mem_append_left _ h
  best _ h := List.mem_append_right _ h
  trace _ h := List.mem_cons_of_mem _ (List.mem_cons_of_mem _ (List.mem_append_left _ h))
  shift _ h := List.mem_cons_of_mem _ (List.mem_cons_of_mem _ (List.mem_append_right _ h))
  LMCpos := List.mem_cons_self
  LMCvel := List.mem_cons_of_mem _ List.mem_cons_self

theorem lmc_fresh : Fresh (lmcState [] none) := ⟨rfl, rfl, rfl, rfl⟩

theorem nbThawState_nbFreezeState_one :
    RoundTrip rowBuild (layoutOf rowCtx (lmcState [bodyAtRest] (some [0]))) rowCtx
      (lmcState [bodyAtRest] (some [0])) (lmcState [] none) [] := by
  have fits := layoutOf_fits rowCtx (lmcState [bodyAtRest] (some [0]))
  refine (nbThawState_nbFreezeState rowBuild _ rowCtx _ (lmcState [] none) [] fits rfl lmc_fresh
    rfl).mpr ⟨?_, ?_, ?_, nofun, .inr Nat.one_pos⟩
  · show 1 < 2 ^ 30
    norm_num
  · show 0 < 2 ^ 32
    norm_num
  · show 1 < 2 ^ 32
    norm_num

/-- With a satellite and an array without entries the end marker is missed. -/
theorem nbThawState_missed :
    ¬RoundTrip rowBuild (layoutOf rowCtx (lmcState [bodyAtRest] (some []))) rowCtx
      (lmcState [bodyAtRest] (some [])) (lmcState [] none) [] := by
  have fits := layoutOf_fits rowCtx (lmcState [bodyAtRest] (some []))
  intro trip
  exact (trip.storable fits rfl lmc_fresh rfl).2.2.2.1 rfl

end MilkyWay.NBody
