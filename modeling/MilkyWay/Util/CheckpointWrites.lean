import MilkyWay.NBody.Checkpoint
import MilkyWay.Separation.CheckpointFile

/-! Writing a checkpoint when calls of the system fail. Both programs write to a temporary file
and rename it over the checkpoint. The N-body program stops before the renaming whatever has
failed: `nbWriteCheckpointWithTmpFile_keeps`. The separation program looks at the opening and
the renaming only: `checkpoints_keep_iff`. -/

namespace MilkyWay.Util.CheckpointWrites

open Foundation

/-! ## Replacing a file -/

structure Disk where
  checkpoint : Option Bytes
  tmp : Option Bytes

inductive Ending where
  | returned (failed : Bool)
  | killed
deriving DecidableEq

def mw_rename (works : Bool) (disk : Disk) : Bool × Disk :=
  if works then (false, ⟨disk.tmp, none⟩) else (true, disk)

/-- The checkpoint is the old one or a complete new one, and it is a new one and nothing has
failed if no failure is returned. -/
structure Keeps (complete : Bytes → Prop) (succeeded : Prop) (old : Option Bytes)
    (r : Ending × Disk) : Prop where
  checkpoint : r.2.checkpoint = old ∨ ∃ file, complete file ∧ r.2.checkpoint = some file
  reported : r.1 = .returned false →
    succeeded ∧ ∃ file, complete file ∧ r.2.checkpoint = some file

section
variable {complete : Bytes → Prop} {succeeded : Prop} {old : Option Bytes}

theorem keeps_old {r : Ending × Disk} (same : r.2.checkpoint = old)
    (ending : r.1 ≠ .returned false) : Keeps complete succeeded old r :=
  ⟨.inl same, fun returned => absurd returned ending⟩

theorem keeps_rename {disk : Disk} {file : Bytes} {works : Bool} (same : disk.checkpoint = old)
    (written : disk.tmp = some file) (done : complete file) (all : works = true → succeeded) :
    Keeps complete succeeded old
      (.returned (mw_rename works disk).1, (mw_rename works disk).2) := by
  cases works with
  | false => exact keeps_old same nofun
  | true => exact ⟨.inr ⟨file, done, written⟩, fun _ => ⟨all rfl, file, done, written⟩⟩

end

/-! ## The N-body program -/

structure OpenCalls where
  opens : Bool
  fstats : Bool
  isRegular : Bool
  truncates : Bool
  maps : Bool

structure CloseCalls where
  fstats : Bool
  closes : Bool
  unmaps : Bool

def OpenCalls.succeed (calls : OpenCalls) : Bool :=
  calls.opens && calls.fstats && calls.isRegular && calls.truncates && calls.maps

def CloseCalls.succeed (calls : CloseCalls) : Bool := calls.fstats && calls.closes && calls.unmaps

structure CheckpointHandle where
  fd : Bool
  mptr : Option Bytes

def EMPTY_CHECKPOINT_HANDLE : CheckpointHandle := ⟨false, none⟩

/-- A file that is not there is made, one that is there gets the size and keeps its bytes. -/
def nbOpenCheckpointHandle (cpFileSize : ℕ) (calls : OpenCalls) (cp : CheckpointHandle)
    (tmp : Option Bytes) : Bool × CheckpointHandle × Option Bytes :=
  if !calls.opens then (true, { cp with fd := false }, tmp)
  else
    let file := tmp.getD []
    let cp := { cp with fd := true }
    if !calls.fstats then (true, cp, some file)
    else if !calls.isRegular then (true, cp, some file)
    else if !calls.truncates then (true, cp, some file)
    else
      let file := (file ++ List.replicate cpFileSize 0).take cpFileSize
      if !calls.maps then (true, { cp with mptr := none }, some file)
      else (false, { cp with mptr := some file }, some file)

def nbCloseCheckpointHandle (calls : CloseCalls) (cp : CheckpointHandle) : Bool :=
  if cp.fd then
    if !calls.fstats then true
    else if !calls.closes then true
    else cp.mptr.isSome && !calls.unmaps
  else false

/-- The tries that are left, each with calls of its own. -/
def nbOpenCheckpointHandleWithAttempts (cpFileSize : ℕ) (calls : ℕ → OpenCalls × CloseCalls) :
    ℕ → ℕ → CheckpointHandle → Option Bytes → Bool × CheckpointHandle × Option Bytes
  | 0, _, cp, tmp => (true, cp, tmp)
  | left + 1, tries, cp, tmp =>
      match nbOpenCheckpointHandle cpFileSize (calls tries).1 cp tmp with
      | (false, cp, tmp) => (false, cp, tmp)
      | (true, cp, tmp) =>
          if nbCloseCheckpointHandle (calls tries).2 cp then (true, cp, tmp)
          else nbOpenCheckpointHandleWithAttempts cpFileSize calls left (tries + 1) cp tmp

def maxTries : ℕ := 5

/-- The calls of a write; the process can be killed once some bytes are copied, when the file
has no room for a page of the mapping. -/
structure NBodyCalls where
  tries : ℕ → OpenCalls × CloseCalls
  busError : Option ℕ
  close : CloseCalls
  renames : Bool

/-- Nothing fails but tries that are made again. -/
def NBodyCalls.Succeed (calls : NBodyCalls) : Prop :=
  (∃ t < maxTries, (calls.tries t).1.succeed = true) ∧ calls.busError = none ∧
    calls.close.succeed = true ∧ calls.renames = true

section
variable {R : Type} (L : NBody.Layout R) (ctx : NBody.NBodyCtx R) (st : NBody.NBodyState R)

/-- A size that an int does not keep and a write beyond the mapping end the process, too. -/
def nbWriteCheckpointWithTmpFile (calls : NBodyCalls) (disk : Disk) : Ending × Disk :=
  match NBody.cpFileSize L st with
  | none => (.killed, disk)
  | some cpFileSize =>
      let (failed, cp, tmp) := nbOpenCheckpointHandleWithAttempts cpFileSize calls.tries maxTries 0
        EMPTY_CHECKPOINT_HANDLE disk.tmp
      if failed then (.returned true, { disk with tmp })
      else
        let mptr := cp.mptr.getD []
        match NBody.nbFreezeState L ctx st mptr with
        | none => (.killed, { disk with tmp })
        | some (file, _) =>
            match calls.busError with
            | some n => (.killed, { disk with tmp := some (file.take n ++ mptr.drop n) })
            | none =>
                let disk := { disk with tmp := some file }
                if nbCloseCheckpointHandle calls.close cp then (.returned true, disk)
                else
                  let (failed, disk) := mw_rename calls.renames disk
                  (.returned failed, disk)

/-- A file of the state, over whatever was in the file before. -/
def IsCheckpoint (file : Bytes) : Prop :=
  ∃ previous place, NBody.nbWriteCheckpoint L ctx st previous = some (file, place)

variable {L ctx st}

theorem opened_of_handle {cpFileSize : ℕ} {calls : OpenCalls} {cp cp' : CheckpointHandle}
    {tmp tmp' : Option Bytes}
    (opened : nbOpenCheckpointHandle cpFileSize calls cp tmp = (false, cp', tmp')) :
    calls.succeed = true ∧ cp'.fd = true ∧ ∃ previous : Bytes,
      cp'.mptr = some ((previous ++ List.replicate cpFileSize 0).take cpFileSize) := by
  obtain ⟨opens, fstats, isRegular, truncates, maps⟩ := calls
  cases opens <;> cases fstats <;> cases isRegular <;> cases truncates <;> cases maps <;>
    simp [nbOpenCheckpointHandle] at opened
  obtain ⟨rfl, -⟩ := opened
  exact ⟨rfl, rfl, tmp.getD [], rfl⟩

theorem opened_of_attempts {cpFileSize : ℕ} {calls : ℕ → OpenCalls × CloseCalls} {left tries : ℕ}
    {cp cp' : CheckpointHandle} {tmp tmp' : Option Bytes}
    (opened : nbOpenCheckpointHandleWithAttempts cpFileSize calls left tries cp tmp =
      (false, cp', tmp')) :
    (∃ t < tries + left, (calls t).1.succeed = true) ∧ cp'.fd = true ∧ ∃ previous : Bytes,
      cp'.mptr = some ((previous ++ List.replicate cpFileSize 0).take cpFileSize) := by
  induction left generalizing tries cp tmp with
  | zero => simp [nbOpenCheckpointHandleWithAttempts] at opened
  | succ left ih =>
      rw [nbOpenCheckpointHandleWithAttempts] at opened
      split at opened
      · rename_i cp₁ tmp₁ here
        cases opened
        obtain ⟨works, mapped⟩ := opened_of_handle here
        exact ⟨⟨tries, by omega, works⟩, mapped⟩
      · split at opened
        · cases opened
        · obtain ⟨⟨t, lt, works⟩, mapped⟩ := ih opened
          exact ⟨⟨t, by omega, works⟩, mapped⟩

theorem succeed_of_close {calls : CloseCalls} {cp : CheckpointHandle} (fd : cp.fd = true)
    (mapped : cp.mptr.isSome) (closed : nbCloseCheckpointHandle calls cp = false) :
    calls.succeed = true := by
  obtain ⟨fstats, closes, unmaps⟩ := calls
  cases fstats <;> cases closes <;> cases unmaps <;>
    simp [nbCloseCheckpointHandle, CloseCalls.succeed, fd, mapped] at closed ⊢

/-- Whatever fails, the N-body program keeps a checkpoint and reports the failure. -/
theorem nbWriteCheckpointWithTmpFile_keeps (calls : NBodyCalls) (disk : Disk) :
    Keeps (IsCheckpoint L ctx st) calls.Succeed disk.checkpoint
      (nbWriteCheckpointWithTmpFile L ctx st calls disk) := by
  unfold nbWriteCheckpointWithTmpFile
  split
  · exact keeps_old rfl (by simp)
  · rename_i cpFileSize size
    split
    rename_i failed cp tmp attempts
    split
    · exact keeps_old rfl (by simp)
    · rename_i works
      rw [Bool.not_eq_true] at works
      subst works
      obtain ⟨tried, fd, previous, mapped⟩ := opened_of_attempts attempts
      rw [Nat.zero_add] at tried
      dsimp only
      split
      · exact keeps_old rfl (by simp)
      · rename_i file place frozen
        split
        · exact keeps_old rfl (by simp)
        · rename_i copied
          have done : IsCheckpoint L ctx st file := by
            refine ⟨previous, place, ?_⟩
            rw [mapped, Option.getD_some] at frozen
            simp [NBody.nbWriteCheckpoint, NBody.nbOpenCheckpointHandle, size, frozen]
          split
          · exact keeps_old rfl (by simp)
          · rename_i closed
            rw [Bool.not_eq_true] at closed
            refine keeps_rename rfl rfl done fun renames => ⟨tried, copied, ?_, renames⟩
            exact succeed_of_close fd (by rw [mapped]; rfl) closed

end

/-! ## The separation program -/

/-- The calls of a write. A call that fails has written some bytes only. -/
structure StreamCalls where
  opens : Bool
  fwrite : ℕ → Option ℕ
  fclose : Option ℕ
  renames : Bool

/-- What a call passes on, all of it unless the call fails. -/
def passed (fails : Option ℕ) (bytes : Bytes) : Bytes :=
  match fails with
  | none => bytes
  | some n => bytes.take n

def fwriteAll (fwrite : ℕ → Option ℕ) : ℕ → List Bytes → Bytes
  | _, [] => []
  | k, piece :: pieces => passed (fwrite k) piece ++ fwriteAll fwrite (k + 1) pieces

theorem fwriteAll_eq {fwrite : ℕ → Option ℕ} {pieces : List Bytes} {k : ℕ}
    (works : ∀ i < pieces.length, fwrite (k + i) = none) :
    fwriteAll fwrite k pieces = pieces.flatten := by
  induction pieces generalizing k with
  | nil => rfl
  | cons piece pieces ih =>
      have first : fwrite k = none := works 0 (Nat.succ_pos _)
      rw [fwriteAll, List.flatten_cons, first, ih fun i lt => ?_]
      · rfl
      · rw [Nat.add_right_comm]
        exact works (i + 1) (Nat.succ_lt_succ lt)

section
variable {R : Type} (L : Separation.CheckpointFile.Layout R)

def cutPieces (c : Separation.Cut R) : List Bytes :=
  [L.real.encode c.bgIntegral, L.real.encodeArray c.streamIntegrals]

/-- What is written for a state, call by call. -/
def statePieces (es : Separation.EvaluationState R) : List Bytes :=
  [Separation.CheckpointFile.checkpoint_header, L.version.encode L.versionHeader,
    L.int.encode es.currentWU, L.flag.encode es.WUPrinted, L.int.encode es.currentCut,
    L.unsigned.encode es.nu_step, L.unsigned.encode es.mu_step, L.kahan.encode es.bgSum,
    L.kahan.encodeArray es.streamSums, L.unsigned.encode es.lastCheckpointNuStep,
    L.kahan.encode es.bgSumCheckpoint, L.kahan.encodeArray es.streamSumsCheckpoint] ++
  (es.cuts.flatMap (cutPieces L) ++ [Separation.CheckpointFile.checkpoint_tail])

theorem flatten_statePieces (es : Separation.EvaluationState R) :
    (statePieces L es).flatten = Separation.CheckpointFile.writeState L es := by
  have cuts : (es.cuts.flatMap (cutPieces L)).flatten =
      es.cuts.flatMap (Separation.CheckpointFile.writeCut L) := by
    induction es.cuts with
    | nil => rfl
    | cons c cuts ih =>
        rw [List.flatMap_cons, List.flatMap_cons, List.flatten_append, ih]
        simp [cutPieces, Separation.CheckpointFile.writeCut]
  simp [statePieces, cuts, Separation.CheckpointFile.writeState,
    Separation.CheckpointFile.writeFields]

/-- Neither a call of `fwrite` nor closing the stream fails. -/
def StreamCalls.Writes (calls : StreamCalls) (pieces : List Bytes) : Prop :=
  (∀ k < pieces.length, calls.fwrite k = none) ∧ calls.fclose = none

def StreamCalls.Succeed (calls : StreamCalls) (pieces : List Bytes) : Prop :=
  calls.opens = true ∧ calls.Writes pieces ∧ calls.renames = true

/-- Nothing that `fwrite` and `fclose` return is looked at. -/
def writeCheckpoint (calls : StreamCalls) (es : Separation.EvaluationState R) (disk : Disk) :
    Ending × Disk :=
  if !calls.opens then (.returned true, disk)
  else
    let es := Separation.writeCheckpoint es
    let file := passed calls.fclose (fwriteAll calls.fwrite 0 (statePieces L es))
    let (failed, disk) := mw_rename calls.renames { disk with tmp := some file }
    (.returned failed, disk)

variable {L} {calls : StreamCalls} {es : Separation.EvaluationState R}

theorem writeCheckpoint_keeps_iff (disk : Disk) :
    Keeps (· = (Separation.CheckpointFile.writeCheckpoint L es).1)
        (calls.Succeed (statePieces L (Separation.writeCheckpoint es))) disk.checkpoint
        (writeCheckpoint L calls es disk) ↔
      calls.opens = false ∨ calls.renames = false ∨
        calls.Writes (statePieces L (Separation.writeCheckpoint es)) := by
  unfold writeCheckpoint
  cases opens : calls.opens with
  | false => exact ⟨fun _ => .inl rfl, fun _ => keeps_old rfl nofun⟩
  | true =>
      cases renames : calls.renames with
      | false => exact ⟨fun _ => .inr (.inl rfl), fun _ => keeps_old rfl nofun⟩
      | true =>
          constructor
          · intro keeps
            exact .inr (.inr (keeps.reported rfl).1.2.1)
          · intro works
            have writes := (works.resolve_left nofun).resolve_left nofun
            obtain ⟨each, flushed⟩ := id writes
            have file : passed calls.fclose (fwriteAll calls.fwrite 0
                (statePieces L (Separation.writeCheckpoint es))) =
                  (Separation.CheckpointFile.writeCheckpoint L es).1 := by
              rw [flushed, fwriteAll_eq fun i lt => by rw [Nat.zero_add]; exact each i lt,
                flatten_statePieces]
              rfl
            exact @keeps_rename _ _ _ { disk with tmp := some (passed calls.fclose _) } _ true rfl
              rfl file fun _ => ⟨opens, writes, renames⟩

end

/-- Both programs keep a checkpoint and report what fails just where the separation program
cannot open or rename its temporary file, or writes and closes it without a failure. -/
theorem checkpoints_keep_iff {R R' : Type} (L : NBody.Layout R) (ctx : NBody.NBodyCtx R)
    (st : NBody.NBodyState R) (calls : NBodyCalls) (disk : Disk)
    (L' : Separation.CheckpointFile.Layout R') (es : Separation.EvaluationState R')
    (calls' : StreamCalls) (disk' : Disk) :
    Keeps (IsCheckpoint L ctx st) calls.Succeed disk.checkpoint
          (nbWriteCheckpointWithTmpFile L ctx st calls disk) ∧
        Keeps (· = (Separation.CheckpointFile.writeCheckpoint L' es).1)
          (calls'.Succeed (statePieces L' (Separation.writeCheckpoint es))) disk'.checkpoint
          (writeCheckpoint L' calls' es disk') ↔
      calls'.opens = false ∨ calls'.renames = false ∨
        calls'.Writes (statePieces L' (Separation.writeCheckpoint es)) := by
  rw [← writeCheckpoint_keeps_iff disk']
  exact and_iff_right (nbWriteCheckpointWithTmpFile_keeps calls disk)

/-- A disk without room: nothing that is written arrives, and an empty file takes the place of
the checkpoint without a failure being returned. -/
theorem writeCheckpoint_full :
    let calls : StreamCalls := ⟨true, fun _ => none, some 0, true⟩
    let L := Separation.CheckpointFile.smallLayout
    let es := Separation.CheckpointFile.sixthUnit
    let old := (Separation.CheckpointFile.writeCheckpoint L
      Separation.CheckpointFile.newState).1
    writeCheckpoint L calls es ⟨some old, none⟩ = (.returned false, ⟨some [], none⟩) ∧
      ¬Keeps (· = (Separation.CheckpointFile.writeCheckpoint L es).1)
        (calls.Succeed (statePieces L (Separation.writeCheckpoint es))) (some old)
        (writeCheckpoint L calls es ⟨some old, none⟩) := by
  have ending : writeCheckpoint Separation.CheckpointFile.smallLayout
      ⟨true, fun _ => none, some 0, true⟩ Separation.CheckpointFile.sixthUnit
      ⟨some (Separation.CheckpointFile.writeCheckpoint Separation.CheckpointFile.smallLayout
        Separation.CheckpointFile.newState).1, none⟩ = (.returned false, ⟨some [], none⟩) := rfl
  refine ⟨ending, fun keeps => ?_⟩
  have flushed := (keeps.reported (congrArg Prod.fst ending)).1.2.1.2
  cases flushed

end MilkyWay.Util.CheckpointWrites
