import MilkyWay.Foundation.Stream
import MilkyWay.Separation.EvaluationState

/-! The checkpoint file of an evaluation byte by byte: what is written, and what becomes of
a state when a file is read into it. -/

namespace MilkyWay.Separation.CheckpointFile

open Foundation

structure SeparationVersionHeader where
  major : ℕ
  minor : ℕ
  cl : Bool
  cal : Bool
deriving DecidableEq

/-- How values stand in memory, and the version of the program. -/
structure Layout (R : Type) where
  version : Codec SeparationVersionHeader
  int : Codec ℕ
  flag : Codec Bool
  unsigned : Codec ℕ
  kahan : Codec (Kahan R)
  real : Codec R
  versionHeader : SeparationVersionHeader

/-- What is in the memory of a function before it writes there. -/
structure Stale where
  str_buf : Bytes
  version : SeparationVersionHeader

def header : List Char :=
  ['s', 'e', 'p', 'a', 'r', 'a', 't', 'i', 'o', 'n', '_', 'c', 'h', 'e', 'c', 'k', 'p', 'o', 'i',
    'n', 't']

def tail : List Char :=
  ['e', 'n', 'd', '_', 'c', 'h', 'e', 'c', 'k', 'p', 'o', 'i', 'n', 't']

def bytesOf (s : List Char) : Bytes := s.map (fun c => UInt8.ofNat c.toNat) ++ [0]

def checkpoint_header : Bytes := bytesOf header

def checkpoint_tail : Bytes := bytesOf tail

variable {R : Type} (L : Layout R)

def versionMismatch (v : SeparationVersionHeader) : Bool :=
  v.major != L.versionHeader.major || v.minor != L.versionHeader.minor

def readCut (c : Cut R) (f : Bytes) : Cut R × Bytes :=
  let (bgIntegral, f) := L.real.fread c.bgIntegral f
  let (streamIntegrals, f) := L.real.freadArray c.streamIntegrals f
  (⟨bgIntegral, streamIntegrals⟩, f)

def readCuts : List (Cut R) → Bytes → List (Cut R) × Bytes
  | [], f => ([], f)
  | c :: cuts, f =>
    let (c, f) := readCut L c f
    let (cuts, f) := readCuts cuts f
    (c :: cuts, f)

def readFields (es : EvaluationState R) (f : Bytes) : EvaluationState R × Bytes :=
  let (currentWU, f) := L.int.fread es.currentWU f
  let (WUPrinted, f) := L.flag.fread es.WUPrinted f
  let (currentCut, f) := L.int.fread es.currentCut f
  let (nu_step, f) := L.unsigned.fread es.nu_step f
  let (mu_step, f) := L.unsigned.fread es.mu_step f
  let (bgSum, f) := L.kahan.fread es.bgSum f
  let (streamSums, f) := L.kahan.freadArray es.streamSums f
  let (lastCheckpointNuStep, f) := L.unsigned.fread es.lastCheckpointNuStep f
  let (bgSumCheckpoint, f) := L.kahan.fread es.bgSumCheckpoint f
  let (streamSumsCheckpoint, f) := L.kahan.freadArray es.streamSumsCheckpoint f
  let (cuts, f) := readCuts L es.cuts f
  ({ currentWU, WUPrinted, cuts, nu_step, mu_step, bgSum, streamSums, bgSumCheckpoint,
     streamSumsCheckpoint, lastCheckpointNuStep, currentCut }, f)

def readState (stale : Stale) (f : Bytes) (es : EvaluationState R) : ℕ × EvaluationState R :=
  let (str_buf, f) := freadBytes checkpoint_header.length stale.str_buf f
  if strncmp str_buf checkpoint_header ≠ some true then (1, es)
  else
    let (version, f) := L.version.fread stale.version f
    if versionMismatch L version then (1, es)
    else
      let (es, f) := readFields L es f
      let (str_buf, _) := freadBytes checkpoint_tail.length str_buf f
      if strncmp str_buf checkpoint_tail ≠ some true then (1, es) else (0, es)

/-- Reads the checkpoint, if there is a file. -/
def readCheckpoint [Zero R] [Add R] [Sub R] (stale : Stale) (file : Option Bytes)
    (es : EvaluationState R) : ℕ × EvaluationState R :=
  match file with
  | none => (1, es)
  | some f =>
    let (rc, es) := readState L stale f es
    (rc, addTmpCheckpointSums es)

def writeCut (c : Cut R) : Bytes :=
  L.real.encode c.bgIntegral ++ L.real.encodeArray c.streamIntegrals

def writeFields (es : EvaluationState R) : Bytes :=
  L.int.encode es.currentWU ++ (L.flag.encode es.WUPrinted ++ (L.int.encode es.currentCut ++
    (L.unsigned.encode es.nu_step ++ (L.unsigned.encode es.mu_step ++ (L.kahan.encode es.bgSum ++
    (L.kahan.encodeArray es.streamSums ++ (L.unsigned.encode es.lastCheckpointNuStep ++
    (L.kahan.encode es.bgSumCheckpoint ++ (L.kahan.encodeArray es.streamSumsCheckpoint ++
    es.cuts.flatMap (writeCut L))))))))))

def writeState (es : EvaluationState R) : Bytes :=
  checkpoint_header ++ (L.version.encode L.versionHeader ++ (writeFields L es ++ checkpoint_tail))

/-- The file of a checkpoint and the state, which keeps the step. -/
def writeCheckpoint (es : EvaluationState R) : Bytes × EvaluationState R :=
  let es := Separation.writeCheckpoint es
  (writeState L es, es)

/-! ## Shape and size -/

/-- A state allocated for a number of cuts and one of streams. -/
structure Shaped (cuts streams : ℕ) (es : EvaluationState R) : Prop where
  cuts : es.cuts.length = cuts
  streamIntegrals : ∀ c ∈ es.cuts, c.streamIntegrals.length = streams
  streamSums : es.streamSums.length = streams
  streamSumsCheckpoint : es.streamSumsCheckpoint.length = streams

def Layout.fieldsSize (cuts streams : ℕ) : ℕ :=
  L.int.size + L.flag.size + L.int.size + L.unsigned.size + L.unsigned.size + L.kahan.size +
    streams * L.kahan.size + L.unsigned.size + L.kahan.size + streams * L.kahan.size +
    cuts * (L.real.size + streams * L.real.size)

theorem shaped_new [Zero R] (ap : AstronomyParameters R) :
    Shaped ap.number_integrals ap.number_streams (newEvaluationState ap) where
  cuts := List.length_replicate
  streamIntegrals c mem := by
    rw [List.eq_of_mem_replicate mem]
    exact List.length_replicate
  streamSums := List.length_replicate
  streamSumsCheckpoint := List.length_replicate

variable {L}

theorem readCuts_rest {cuts : List (Cut R)} {streams : ℕ}
    (shaped : ∀ c ∈ cuts, c.streamIntegrals.length = streams) (f : Bytes) :
    (readCuts L cuts f).2 = f.drop (cuts.length * (L.real.size + streams * L.real.size)) ∧
      (readCuts L cuts f).1.length = cuts.length ∧
      ∀ c ∈ (readCuts L cuts f).1, c.streamIntegrals.length = streams := by
  induction cuts generalizing f with
  | nil => simp [readCuts]
  | cons c cuts ih =>
      obtain ⟨this, others⟩ := List.forall_mem_cons.mp shaped
      obtain ⟨rest, length⟩ := L.real.freadArray_rest c.streamIntegrals (f.drop L.real.size)
      obtain ⟨rest', length', shaped'⟩ := ih others
        (L.real.freadArray c.streamIntegrals (f.drop L.real.size)).2
      refine ⟨?_, congrArg (· + 1) length', ?_⟩
      · change (readCuts L cuts (L.real.freadArray c.streamIntegrals (f.drop L.real.size)).2).2 = _
        rw [rest', rest, List.drop_drop, List.drop_drop, this, List.length_cons, Nat.succ_mul]
        congr 1
        omega
      · exact List.forall_mem_cons.mpr ⟨length.trans this, shaped'⟩

theorem readFields_shaped {cuts streams : ℕ} {es : EvaluationState R}
    (shaped : Shaped cuts streams es) (f : Bytes) :
    (readFields L es f).2 = f.drop (L.fieldsSize cuts streams) ∧
      Shaped cuts streams (readFields L es f).1 := by
  have sums := fun f => L.kahan.freadArray_rest es.streamSums f
  have kept := fun f => L.kahan.freadArray_rest es.streamSumsCheckpoint f
  have integrals := fun f => readCuts_rest (L := L) shaped.streamIntegrals f
  constructor
  · dsimp only [readFields, Image.fread_rest]
    rw [(integrals _).1, (kept _).1]
    simp only [List.drop_drop]
    rw [(sums _).1]
    simp only [List.drop_drop]
    rw [shaped.streamSums, shaped.streamSumsCheckpoint, shaped.cuts]
    unfold Layout.fieldsSize
    congr 1
    omega
  · exact ⟨(integrals _).2.1.trans shaped.cuts, (integrals _).2.2,
      (sums _).2.trans shaped.streamSums, (kept _).2.trans shaped.streamSumsCheckpoint⟩

/-! ## What has been written is read -/

/-- Values that stand in memory as they are. -/
structure Storable (L : Layout R) (es : EvaluationState R) : Prop where
  version : L.version.fits L.versionHeader
  currentWU : L.int.fits es.currentWU
  WUPrinted : L.flag.fits es.WUPrinted
  currentCut : L.int.fits es.currentCut
  nu_step : L.unsigned.fits es.nu_step
  mu_step : L.unsigned.fits es.mu_step
  bgSum : L.kahan.fits es.bgSum
  streamSums : ∀ sum ∈ es.streamSums, L.kahan.fits sum
  lastCheckpointNuStep : L.unsigned.fits es.lastCheckpointNuStep
  bgSumCheckpoint : L.kahan.fits es.bgSumCheckpoint
  streamSumsCheckpoint : ∀ sum ∈ es.streamSumsCheckpoint, L.kahan.fits sum
  bgIntegral : ∀ c ∈ es.cuts, L.real.fits c.bgIntegral
  streamIntegrals : ∀ c ∈ es.cuts, ∀ x ∈ c.streamIntegrals, L.real.fits x

theorem readCuts_writeCut {cuts olds : List (Cut R)} {streams : ℕ}
    (length : olds.length = cuts.length)
    (shaped : ∀ c ∈ olds, c.streamIntegrals.length = streams)
    (shaped' : ∀ c ∈ cuts, c.streamIntegrals.length = streams)
    (bg : ∀ c ∈ cuts, L.real.fits c.bgIntegral)
    (stream : ∀ c ∈ cuts, ∀ x ∈ c.streamIntegrals, L.real.fits x) (f : Bytes) :
    readCuts L olds (cuts.flatMap (writeCut L) ++ f) = (cuts, f) := by
  induction cuts generalizing olds with
  | nil =>
      obtain rfl := List.length_eq_zero_iff.mp length
      rfl
  | cons c cuts ih =>
      obtain ⟨old, olds, rfl⟩ := List.exists_cons_of_length_eq_add_one length
      obtain ⟨this, others⟩ := List.forall_mem_cons.mp shaped
      obtain ⟨this', others'⟩ := List.forall_mem_cons.mp shaped'
      have rest := ih (Nat.succ.inj length) others others' (List.forall_mem_cons.mp bg).2
        (List.forall_mem_cons.mp stream).2
      simp only [List.flatMap_cons, writeCut, List.append_assoc] at rest ⊢
      simp only [readCuts, readCut, L.real.fread_encode (List.forall_mem_cons.mp bg).1,
        L.real.freadArray_encodeArray (List.forall_mem_cons.mp stream).1 (this.trans this'.symm),
        rest]

variable {cuts streams : ℕ} {es es₀ : EvaluationState R}

theorem readFields_writeFields (shaped : Shaped cuts streams es₀) (shaped' : Shaped cuts streams es)
    (storable : Storable L es) (f : Bytes) :
    readFields L es₀ (writeFields L es ++ f) = (es, f) := by
  have kahans := L.kahan.freadArray_encodeArray storable.streamSums
    (shaped.streamSums.trans shaped'.streamSums.symm)
  have kept := L.kahan.freadArray_encodeArray storable.streamSumsCheckpoint
    (shaped.streamSumsCheckpoint.trans shaped'.streamSumsCheckpoint.symm)
  have integrals := readCuts_writeCut (shaped.cuts.trans shaped'.cuts.symm) shaped.streamIntegrals
    shaped'.streamIntegrals storable.bgIntegral storable.streamIntegrals
  simp only [readFields, writeFields, List.append_assoc, L.int.fread_encode storable.currentWU,
    L.flag.fread_encode storable.WUPrinted, L.int.fread_encode storable.currentCut,
    L.unsigned.fread_encode storable.nu_step, L.unsigned.fread_encode storable.mu_step,
    L.kahan.fread_encode storable.bgSum, kahans,
    L.unsigned.fread_encode storable.lastCheckpointNuStep,
    L.kahan.fread_encode storable.bgSumCheckpoint, kept, integrals]

theorem freadBytes_append (old bytes f : Bytes) :
    freadBytes bytes.length old (bytes ++ f) = (bytes ++ old.drop bytes.length, f) := by
  have all : min bytes.length (bytes ++ f).length = bytes.length := by
    rw [List.length_append]
    omega
  rw [freadBytes, List.take_left, List.drop_left, all]

theorem header_nonzero : ∀ a ∈ header.map (fun c => UInt8.ofNat c.toNat), a ≠ 0 := by
  decide +kernel

theorem tail_nonzero : ∀ a ∈ tail.map (fun c => UInt8.ofNat c.toNat), a ≠ 0 := by
  decide +kernel

theorem readState_writeState (stale : Stale) (shaped : Shaped cuts streams es₀)
    (shaped' : Shaped cuts streams es) (storable : Storable L es) :
    readState L stale (writeState L es) es₀ = (0, es) := by
  have found : ∀ rest, strncmp (checkpoint_header ++ rest) checkpoint_header = some true :=
    fun rest => (strncmp_iff header_nonzero).mpr (List.prefix_append _ _)
  have found' : ∀ rest, strncmp (checkpoint_tail ++ rest) checkpoint_tail = some true :=
    fun rest => (strncmp_iff tail_nonzero).mpr (List.prefix_append _ _)
  have same : versionMismatch L L.versionHeader = false := by simp [versionMismatch]
  have last := freadBytes_append
    (checkpoint_header ++ stale.str_buf.drop checkpoint_header.length) checkpoint_tail []
  rw [List.append_nil] at last
  simp only [readState, writeState, freadBytes_append, found, not_true, if_false, ne_eq,
    L.version.fread_encode storable.version, same, Bool.false_eq_true,
    readFields_writeFields shaped shaped' storable, last, found']

/-! ## Which files are read -/

def Valid (L : Layout R) (cuts streams : ℕ) (file : Bytes) : Prop :=
  checkpoint_header <+: file ∧
    versionMismatch L (L.version.decode
      ((file.drop checkpoint_header.length).take L.version.size)) = false ∧
    checkpoint_tail <+:
      file.drop (checkpoint_header.length + L.version.size + L.fieldsSize cuts streams)

theorem tail_found {str_buf f : Bytes} (holds : checkpoint_header <+: str_buf) :
    checkpoint_tail <+: (freadBytes checkpoint_tail.length str_buf f).1 ↔
      checkpoint_tail <+: f := by
  have size : checkpoint_tail.length = 15 := by decide +kernel
  rw [freadBytes, size]
  constructor
  · intro found
    by_cases all : 15 ≤ f.length
    · have taken : (f.take 15).length = checkpoint_tail.length := by
        rw [List.length_take_of_le all, size]
      obtain ⟨t, ht⟩ := found
      have whole : checkpoint_tail = f.take 15 := List.append_inj_left ht taken.symm
      rw [whole]
      exact List.take_prefix 15 f
    · have last : checkpoint_header[14]? = some 99 := by decide +kernel
      have zero : checkpoint_tail[14]? = some 0 := by decide +kernel
      obtain ⟨t, ht⟩ := found
      obtain ⟨t', ht'⟩ := holds
      have here := congrArg (·[14]?) ht
      have less : min 15 f.length = f.length := by omega
      have there : str_buf[14]? = some 99 := by
        rw [← ht', List.getElem?_append_left (by decide +kernel), last]
      have behind : (f.take 15 ++ str_buf.drop (min 15 f.length))[14]? = some 99 := by
        rw [less, List.take_of_length_le (by omega), List.getElem?_append_right (by omega),
          List.getElem?_drop, ← there]
        congr 1
        omega
      rw [behind, List.getElem?_append_left (by decide +kernel), zero] at here
      cases here
  · rintro ⟨t, rfl⟩
    rw [← size, List.take_left]
    exact List.prefix_append _ _

theorem header_found (old : Bytes) {f : Bytes} (all : checkpoint_header.length ≤ f.length) :
    checkpoint_header <+: (freadBytes checkpoint_header.length old f).1 ↔
      checkpoint_header <+: f := by
  have taken : checkpoint_header.length = (f.take checkpoint_header.length).length :=
    (List.length_take_of_le all).symm
  constructor
  · rintro ⟨t, ht⟩
    have whole : checkpoint_header = f.take checkpoint_header.length :=
      List.append_inj_left ht taken
    exact ⟨f.drop checkpoint_header.length, by
      conv_lhs => rw [whole, ← taken]
      exact List.take_append_drop _ _⟩
  · rintro ⟨t, rfl⟩
    rw [freadBytes, List.take_left]
    exact List.prefix_append _ _

theorem readState_tests (stale : Stale) (f : Bytes) (es : EvaluationState R) :
    (readState L stale f es).1 = 0 ↔
      checkpoint_header <+: (freadBytes checkpoint_header.length stale.str_buf f).1 ∧
        versionMismatch L (L.version.fread stale.version (f.drop checkpoint_header.length)).1 =
          false ∧
        checkpoint_tail <+: (freadBytes checkpoint_tail.length
          (freadBytes checkpoint_header.length stale.str_buf f).1
          (readFields L es ((f.drop checkpoint_header.length).drop L.version.size)).2).1 := by
  have header : strncmp (freadBytes checkpoint_header.length stale.str_buf f).1 checkpoint_header =
      some true ↔ _ := strncmp_iff header_nonzero
  have tail : ∀ p, strncmp p checkpoint_tail = some true ↔ _ := fun p => strncmp_iff tail_nonzero
  have rest : (freadBytes checkpoint_header.length stale.str_buf f).2 =
      f.drop checkpoint_header.length := rfl
  unfold readState
  dsimp only
  rw [rest]
  by_cases found : checkpoint_header <+: (freadBytes checkpoint_header.length stale.str_buf f).1
  · rw [if_neg (not_not.mpr (header.mpr found)), and_iff_right found]
    cases version : versionMismatch L
        (L.version.fread stale.version (f.drop checkpoint_header.length)).1
    · rw [if_neg Bool.false_ne_true, and_iff_right rfl]
      split_ifs with lost
      · exact ⟨nofun, fun found => absurd ((tail _).mpr found) lost⟩
      · exact ⟨fun _ => (tail _).mp (not_not.mp lost), fun _ => rfl⟩
    · exact ⟨nofun, nofun⟩
  · rw [if_pos fun compared => found (header.mp compared)]
    exact ⟨nofun, fun tests => absurd tests.1 found⟩

theorem readState_success (stale : Stale) (shaped : Shaped cuts streams es) (f : Bytes) :
    (readState L stale f es).1 = 0 ↔ Valid L cuts streams f := by
  have tail_size : 0 < checkpoint_tail.length := by decide +kernel
  have long : checkpoint_tail <+:
      f.drop (checkpoint_header.length + L.version.size + L.fieldsSize cuts streams) →
      checkpoint_header.length + L.version.size ≤ f.length := by
    intro found
    have length := found.length_le
    rw [List.length_drop] at length
    omega
  have version : checkpoint_header.length + L.version.size ≤ f.length →
      (L.version.fread stale.version (f.drop checkpoint_header.length)).1 =
        L.version.decode ((f.drop checkpoint_header.length).take L.version.size) := by
    intro all
    have past : (L.version.encode stale.version).drop (f.drop checkpoint_header.length).length =
        [] := by
      rw [List.drop_eq_nil_iff, L.version.length_encode, List.length_drop]
      omega
    rw [Image.fread, past, List.append_nil]
  rw [readState_tests, (readFields_shaped shaped _).1, Valid, List.drop_drop, List.drop_drop,
    ← Nat.add_assoc]
  constructor
  · rintro ⟨header, same, tail⟩
    have tail := (tail_found header).mp tail
    have all := long tail
    rw [version all] at same
    exact ⟨(header_found _ (Nat.le_of_add_right_le all)).mp header, same, tail⟩
  · rintro ⟨header, same, tail⟩
    have all := long tail
    have header := (header_found stale.str_buf (Nat.le_of_add_right_le all)).mpr header
    rw [version all]
    exact ⟨header, same, (tail_found header).mpr tail⟩

theorem readState_shaped (stale : Stale) (shaped : Shaped cuts streams es) (f : Bytes) :
    Shaped cuts streams (readState L stale f es).2 := by
  unfold readState
  dsimp only
  split_ifs
  · exact shaped
  · exact shaped
  · exact (readFields_shaped shaped _).2
  · exact (readFields_shaped shaped _).2

theorem readState_kept (stale : Stale) {f : Bytes} (es : EvaluationState R)
    (early : ¬checkpoint_header <+: (freadBytes checkpoint_header.length stale.str_buf f).1 ∨
      versionMismatch L (L.version.fread stale.version (f.drop checkpoint_header.length)).1) :
    readState L stale f es = (1, es) := by
  have header : strncmp (freadBytes checkpoint_header.length stale.str_buf f).1 checkpoint_header =
      some true ↔ _ := strncmp_iff header_nonzero
  unfold readState
  dsimp only
  split_ifs with lost other
  · rfl
  · rfl
  · exact absurd (header.mp (not_not.mp lost)) (early.resolve_right other)
  · exact absurd (header.mp (not_not.mp lost)) (early.resolve_right other)

section
variable [Zero R] [Add R] [Sub R]

/-- What a file does to a state that is allocated for its numbers of cuts and streams. A
state that has been written is read back with what was kept from the device in its sums.
Files that are not valid for the shape are refused; they leave nothing but the shape, or
all values but the sums when the header or the version is wrong. -/
structure Reads (L : Layout R) (stale : Stale) (cuts streams : ℕ) (es₀ : EvaluationState R) :
    Prop where
  written : ∀ es, Shaped cuts streams es → Storable L (Separation.writeCheckpoint es) →
    readCheckpoint L stale (some (writeCheckpoint L es).1) es₀ =
        (0, Separation.readCheckpoint (writeCheckpoint L es).2) ∧
      (es.NoneKept → es.Absorbs → readCheckpoint L stale (some (writeCheckpoint L es).1) es₀ =
        (0, { es with lastCheckpointNuStep := es.nu_step }))
  succeeds : ∀ file, (readCheckpoint L stale (some file) es₀).1 = 0 ↔ Valid L cuts streams file
  refuses : ∀ file, (readCheckpoint L stale file es₀).1 ≠ 0 →
    (readCheckpoint L stale file es₀).1 = 1
  truncated : ∀ es n, Shaped cuts streams es → n < (writeCheckpoint L es).1.length →
    (readCheckpoint L stale (some ((writeCheckpoint L es).1.take n)) es₀).1 = 1
  shape : ∀ file, Shaped cuts streams (readCheckpoint L stale file es₀).2
  early : ∀ file, ¬checkpoint_header <+:
        (freadBytes checkpoint_header.length stale.str_buf file).1 ∨
      versionMismatch L (L.version.fread stale.version (file.drop checkpoint_header.length)).1 →
    readCheckpoint L stale (some file) es₀ = (1, addTmpCheckpointSums es₀)

omit [Zero R] [Add R] [Sub R] in
theorem readState_rc (stale : Stale) (f : Bytes) (es : EvaluationState R) :
    (readState L stale f es).1 = 0 ∨ (readState L stale f es).1 = 1 := by
  unfold readState
  dsimp only
  split_ifs
  · exact .inr rfl
  · exact .inr rfl
  · exact .inr rfl
  · exact .inl rfl

omit [Zero R] [Add R] [Sub R] in
theorem length_writeFields (shaped : Shaped cuts streams es) :
    (writeFields L es).length = L.fieldsSize cuts streams := by
  have integrals : ∀ l : List (Cut R), (∀ c ∈ l, c.streamIntegrals.length = streams) →
      (l.flatMap (writeCut L)).length = l.length * (L.real.size + streams * L.real.size) := by
    intro l shaped
    induction l with
    | nil => simp
    | cons c l ih =>
        obtain ⟨this, others⟩ := List.forall_mem_cons.mp shaped
        rw [List.flatMap_cons, List.length_append, ih others, writeCut, List.length_append,
          L.real.length_encode, L.real.length_encodeArray, this, List.length_cons, Nat.succ_mul]
        omega
  simp only [writeFields, List.length_append, Image.length_encode, Image.length_encodeArray,
    shaped.streamSums, shaped.streamSumsCheckpoint, integrals _ shaped.streamIntegrals, shaped.cuts]
  unfold Layout.fieldsSize
  omega

theorem addTmpCheckpointSums_shaped (shaped : Shaped cuts streams es) :
    Shaped cuts streams (addTmpCheckpointSums es) where
  cuts := shaped.cuts
  streamIntegrals := shaped.streamIntegrals
  streamSums := (List.length_mapIdx ..).trans shaped.streamSums
  streamSumsCheckpoint := (List.length_map _).trans shaped.streamSumsCheckpoint

omit [Zero R] [Add R] [Sub R] in
theorem writeCheckpoint_shaped (shaped : Shaped cuts streams es) :
    Shaped cuts streams (Separation.writeCheckpoint es) :=
  ⟨shaped.cuts, shaped.streamIntegrals, shaped.streamSums, shaped.streamSumsCheckpoint⟩

omit [Zero R] [Add R] [Sub R] in
theorem not_valid_truncated (shaped : Shaped cuts streams es) {n : ℕ}
    (short : n < (writeState L es).length) : ¬Valid L cuts streams ((writeState L es).take n) := by
  rintro ⟨-, -, found⟩
  have length := found.length_le
  have tail_size : 0 < checkpoint_tail.length := by decide +kernel
  simp only [writeState, List.length_append, Image.length_encode, length_writeFields shaped]
    at short
  rw [List.length_drop, List.length_take] at length
  omega

theorem readCheckpoint_reads (L : Layout R) (stale : Stale) {cuts streams : ℕ}
    {es₀ : EvaluationState R} (shaped : Shaped cuts streams es₀) :
    Reads L stale cuts streams es₀ where
  written es shaped' storable := by
    have read : readCheckpoint L stale (some (writeCheckpoint L es).1) es₀ =
        (0, Separation.readCheckpoint (writeCheckpoint L es).2) := by
      have state := readState_writeState stale shaped (writeCheckpoint_shaped shaped') storable
      rw [readCheckpoint, writeCheckpoint]
      dsimp only
      rw [state]
      rfl
    refine ⟨read, fun none absorbs => ?_⟩
    have same : Separation.readCheckpoint (Separation.writeCheckpoint es) =
        Separation.writeCheckpoint es := EvaluationState.readCheckpoint_eq none absorbs
    rw [read]
    exact congrArg (0, ·) same
  succeeds file := readState_success stale shaped file
  refuses file failed := by
    cases file with
    | none => rfl
    | some f => exact (readState_rc stale f es₀).resolve_left failed
  truncated es n shaped' short :=
    (readState_rc stale _ es₀).resolve_left fun success =>
      not_valid_truncated (writeCheckpoint_shaped shaped') short
        ((readState_success stale shaped _).mp success)
  shape file := by
    cases file with
    | none => exact shaped
    | some f => exact addTmpCheckpointSums_shaped (readState_shaped stale shaped f)
  early file lost := by
    rw [readCheckpoint, readState_kept stale es₀ lost]

end

/-! ## A file that ends after the unit -/

def byteCodec : Codec ℕ where
  size := 1
  fits n := n < 256
  encode n := [UInt8.ofNat n]
  decode bytes := (bytes.headD 0).toNat
  length_encode _ := rfl
  decode_encode n lt := by
    change (UInt8.ofNat n).toNat = n
    rw [UInt8.toNat_ofNat']
    exact Nat.mod_eq_of_lt lt

def flagCodec : Codec Bool where
  size := 1
  fits _ := True
  encode b := [if b then 1 else 0]
  decode bytes := bytes.headD 0 != 0
  length_encode _ := rfl
  decode_encode b _ := by cases b <;> rfl

def smallLayout : Layout ℚ where
  version := Image.only 4 ⟨1, 2, false, false⟩
  int := byteCodec
  flag := flagCodec
  unsigned := byteCodec
  kahan := Image.table 0 [0, ⟨1, 0⟩]
  real := Image.table 0 [0, 1]
  versionHeader := ⟨1, 2, false, false⟩

/-- A new state for one cut and one stream. -/
def newState : EvaluationState ℚ := ⟨0, false, [⟨0, [0]⟩], 0, 0, 0, [0], 0, [0], 0, 0⟩

/-- The state of the sixth unit after its integral. -/
def sixthUnit : EvaluationState ℚ := ⟨5, false, [⟨1, [1]⟩], 2, 0, 0, [0], 0, [0], 0, 1⟩

def emptyStale : Stale := ⟨List.replicate 23 0, ⟨0, 0, false, false⟩⟩

/-- A file that ends after its number of the unit is refused, and the unit is in the state. -/
theorem readCheckpoint_unit :
    (readCheckpoint smallLayout emptyStale
        (some ((writeCheckpoint smallLayout sixthUnit).1.take 27)) newState).1 = 1 ∧
      (readCheckpoint smallLayout emptyStale
        (some ((writeCheckpoint smallLayout sixthUnit).1.take 27)) newState).2 ≠ newState := by
  decide +kernel

theorem readCheckpoint_reads_new : Reads smallLayout emptyStale 1 1 newState :=
  readCheckpoint_reads smallLayout emptyStale (by constructor <;> decide)

end MilkyWay.Separation.CheckpointFile
