import MilkyWay.Foundation.Watched
import MilkyWay.Separation.Conservation
import MilkyWay.Separation.Kernel

/-! How the items of an area are put into chunks for a device, and which items the chunks of
one step in nu evaluate. Divisors, numbers that are narrowed to 32 bits and conversions of
reals are watched. -/

namespace MilkyWay.Separation

open Foundation

structure DevInfo (R : Type) where
  isCPU : Bool
  warpSize : ℕ
  maxCompUnits : ℕ
  maxWorkItemSizes : ℕ × ℕ × ℕ
  nonOutput : Bool
  hasGraphicsQOS : Bool
  gflops : R

structure CLRequest (R : Type) where
  nonResponsive : Bool
  targetFrequency : R
  gpuWaitFactor : R

structure UIntConversion (R : Type) where
  inRange : R → Bool
  toUInt : R → ℕ

structure FoundSizes extends RunSizes where
  localSize : ℕ
  nChunkEstimate : ℕ
  initialWait : ℕ
  area : ℕ
  effectiveArea : ℕ
  chunkSize : ℕ

/-! ## Watched arithmetic -/

abbrev Sizing (α : Type) := Watched Unit α

def divRoundup (a b : ℕ) : Sizing ℕ := do
  Watched.check (b ≠ 0)
  return mwDivRoundup a b

def toCLUInt (n : ℕ) : Sizing ℕ := do
  Watched.check (n < 2 ^ 32)
  return n % 2 ^ 32

/-! ## The sizes -/

section
variable {R : Type} [Zero R] [Mul R] [Div R] [OfScientific R] [NatCast R] [DecidableEq R]
variable (C : UIntConversion R) (ap : AstronomyParameters R) (ia : IntegralArea R)
  (di : DevInfo R) (clr : CLRequest R)

def estimateWUGFLOPsPerIter : R :=
  let loop := 58 * ap.number_streams + 56
  let loop := if ap.background_profile = .brokenPowerLaw then loop + 8 else loop
  let perItem := (ap.convolve * loop + 2 * ap.number_streams + 4) % 2 ^ 64
  let perIter : ℕ := perItem * ia.mu_steps % 2 ^ 64 * ia.r_steps % 2 ^ 64
  1.0e-9 * (perIter : R)

def estIterTime : R := 1000.0 * estimateWUGFLOPsPerIter ap ia / (0.80 * di.gflops)

def timePerIter : R := 1000.0 / clr.targetFrequency

def nChunkConverted : ℕ := C.toUInt (estIterTime ap ia di / timePerIter clr) % 2 ^ 32

/-- The number of chunks to aim at, and the time to wait for one. The number is a divisor
before it is looked at. -/
def findNChunk : Sizing (ℕ × ℕ) := do
  Watched.check (58 * ap.number_streams + 56 < 2 ^ 31)
  Watched.check (0.80 * di.gflops ≠ 0)
  Watched.check (clr.targetFrequency ≠ 0)
  Watched.check (timePerIter clr ≠ 0)
  Watched.check (C.inRange (estIterTime ap ia di / timePerIter clr) = true)
  let nChunk := nChunkConverted C ap ia di clr
  Watched.check ((nChunk : R) ≠ 0)
  let wait := clr.gpuWaitFactor * estIterTime ap ia di / (nChunk : R)
  Watched.check (C.inRange wait = true)
  return (if nChunk = 0 then 1 else nChunk, C.toUInt wait % 2 ^ 32)

end

def countChunks (forceOneChunk : Bool) (effectiveArea chunkSize : ℕ) : Sizing ℕ :=
  if forceOneChunk then return 1 else divRoundup effectiveArea chunkSize

/-- The number of chunks of a size, the area they are to cover and by how much it is larger.
A single chunk is as large as the blocks that cover the area. -/
def coverArea (area blockSize chunkSize : ℕ) (forceOneChunk : Bool) : Sizing (ℕ × ℕ × ℕ) := do
  let chunks ← divRoundup area chunkSize
  let effectiveArea := chunkSize * chunks % 2 ^ 64
  let nChunk ← countChunks forceOneChunk effectiveArea chunkSize
  let extra ← toCLUInt ((effectiveArea + 2 ^ 64 - area) % 2 ^ 64)
  if nChunk = 1 then
    let blocks ← divRoundup area blockSize
    let effectiveArea := blockSize * blocks % 2 ^ 64
    let extra ← toCLUInt ((effectiveArea + 2 ^ 64 - area) % 2 ^ 64)
    return (nChunk, effectiveArea, extra)
  else return (nChunk, effectiveArea, extra)

def sizeChunks (area blockSize nChunkEstimate : ℕ) (forceOneChunk : Bool) :
    Sizing (ℕ × ℕ × ℕ) := do
  let blocks ← Watched.divide area (nChunkEstimate * blockSize % 2 ^ 64)
  let nBlockPerChunk ← toCLUInt blocks
  let nBlockPerChunk := if nBlockPerChunk = 0 then 1 else nBlockPerChunk
  coverArea area blockSize (nBlockPerChunk * blockSize % 2 ^ 64) forceOneChunk

def doubleChunks (maxWorkDim effectiveArea : ℕ) : ℕ → ℕ → ℕ → Sizing (ℕ × ℕ)
  | 0, nChunk, chunkSize => return (nChunk, chunkSize)
  | turns + 1, nChunk, chunkSize =>
      if maxWorkDim < chunkSize then do
        let chunkSize ← Watched.divide effectiveArea (nChunk * 2 % 2 ^ 64)
        doubleChunks maxWorkDim effectiveArea turns (nChunk * 2 % 2 ^ 64) chunkSize
      else return (nChunk, chunkSize)

/-- The number of chunks and their size with the limit of the device. Doubled 64 times the
number is zero. -/
def limitChunks (maxWorkDim effectiveArea localSize blockSize nChunk : ℕ) :
    Sizing (ℕ × ℕ) := do
  let chunkSize ← Watched.divide effectiveArea nChunk
  if maxWorkDim < chunkSize then
    let (nChunk, chunkSize) ← doubleChunks maxWorkDim effectiveArea 64 nChunk chunkSize
    let rest ← Watched.remainder chunkSize localSize
    if rest ≠ 0 then Watched.fail ()
    else
      let _ ← Watched.remainder chunkSize blockSize
      return (nChunk, chunkSize)
  else return (nChunk, chunkSize)

def checkSizes (sizes : FoundSizes) : Sizing FoundSizes := do
  if sizes.effectiveArea < sizes.area then Watched.fail ()
  else
    let rest ← Watched.remainder sizes.global sizes.localSize
    if rest ≠ 0 then Watched.fail ()
    else return sizes

section
variable {R : Type} [Zero R] [Mul R] [Div R] [OfScientific R] [NatCast R] [DecidableEq R]

def DevInfo.maxWorkDim (di : DevInfo R) : ℕ :=
  di.maxWorkItemSizes.1 * di.maxWorkItemSizes.2.1 % 2 ^ 64 * di.maxWorkItemSizes.2.2 % 2 ^ 64

def forceOneChunk (di : DevInfo R) (clr : CLRequest R) : Bool :=
  clr.nonResponsive || di.nonOutput || di.hasGraphicsQOS

def DevInfo.blockSize (di : DevInfo R) (nWavefrontPerCU : ℕ) : ℕ :=
  nWavefrontPerCU * di.warpSize % 2 ^ 64 * di.maxCompUnits % 2 ^ 64

/-- The sizes for a device that is not a processor, with the work-group size its driver
reports for the kernel. -/
def findRunSizesGPU (C : UIntConversion R) (wgs area : ℕ) (di : DevInfo R)
    (ap : AstronomyParameters R) (ia : IntegralArea R) (clr : CLRequest R) :
    Sizing FoundSizes := do
  let rest ← Watched.remainder wgs di.warpSize
  if rest ≠ 0 then Watched.fail ()
  else
    let nWavefrontPerCU ← Watched.divide wgs di.warpSize
    let blockSize := di.blockSize nWavefrontPerCU
    let (nChunkEstimate, initialWait) ← findNChunk C ap ia di clr
    let (nChunk, effectiveArea, extra) ←
      sizeChunks area blockSize nChunkEstimate (forceOneChunk di clr)
    -- The number of blocks in a chunk is printed.
    Watched.check (blockSize ≠ 0)
    let (nChunk, chunkSize) ←
      limitChunks di.maxWorkDim effectiveArea di.warpSize blockSize nChunk
    checkSizes ⟨⟨chunkSize, nChunk, extra⟩, di.warpSize, nChunkEstimate, initialWait, area,
      effectiveArea, chunkSize⟩

/-- The sizes for an area on a device whose driver reports a work-group size, or fails to. -/
def findRunSizes (C : UIntConversion R) (wgi : Option ℕ) (di : DevInfo R)
    (ap : AstronomyParameters R) (ia : IntegralArea R) (clr : CLRequest R) :
    Sizing FoundSizes := do
  let area := ia.r_steps * ia.mu_steps % 2 ^ 64
  let limit ← Watched.divide (2 ^ 64 - 1) ia.mu_steps
  if limit < ia.r_steps then Watched.fail ()
  else if di.isCPU then return ⟨⟨area, 1, 0⟩, 1, 1, 0, area, area, area⟩
  else
    match wgi with
    | none => Watched.fail ()
    | some wgs => findRunSizesGPU C wgs area di ap ia clr

end

/-! ## The items that are evaluated -/

def launched (sizes : RunSizes) : List ℕ :=
  (List.range sizes.nChunk).flatMap fun i =>
    (List.range sizes.global).map fun globalId => i * sizes.global + globalId

/-- The step in r and in mu that the kernel makes of a global index, if it goes on. The
difference is an unsigned number of 64 bits. -/
def kernelItem {R : Type} (ia : IntegralArea R) (extra globalId : ℕ) : Option (ℕ × ℕ) :=
  let gid := (globalId + 2 ^ 64 - extra) % 2 ^ 64
  let mu_step := gid % ia.mu_steps
  let r_step := gid / ia.mu_steps
  if ia.r_steps ≤ r_step ∨ ia.mu_steps ≤ mu_step then none else some (r_step, mu_step)

def evaluated {R : Type} (ia : IntegralArea R) (sizes : RunSizes) : List (ℕ × ℕ) :=
  (launched sizes).filterMap (kernelItem ia sizes.extra)

def IndexFits {R : Type} (ia : IntegralArea R) (number_streams nu_step : ℕ) : Prop :=
  nu_step * ia.mu_steps < 2 ^ 32 ∧
    ∀ j < number_streams, j * ia.mu_steps * ia.r_steps < 2 ^ 32

/-! ## Watched arithmetic in proofs -/

section
variable {α : Type} (a b : ℕ) (f : ℕ → Sizing α)

@[simp] theorem result_divRoundup_bind :
    (divRoundup a b >>= f).result = (f (mwDivRoundup a b)).result :=
  (Watched.bind_of_ok rfl f).1

@[simp] theorem result_toCLUInt_bind : (toCLUInt a >>= f).result = (f (a % 2 ^ 32)).result :=
  (Watched.bind_of_ok rfl f).1

@[simp] theorem sound_divRoundup_bind :
    (divRoundup a b >>= f).sound = true ↔ b ≠ 0 ∧ (f (mwDivRoundup a b)).sound = true :=
  Watched.sound_check_pure_bind (b ≠ 0) (mwDivRoundup a b) f

@[simp] theorem sound_toCLUInt_bind :
    (toCLUInt a >>= f).sound = true ↔ a < 2 ^ 32 ∧ (f (a % 2 ^ 32)).sound = true :=
  Watched.sound_check_pure_bind (a < 2 ^ 32) (a % 2 ^ 32) f

end

/-! ## The items of chunks -/

theorem launched_eq (sizes : RunSizes) :
    launched sizes = List.range (sizes.nChunk * sizes.global) := by
  unfold launched
  induction sizes.nChunk with
  | zero => rw [Nat.zero_mul]; rfl
  | succ n ih =>
      rw [List.range_succ, List.flatMap_append, ih, List.flatMap_singleton, Nat.succ_mul,
        List.range_add]

section
variable {R : Type} {ia : IntegralArea R} {sizes : RunSizes}

theorem kernelItem_surplus {extra globalId : ℕ}
    (room : ia.r_steps * ia.mu_steps + extra < 2 ^ 64) (less : globalId < extra) :
    kernelItem ia extra globalId = none := by
  have gid : (globalId + 2 ^ 64 - extra) % 2 ^ 64 = globalId + 2 ^ 64 - extra :=
    Nat.mod_eq_of_lt (by omega)
  unfold kernelItem
  dsimp only
  rw [gid]
  refine if_pos ?_
  by_cases none : ia.mu_steps = 0
  · exact Or.inr (by omega)
  · refine Or.inl ((Nat.le_div_iff_mul_le (Nat.pos_of_ne_zero none)).mpr ?_)
    omega

theorem kernelItem_item {extra i : ℕ} (room : extra + i < 2 ^ 64)
    (less : i < ia.r_steps * ia.mu_steps) :
    kernelItem ia extra (extra + i) = some (i / ia.mu_steps, i % ia.mu_steps) := by
  have gid : (extra + i + 2 ^ 64 - extra) % 2 ^ 64 = i := by
    rw [show extra + i + 2 ^ 64 - extra = i + 2 ^ 64 by omega, Nat.add_mod_right,
      Nat.mod_eq_of_lt (by omega)]
  have positive : 0 < ia.mu_steps := Nat.pos_of_ne_zero fun none => by
    rw [none, Nat.mul_zero] at less
    omega
  unfold kernelItem
  dsimp only
  rw [gid]
  refine if_neg ?_
  have row := (Nat.div_lt_iff_lt_mul positive).mpr less
  have column := Nat.mod_lt i positive
  omega

theorem evaluated_eq (room : ia.r_steps * ia.mu_steps + sizes.extra < 2 ^ 64)
    (within : sizes.nChunk * sizes.global ≤ ia.r_steps * ia.mu_steps + sizes.extra) :
    evaluated ia sizes = (List.range (sizes.nChunk * sizes.global - sizes.extra)).map
      fun i => (i / ia.mu_steps, i % ia.mu_steps) := by
  have surplus : ∀ total ≤ sizes.extra,
      (List.range total).filterMap (kernelItem ia sizes.extra) = [] := by
    intro total le
    refine List.filterMap_eq_nil_iff.mpr fun globalId mem => ?_
    exact kernelItem_surplus room ((List.mem_range.mp mem).trans_le le)
  rw [evaluated, launched_eq]
  by_cases few : sizes.nChunk * sizes.global ≤ sizes.extra
  · rw [surplus _ few, Nat.sub_eq_zero_of_le few]
    rfl
  · obtain ⟨n, total⟩ := Nat.exists_eq_add_of_le (not_le.mp few).le
    rw [total] at within ⊢
    rw [List.range_add, List.filterMap_append, surplus _ le_rfl, List.nil_append,
      Nat.add_sub_cancel_left, List.filterMap_map, ← List.filterMap_eq_map]
    refine List.filterMap_congr fun i mem => ?_
    have less := List.mem_range.mp mem
    exact kernelItem_item (by omega) (by omega)

theorem nodup_evaluated (room : ia.r_steps * ia.mu_steps + sizes.extra < 2 ^ 64)
    (within : sizes.nChunk * sizes.global ≤ ia.r_steps * ia.mu_steps + sizes.extra) :
    (evaluated ia sizes).Nodup := by
  rw [evaluated_eq room within]
  refine List.Nodup.map (fun i j same => ?_) List.nodup_range
  rw [← Nat.div_add_mod i ia.mu_steps, ← Nat.div_add_mod j ia.mu_steps]
  rw [(Prod.mk.inj same).1, (Prod.mk.inj same).2]

theorem mem_evaluated (room : ia.r_steps * ia.mu_steps + sizes.extra < 2 ^ 64)
    (within : sizes.nChunk * sizes.global ≤ ia.r_steps * ia.mu_steps + sizes.extra)
    {r_step mu_step : ℕ} (column : mu_step < ia.mu_steps) :
    (r_step, mu_step) ∈ evaluated ia sizes ↔
      sizes.extra + (r_step * ia.mu_steps + mu_step) < sizes.nChunk * sizes.global := by
  rw [evaluated_eq room within, List.mem_map]
  constructor
  · rintro ⟨i, mem, same⟩
    have less := List.mem_range.mp mem
    have place : r_step * ia.mu_steps + mu_step = i := by
      rw [← (Prod.mk.inj same).1, ← (Prod.mk.inj same).2, Nat.div_add_mod']
    omega
  · intro less
    refine ⟨r_step * ia.mu_steps + mu_step, List.mem_range.mpr (by omega), ?_⟩
    rw [Nat.mul_comm, Nat.mul_add_div (Nat.zero_lt_of_lt column), Nat.div_eq_of_lt column,
      Nat.mul_add_mod, Nat.mod_eq_of_lt column, Nat.add_zero]

/-- What the chunks of the steps in nu are to do: the groups fill a chunk, the chunks cover
the area, their counter and the kernel's indices have room in 32 bits, and each item of the
area is evaluated once and nothing else. -/
structure Launches (ia : IntegralArea R) (number_streams : ℕ) (sizes : FoundSizes) : Prop where
  groups : sizes.localSize ∣ sizes.global
  covers : ia.r_steps * ia.mu_steps ≤ sizes.nChunk * sizes.chunkSize
  once : ∀ r_step < ia.r_steps, ∀ mu_step < ia.mu_steps,
    (evaluated ia sizes.toRunSizes).count (r_step, mu_step) = 1
  ignored : ∀ item ∈ evaluated ia sizes.toRunSizes,
    item.1 < ia.r_steps ∧ item.2 < ia.mu_steps
  counted : sizes.nChunk < 2 ^ 32
  indices : ∀ nu_step < ia.nu_steps, ∀ item ∈ evaluated ia sizes.toRunSizes,
    IndexFits ia number_streams nu_step

theorem launches_iff {number_streams : ℕ} {sizes : FoundSizes}
    (room : ia.r_steps * ia.mu_steps + sizes.extra < 2 ^ 64)
    (within : sizes.nChunk * sizes.global ≤ ia.r_steps * ia.mu_steps + sizes.extra)
    (groups : sizes.localSize ∣ sizes.global) (size : sizes.chunkSize = sizes.global) :
    Launches ia number_streams sizes ↔ sizes.nChunk < 2 ^ 32 ∧
      (ia.r_steps * ia.mu_steps = 0 ∨
        sizes.nChunk * sizes.global = ia.r_steps * ia.mu_steps + sizes.extra ∧
          ∀ nu_step < ia.nu_steps, IndexFits ia number_streams nu_step) := by
  have ignored : ∀ item ∈ evaluated ia sizes.toRunSizes,
      item.1 < ia.r_steps ∧ item.2 < ia.mu_steps := by
    intro item mem
    obtain ⟨globalId, -, found⟩ := List.mem_filterMap.mp mem
    unfold kernelItem at found
    dsimp only at found
    split at found
    · cases found
    · cases found
      omega
  constructor
  · intro launches
    refine ⟨launches.counted, ?_⟩
    by_cases empty : ia.r_steps * ia.mu_steps = 0
    · exact Or.inl empty
    have rows : 0 < ia.r_steps := Nat.pos_of_ne_zero fun none => empty (by rw [none, Nat.zero_mul])
    have columns : 0 < ia.mu_steps :=
      Nat.pos_of_ne_zero fun none => empty (by rw [none, Nat.mul_zero])
    have last := launches.once (ia.r_steps - 1) (by omega) (ia.mu_steps - 1) (by omega)
    have mem : (ia.r_steps - 1, ia.mu_steps - 1) ∈ evaluated ia sizes.toRunSizes :=
      List.count_pos_iff.mp (by omega)
    have reached := (mem_evaluated room within (by omega)).mp mem
    have place : (ia.r_steps - 1) * ia.mu_steps + ia.mu_steps = ia.r_steps * ia.mu_steps := by
      rw [← Nat.succ_mul, Nat.succ_eq_add_one, Nat.sub_add_cancel rows]
    exact Or.inr ⟨by omega, fun nu_step less => launches.indices nu_step less _ mem⟩
  · rintro ⟨counted, fits⟩
    refine ⟨groups, ?_, ?_, ignored, counted, ?_⟩
    · rw [size]
      omega
    · intro r_step row mu_step column
      obtain empty | ⟨all, -⟩ := fits
      · have none := Nat.mul_eq_zero.mp empty
        omega
      · refine List.count_eq_one_of_mem (nodup_evaluated room within) ?_
        refine (mem_evaluated room within column).mpr ?_
        have place := Nat.mul_le_mul_right ia.mu_steps (Nat.succ_le_of_lt row)
        rw [Nat.succ_mul] at place
        omega
    · intro nu_step less item mem
      obtain empty | ⟨-, indices⟩ := fits
      · have inside := ignored item mem
        have none := Nat.mul_eq_zero.mp empty
        omega
      · exact indices nu_step less

end

/-! ## The limit of the device -/

def Halved (maxWorkDim chunkSize k : ℕ) : Prop :=
  chunkSize / 2 ^ k ≤ maxWorkDim ∧ ∀ j < k, maxWorkDim < chunkSize / 2 ^ j

theorem Halved.unique {maxWorkDim chunkSize k k' : ℕ} (halved : Halved maxWorkDim chunkSize k)
    (halved' : Halved maxWorkDim chunkSize k') : k = k' := by
  obtain less | same | less := Nat.lt_trichotomy k k'
  · exact absurd halved.1 (not_le.mpr (halved'.2 k less))
  · exact same
  · exact absurd halved'.1 (not_le.mpr (halved.2 k' less))

theorem exists_halved (maxWorkDim chunkSize : ℕ) : ∃ k, Halved maxWorkDim chunkSize k := by
  have small : ∃ k, chunkSize / 2 ^ k ≤ maxWorkDim :=
    ⟨chunkSize, by rw [Nat.div_eq_of_lt Nat.lt_two_pow_self]; exact Nat.zero_le _⟩
  exact ⟨Nat.find small, Nat.find_spec small,
    fun j less => not_le.mp (Nat.find_min small less)⟩

theorem doubleChunks_halved {maxWorkDim nChunk chunkSize : ℕ} (limit : 0 < maxWorkDim)
    (some : 0 < nChunk) (room : nChunk * chunkSize < 2 ^ 64) (turns k : ℕ) (all : k + turns = 64)
    (larger : ∀ j < k, maxWorkDim < chunkSize / 2 ^ j) :
    (doubleChunks maxWorkDim (nChunk * chunkSize) turns (nChunk * 2 ^ k)
        (chunkSize / 2 ^ k)).sound = true ∧
      ∃ k', Halved maxWorkDim chunkSize k' ∧
        (doubleChunks maxWorkDim (nChunk * chunkSize) turns (nChunk * 2 ^ k)
          (chunkSize / 2 ^ k)).result = .ok (nChunk * 2 ^ k', chunkSize / 2 ^ k') := by
  have few : chunkSize < 2 ^ 64 := (Nat.le_mul_of_pos_left chunkSize some).trans_lt room
  induction turns generalizing k with
  | zero =>
      obtain rfl : k = 64 := all
      refine ⟨rfl, 64, ⟨?_, larger⟩, rfl⟩
      rw [Nat.div_eq_of_lt few]
      exact Nat.zero_le _
  | succ turns ih =>
      rw [doubleChunks]
      by_cases large : maxWorkDim < chunkSize / 2 ^ k
      · have twice : 2 ^ (k + 1) ≤ chunkSize := by
          have two : 2 ≤ chunkSize / 2 ^ k := by omega
          have le := (Nat.le_div_iff_mul_le (Nat.two_pow_pos k)).mp two
          rw [pow_succ]
          omega
        have next : nChunk * 2 ^ k * 2 % 2 ^ 64 = nChunk * 2 ^ (k + 1) := by
          rw [Nat.mul_assoc, ← pow_succ]
          exact Nat.mod_eq_of_lt ((Nat.mul_le_mul_left nChunk twice).trans_lt room)
        have half : nChunk * chunkSize / (nChunk * 2 ^ (k + 1)) = chunkSize / 2 ^ (k + 1) :=
          Nat.mul_div_mul_left _ _ some
        have nonzero : nChunk * 2 ^ (k + 1) ≠ 0 :=
          Nat.mul_ne_zero some.ne' (Nat.two_pow_pos _).ne'
        rw [if_pos large, next, Watched.sound_divide_bind, Watched.result_divide_bind, half]
        obtain ⟨sound, found⟩ := ih (k + 1) (by omega) fun j less =>
          (Nat.lt_succ_iff_lt_or_eq.mp less).elim (larger j) fun same => same ▸ large
        exact ⟨⟨nonzero, sound⟩, found⟩
      · rw [if_neg large]
        exact ⟨rfl, k, ⟨not_lt.mp large, larger⟩, rfl⟩

theorem doubleChunks_zero (effectiveArea turns nChunk chunkSize : ℕ)
    (wraps : nChunk * 2 ^ turns % 2 ^ 64 = 0) (last : turns = 0 → chunkSize = 0) :
    ∃ nChunk', (doubleChunks 0 effectiveArea turns nChunk chunkSize).result =
      .ok (nChunk', 0) := by
  induction turns generalizing nChunk chunkSize with
  | zero =>
      rw [last rfl]
      exact ⟨nChunk, rfl⟩
  | succ turns ih =>
      rw [doubleChunks]
      by_cases large : 0 < chunkSize
      · rw [if_pos large, Watched.result_divide_bind]
        have next : nChunk * 2 % 2 ^ 64 * 2 ^ turns % 2 ^ 64 = 0 := by
          rw [Nat.mod_mul_mod, Nat.mul_assoc, ← pow_succ', wraps]
        refine ih _ _ next fun none => ?_
        rw [none, pow_zero, Nat.mul_one, Nat.mod_mod] at next
        rw [next, Nat.div_zero]
      · rw [if_neg large]
        obtain rfl : chunkSize = 0 := by omega
        exact ⟨nChunk, rfl⟩

theorem checkSizes_eq {sizes : FoundSizes} (covers : sizes.area ≤ sizes.effectiveArea)
    (groups : sizes.localSize ≠ 0) :
    (checkSizes sizes).sound = true ∧ (checkSizes sizes).result =
      if sizes.localSize ∣ sizes.global then .ok sizes else .error () := by
  unfold checkSizes
  rw [if_neg (not_lt.mpr covers), Watched.sound_remainder_bind, Watched.result_remainder_bind]
  by_cases divides : sizes.localSize ∣ sizes.global
  · rw [if_neg (not_not.mpr (Nat.mod_eq_zero_of_dvd divides)), if_pos divides]
    exact ⟨⟨groups, rfl⟩, rfl⟩
  · rw [if_pos fun none => divides (Nat.dvd_of_mod_eq_zero none), if_neg divides]
    exact ⟨⟨groups, rfl⟩, rfl⟩

theorem limitChunks_check {maxWorkDim nChunk chunkSize localSize blockSize area : ℕ}
    {sizes : ℕ → ℕ → FoundSizes} (limit : 0 < maxWorkDim ∨ chunkSize = 0) (some : 0 < nChunk)
    (room : nChunk * chunkSize < 2 ^ 64) (groups : localSize ≠ 0) (blocks : blockSize ≠ 0)
    (covers : area ≤ nChunk * chunkSize)
    (found : ∀ n c, (sizes n c).area = area ∧ (sizes n c).effectiveArea = nChunk * chunkSize ∧
      (sizes n c).localSize = localSize ∧ (sizes n c).global = c) :
    let ended := limitChunks maxWorkDim (nChunk * chunkSize) localSize blockSize nChunk >>= fun p =>
      checkSizes (sizes p.1 p.2)
    ended.sound = true ∧ ∃ k, Halved maxWorkDim chunkSize k ∧ ended.result =
      if localSize ∣ chunkSize / 2 ^ k then .ok (sizes (nChunk * 2 ^ k) (chunkSize / 2 ^ k))
      else .error () := by
  have check := fun n c => @checkSizes_eq (sizes n c)
    (by rw [(found n c).1, (found n c).2.1]; exact covers) (by rw [(found n c).2.2.1]; exact groups)
  simp only [fun n c => (found n c).2.2.1, fun n c => (found n c).2.2.2] at check
  have exact : nChunk * chunkSize / nChunk = chunkSize := Nat.mul_div_cancel_left _ some
  unfold limitChunks
  dsimp only
  simp only [Watched.bind_assoc, Watched.sound_divide_bind, Watched.result_divide_bind, exact]
  by_cases large : maxWorkDim < chunkSize
  · have positive : 0 < maxWorkDim := by omega
    obtain ⟨sound, k, halved, doubled⟩ := doubleChunks_halved positive some room 64 0 rfl (by simp)
    rw [pow_zero, Nat.mul_one, Nat.div_one] at sound doubled
    rw [if_pos large]
    simp only [Watched.bind_assoc, (Watched.bind_of_ok doubled _).1,
      (Watched.bind_of_ok doubled _).2, Watched.sound_remainder_bind, Watched.result_remainder_bind]
    have checked := check (nChunk * 2 ^ k) (chunkSize / 2 ^ k)
    by_cases divides : localSize ∣ chunkSize / 2 ^ k
    · simp only [if_neg (not_not.mpr (Nat.mod_eq_zero_of_dvd divides)), Watched.bind_assoc,
        Watched.sound_remainder_bind, Watched.result_remainder_bind, Watched.pure_bind]
      exact ⟨⟨some.ne', sound, groups, blocks, checked.1⟩, k, halved, checked.2⟩
    · simp only [if_pos fun none => divides (Nat.dvd_of_mod_eq_zero none), Watched.fail_bind]
      refine ⟨⟨some.ne', sound, groups, rfl⟩, k, halved, ?_⟩
      rw [if_neg divides]
      rfl
  · rw [if_neg large, Watched.pure_bind]
    refine ⟨⟨some.ne', (check nChunk chunkSize).1⟩, 0, ⟨?_, by simp⟩, ?_⟩
    · rw [pow_zero, Nat.div_one]
      exact not_lt.mp large
    · rw [pow_zero, Nat.mul_one, Nat.div_one]
      exact (check nChunk chunkSize).2

theorem limitChunks_zero {nChunk chunkSize localSize area : ℕ} (blockSize : ℕ)
    {sizes : ℕ → ℕ → FoundSizes} (positive : 0 < chunkSize) (some : 0 < nChunk)
    (groups : localSize ≠ 0) (covers : area ≤ nChunk * chunkSize)
    (found : ∀ n c, (sizes n c).area = area ∧ (sizes n c).effectiveArea = nChunk * chunkSize ∧
      (sizes n c).localSize = localSize ∧ (sizes n c).global = c) :
    ∃ n, (limitChunks 0 (nChunk * chunkSize) localSize blockSize nChunk >>= fun p =>
      checkSizes (sizes p.1 p.2)).result = .ok (sizes n 0) := by
  have check := fun n c => @checkSizes_eq (sizes n c)
    (by rw [(found n c).1, (found n c).2.1]; exact covers) (by rw [(found n c).2.2.1]; exact groups)
  simp only [fun n c => (found n c).2.2.1, fun n c => (found n c).2.2.2] at check
  obtain ⟨n, doubled⟩ := doubleChunks_zero (nChunk * chunkSize) 64 nChunk chunkSize
    (Nat.mul_mod_left _ _) nofun
  unfold limitChunks
  dsimp only
  simp only [Watched.bind_assoc, Watched.result_divide_bind, Nat.mul_div_cancel_left _ some,
    if_pos positive, (Watched.bind_of_ok doubled _).1, Watched.result_remainder_bind, Nat.zero_mod,
    ne_eq, not_true, if_false, Watched.pure_bind]
  refine ⟨n, ?_⟩
  rw [(check n 0).2, if_pos (dvd_zero localSize)]

/-! ## The plan for the chunks -/

section
variable (area blockSize nChunkEstimate : ℕ) (forceOneChunk : Bool)

def chunkGuess : ℕ :=
  let blocks := area / (nChunkEstimate * blockSize % 2 ^ 64)
  (if blocks = 0 then 1 else blocks) * blockSize % 2 ^ 64

def surplus (chunkSize : ℕ) : ℕ := chunkSize * mwDivRoundup area chunkSize - area

def oneChunk : Bool :=
  forceOneChunk || mwDivRoundup area (chunkGuess area blockSize nChunkEstimate) = 1

structure ChunksFit : Prop where
  estimate : nChunkEstimate * blockSize % 2 ^ 64 ≠ 0
  blocks : area / (nChunkEstimate * blockSize % 2 ^ 64) < 2 ^ 32
  guess : chunkGuess area blockSize nChunkEstimate ≠ 0
  rest : surplus area (chunkGuess area blockSize nChunkEstimate) < 2 ^ 32
  one : oneChunk area blockSize nChunkEstimate forceOneChunk = true →
    surplus area blockSize < 2 ^ 32

def chunkPlan : ℕ × ℕ :=
  if oneChunk area blockSize nChunkEstimate forceOneChunk then
    (1, blockSize * mwDivRoundup area blockSize)
  else
    let guess := chunkGuess area blockSize nChunkEstimate
    (mwDivRoundup area guess, guess)

end

theorem mwDivRoundup_mul_lt (n : ℕ) {b : ℕ} (positive : 0 < b) :
    b * mwDivRoundup n b < n + b := by
  have divided := Nat.div_add_mod n b
  unfold mwDivRoundup
  split
  · have rest := Nat.mod_lt n positive
    rw [Nat.mul_succ]
    omega
  · omega

theorem mwDivRoundup_mul_self (n : ℕ) {b : ℕ} (positive : 0 < b) :
    mwDivRoundup (b * n) b = n := by
  unfold mwDivRoundup
  rw [Nat.mul_mod_right, if_neg (not_not.mpr rfl), Nat.mul_div_cancel_left n positive]

theorem add_surplus (area : ℕ) {chunkSize : ℕ} (positive : 0 < chunkSize) :
    area + surplus area chunkSize = chunkSize * mwDivRoundup area chunkSize ∧
      surplus area chunkSize < chunkSize := by
  have least := le_mwDivRoundup area positive
  have most := mwDivRoundup_mul_lt area positive
  rw [Nat.mul_comm] at least
  unfold surplus
  omega

theorem wrapped_surplus {area chunkSize : ℕ} (positive : 0 < chunkSize)
    (room : chunkSize < 2 ^ 64) (area_lt : area < 2 ^ 64) :
    (chunkSize * mwDivRoundup area chunkSize % 2 ^ 64 + 2 ^ 64 - area) % 2 ^ 64 =
      surplus area chunkSize := by
  have rounded := add_surplus area positive
  omega

theorem countChunks_eq (forceOneChunk : Bool) (effectiveArea : ℕ) {chunkSize : ℕ}
    (positive : 0 < chunkSize) :
    (countChunks forceOneChunk effectiveArea chunkSize).sound = true ∧
      (countChunks forceOneChunk effectiveArea chunkSize).result =
        .ok (if forceOneChunk then 1 else mwDivRoundup effectiveArea chunkSize) := by
  unfold countChunks
  cases forceOneChunk with
  | true => exact ⟨rfl, rfl⟩
  | false => exact ⟨(Watched.sound_check_bind _ _).mpr ⟨positive.ne', rfl⟩, rfl⟩

theorem coverArea_eq {area blockSize chunkSize : ℕ} (forceOneChunk : Bool)
    (area_le : area ≤ (2 ^ 32 - 1) * (2 ^ 32 - 1)) (blocks : 0 < blockSize)
    (block_lt : blockSize < 2 ^ 64) (positive : 0 < chunkSize) (chunk_lt : chunkSize < 2 ^ 64) :
    let one := forceOneChunk || decide (mwDivRoundup area chunkSize = 1)
    ((coverArea area blockSize chunkSize forceOneChunk).sound = true ↔
      surplus area chunkSize < 2 ^ 32 ∧ (one = true → surplus area blockSize < 2 ^ 32)) ∧
    (surplus area chunkSize < 2 ^ 32 → (one = true → surplus area blockSize < 2 ^ 32) →
      (coverArea area blockSize chunkSize forceOneChunk).result =
        if one then .ok (1, area + surplus area blockSize, surplus area blockSize)
        else .ok (mwDivRoundup area chunkSize, area + surplus area chunkSize,
          surplus area chunkSize)) := by
  have counted := countChunks_eq forceOneChunk
    (chunkSize * mwDivRoundup area chunkSize % 2 ^ 64) positive
  have area_lt : area < 2 ^ 64 := by omega
  have wrapped := wrapped_surplus positive chunk_lt area_lt
  have wrapped' := wrapped_surplus blocks block_lt area_lt
  have rounded := (add_surplus area positive).1
  have rounded' := (add_surplus area blocks).1
  unfold coverArea
  simp only [sound_divRoundup_bind, result_divRoundup_bind,
    (Watched.bind_of_ok counted.2 _).1, (Watched.bind_of_ok counted.2 _).2, counted.1, true_and,
    sound_toCLUInt_bind, result_toCLUInt_bind, wrapped]
  by_cases fits : surplus area chunkSize < 2 ^ 32
  swap
  · exact ⟨⟨fun sound => absurd sound.2.1 fits, fun sound => absurd sound.1 fits⟩,
      fun fits' => absurd fits' fits⟩
  have exact : chunkSize * mwDivRoundup area chunkSize % 2 ^ 64 =
      area + surplus area chunkSize := by
    rw [← rounded]
    exact Nat.mod_eq_of_lt (by omega)
  have count : mwDivRoundup (area + surplus area chunkSize) chunkSize =
      mwDivRoundup area chunkSize := by
    rw [rounded, mwDivRoundup_mul_self _ positive]
  have single : (if forceOneChunk then 1 else mwDivRoundup area chunkSize) = 1 ↔
      (forceOneChunk || decide (mwDivRoundup area chunkSize = 1)) = true := by
    cases forceOneChunk with
    | true => exact ⟨fun _ => rfl, fun _ => rfl⟩
    | false => exact (decide_eq_true_iff).symm
  simp only [exact, count, single]
  by_cases one : (forceOneChunk || decide (mwDivRoundup area chunkSize = 1)) = true
  · simp only [if_pos one, single.mpr one, sound_divRoundup_bind, sound_toCLUInt_bind,
      result_divRoundup_bind, result_toCLUInt_bind, wrapped']
    refine ⟨⟨fun sound => ⟨fits, fun _ => sound.2.2.2.1⟩,
      fun sound => ⟨positive.ne', fits, blocks.ne', sound.2 one, rfl⟩⟩, fun _ fits' => ?_⟩
    have exact' : blockSize * mwDivRoundup area blockSize % 2 ^ 64 =
        area + surplus area blockSize := by
      have less := fits' one
      rw [← rounded']
      exact Nat.mod_eq_of_lt (by omega)
    rw [exact', Nat.mod_eq_of_lt (fits' one)]
    rfl
  · simp only [if_neg one]
    refine ⟨⟨fun _ => ⟨fits, fun one' => absurd one' one⟩, fun _ => ⟨positive.ne', fits, rfl⟩⟩,
      fun _ _ => ?_⟩
    have many : forceOneChunk = false := by
      cases forceOneChunk with
      | true => exact absurd rfl one
      | false => rfl
    rw [Nat.mod_eq_of_lt fits, many, if_neg Bool.false_ne_true]
    rfl

theorem coverArea_ne_zero {area blockSize chunkSize : ℕ} {forceOneChunk : Bool}
    (sound : (coverArea area blockSize chunkSize forceOneChunk).sound = true) : chunkSize ≠ 0 :=
  ((sound_divRoundup_bind _ _ _).mp sound).1

theorem sizeChunks_eq {area blockSize : ℕ} (nChunkEstimate : ℕ) (forceOneChunk : Bool)
    (area_le : area ≤ (2 ^ 32 - 1) * (2 ^ 32 - 1)) (block_lt : blockSize < 2 ^ 64) :
    ((sizeChunks area blockSize nChunkEstimate forceOneChunk).sound = true ↔
      ChunksFit area blockSize nChunkEstimate forceOneChunk) ∧
    (ChunksFit area blockSize nChunkEstimate forceOneChunk →
      let plan := chunkPlan area blockSize nChunkEstimate forceOneChunk
      area ≤ plan.1 * plan.2 ∧ plan.1 * plan.2 - area < 2 ^ 32 ∧
        (sizeChunks area blockSize nChunkEstimate forceOneChunk).result =
          .ok (plan.1, plan.1 * plan.2, plan.1 * plan.2 - area)) := by
  have goes : area / (nChunkEstimate * blockSize % 2 ^ 64) < 2 ^ 32 →
      (if area / (nChunkEstimate * blockSize % 2 ^ 64) % 2 ^ 32 = 0 then 1
        else area / (nChunkEstimate * blockSize % 2 ^ 64) % 2 ^ 32) * blockSize % 2 ^ 64 =
      chunkGuess area blockSize nChunkEstimate := fun few => by
    rw [Nat.mod_eq_of_lt few]
    rfl
  have some : nChunkEstimate * blockSize % 2 ^ 64 ≠ 0 → 0 < blockSize := fun nonzero =>
    Nat.pos_of_ne_zero fun none => nonzero (by rw [none, Nat.mul_zero, Nat.zero_mod])
  have guess_lt : chunkGuess area blockSize nChunkEstimate < 2 ^ 64 :=
    Nat.mod_lt _ (Nat.two_pow_pos 64)
  unfold sizeChunks
  simp only [Watched.sound_divide_bind, sound_toCLUInt_bind, Watched.result_divide_bind,
    result_toCLUInt_bind]
  constructor
  · constructor
    · rintro ⟨estimate, few, sound⟩
      rw [goes few] at sound
      have guess := coverArea_ne_zero sound
      obtain ⟨rest, one⟩ := (coverArea_eq forceOneChunk area_le (some estimate) block_lt
        (Nat.pos_of_ne_zero guess) guess_lt).1.mp sound
      exact ⟨estimate, few, guess, rest, one⟩
    · intro fits
      refine ⟨fits.estimate, fits.blocks, ?_⟩
      rw [goes fits.blocks]
      exact (coverArea_eq forceOneChunk area_le (some fits.estimate) block_lt
        (Nat.pos_of_ne_zero fits.guess) guess_lt).1.mpr ⟨fits.rest, fits.one⟩
  · intro fits
    have positive := Nat.pos_of_ne_zero fits.guess
    have found := (coverArea_eq forceOneChunk area_le (some fits.estimate) block_lt
      positive guess_lt).2 fits.rest fits.one
    have rounded := add_surplus area positive
    have rounded' := add_surplus area (some fits.estimate)
    rw [goes fits.blocks, found]
    unfold chunkPlan
    by_cases one : oneChunk area blockSize nChunkEstimate forceOneChunk = true
    · have rest := fits.one one
      unfold oneChunk at one
      rw [if_pos one, oneChunk, if_pos one]
      dsimp only
      rw [Nat.one_mul, ← rounded'.1, Nat.add_sub_cancel_left]
      exact ⟨Nat.le_add_right _ _, rest, rfl⟩
    · have rest := fits.rest
      unfold oneChunk at one
      rw [if_neg one, oneChunk, if_neg one]
      dsimp only
      rw [Nat.mul_comm, ← rounded.1, Nat.add_sub_cancel_left]
      exact ⟨Nat.le_add_right _ _, rest, rfl⟩

/-! ## When the sizes are as they should be -/

section
variable {R : Type} [Zero R] [Mul R] [Div R] [OfScientific R] [NatCast R] [DecidableEq R]
variable (C : UIntConversion R) (ap : AstronomyParameters R) (ia : IntegralArea R)
  (di : DevInfo R) (clr : CLRequest R)

def nChunkEstimate : ℕ :=
  if nChunkConverted C ap ia di clr = 0 then 1 else nChunkConverted C ap ia di clr

/-- The reals that are divided by are not zero, among them the number of chunks itself, and
those that are converted are in the range of the conversion. -/
structure EstimateFits : Prop where
  streams : 58 * ap.number_streams + 56 < 2 ^ 31
  flops : 0.80 * di.gflops ≠ 0
  frequency : clr.targetFrequency ≠ 0
  time : timePerIter clr ≠ 0
  range : C.inRange (estIterTime ap ia di / timePerIter clr) = true
  some : (nChunkConverted C ap ia di clr : R) ≠ 0
  wait : C.inRange (clr.gpuWaitFactor * estIterTime ap ia di /
    (nChunkConverted C ap ia di clr : R)) = true

theorem findNChunk_eq :
    ((findNChunk C ap ia di clr).sound = true ↔ EstimateFits C ap ia di clr) ∧
      ∃ wait, (findNChunk C ap ia di clr).result = .ok (nChunkEstimate C ap ia di clr, wait) := by
  unfold findNChunk
  simp only [Watched.sound_check_bind, Watched.result_check_bind, Watched.sound_pure,
    Watched.result_pure, and_true]
  refine ⟨⟨?_, ?_⟩, _, rfl⟩
  · rintro ⟨streams, flops, frequency, time, range, some, wait⟩
    exact ⟨streams, flops, frequency, time, range, some, wait⟩
  · rintro ⟨streams, flops, frequency, time, range, some, wait⟩
    exact ⟨streams, flops, frequency, time, range, some, wait⟩

def KernelFits (number_streams : ℕ) : Prop :=
  ia.r_steps * ia.mu_steps = 0 ∨ ∀ nu_step < ia.nu_steps, IndexFits ia number_streams nu_step

def gpuPlan (wgs : ℕ) : ℕ × ℕ :=
  chunkPlan (ia.r_steps * ia.mu_steps) (di.blockSize (wgs / di.warpSize))
    (nChunkEstimate C ap ia di clr) (forceOneChunk di clr)

/-- The condition for a device that is not a processor. Where the limit of the device halves
the chunks and groups still fill them, nothing is lost and the chunks can be counted. -/
structure GPUFits (wgs : ℕ) : Prop where
  estimate : EstimateFits C ap ia di clr
  chunks : ChunksFit (ia.r_steps * ia.mu_steps) (di.blockSize (wgs / di.warpSize))
    (nChunkEstimate C ap ia di clr) (forceOneChunk di clr)
  some : (gpuPlan C ap ia di clr wgs).1 ≠ 0
  halved : ∀ k, Halved di.maxWorkDim (gpuPlan C ap ia di clr wgs).2 k →
    di.warpSize ∣ (gpuPlan C ap ia di clr wgs).2 / 2 ^ k →
      2 ^ k ∣ (gpuPlan C ap ia di clr wgs).2 ∧
        (gpuPlan C ap ia di clr wgs).1 * 2 ^ k < 2 ^ 32 ∧ KernelFits ia ap.number_streams

/-- The condition on an area, a device and a request. -/
structure SizesFit (wgi : Option ℕ) : Prop where
  mu : ia.mu_steps ≠ 0
  cpu : di.isCPU = true → KernelFits ia ap.number_streams
  gpu : di.isCPU = false → ∀ wgs, wgi = some wgs →
    di.warpSize ≠ 0 ∧ (di.warpSize ∣ wgs → GPUFits C ap ia di clr wgs)

/-- Nothing on the way is divided by zero or has no room, and sizes that are found do what the
chunks are to do. -/
def SizesWell (x : Sizing FoundSizes) : Prop :=
  x.Ensures fun sizes => Launches ia ap.number_streams sizes

end

section
variable {R : Type} {ap : AstronomyParameters R} {ia : IntegralArea R}

theorem limitChunks_iff {maxWorkDim nChunk chunkSize localSize blockSize : ℕ}
    (sizes : ℕ → ℕ → FoundSizes) (groups : localSize ≠ 0) (blocks : blockSize ≠ 0)
    (area_le : ia.r_steps * ia.mu_steps ≤ (2 ^ 32 - 1) * (2 ^ 32 - 1))
    (covers : ia.r_steps * ia.mu_steps ≤ nChunk * chunkSize)
    (rest : nChunk * chunkSize - ia.r_steps * ia.mu_steps < 2 ^ 32)
    (empty : ia.r_steps * ia.mu_steps = 0 → nChunk ≠ 0 → chunkSize = 0)
    (found : ∀ n c, sizes n c = ⟨⟨c, n, nChunk * chunkSize - ia.r_steps * ia.mu_steps⟩, localSize,
      (sizes n c).nChunkEstimate, (sizes n c).initialWait, ia.r_steps * ia.mu_steps,
      nChunk * chunkSize, c⟩) :
    SizesWell ap ia (limitChunks maxWorkDim (nChunk * chunkSize) localSize blockSize nChunk >>=
        fun p => checkSizes (sizes p.1 p.2)) ↔
      nChunk ≠ 0 ∧ ∀ k, Halved maxWorkDim chunkSize k → localSize ∣ chunkSize / 2 ^ k →
        2 ^ k ∣ chunkSize ∧ nChunk * 2 ^ k < 2 ^ 32 ∧ KernelFits ia ap.number_streams := by
  have all : ia.r_steps * ia.mu_steps + (nChunk * chunkSize - ia.r_steps * ia.mu_steps) =
      nChunk * chunkSize := Nat.add_sub_cancel' covers
  have room : nChunk * chunkSize < 2 ^ 64 := by omega
  have fields : ∀ n c, (sizes n c).area = ia.r_steps * ia.mu_steps ∧
      (sizes n c).effectiveArea = nChunk * chunkSize ∧ (sizes n c).localSize = localSize ∧
        (sizes n c).global = c := fun n c => by
    rw [found n c]
    exact ⟨rfl, rfl, rfl, rfl⟩
  by_cases some : nChunk = 0
  · have unsound : ¬ SizesWell ap ia (limitChunks maxWorkDim (nChunk * chunkSize) localSize
        blockSize nChunk >>= fun p => checkSizes (sizes p.1 p.2)) := by
      unfold limitChunks
      rw [SizesWell, Watched.bind_assoc, Watched.ensures_divide_bind]
      exact fun well => well.1 some
    exact ⟨fun well => absurd well unsound, fun fits => absurd some fits.1⟩
  have positive := Nat.pos_of_ne_zero some
  by_cases limit : 0 < maxWorkDim ∨ chunkSize = 0
  · obtain ⟨sound, k, halved, result⟩ := limitChunks_check limit positive room groups blocks
      covers fields
    have within : nChunk * 2 ^ k * (chunkSize / 2 ^ k) ≤ nChunk * chunkSize := by
      rw [Nat.mul_assoc]
      exact Nat.mul_le_mul_left nChunk (Nat.mul_div_le chunkSize (2 ^ k))
    have launches : localSize ∣ chunkSize / 2 ^ k →
        (Launches ia ap.number_streams (sizes (nChunk * 2 ^ k) (chunkSize / 2 ^ k)) ↔
          nChunk * 2 ^ k < 2 ^ 32 ∧ (ia.r_steps * ia.mu_steps = 0 ∨
            nChunk * 2 ^ k * (chunkSize / 2 ^ k) = nChunk * chunkSize ∧
              ∀ nu_step < ia.nu_steps, IndexFits ia ap.number_streams nu_step)) := by
      intro divides
      have iff := @launches_iff R ia ap.number_streams
        (sizes (nChunk * 2 ^ k) (chunkSize / 2 ^ k))
      rw [found] at iff ⊢
      dsimp only at iff
      rw [all] at iff
      exact iff room within divides rfl
    have divisible : nChunk * 2 ^ k * (chunkSize / 2 ^ k) = nChunk * chunkSize ↔
        2 ^ k ∣ chunkSize := by
      rw [Nat.mul_assoc, Nat.mul_right_inj some]
      exact Nat.mul_div_eq_iff_dvd
    constructor
    · intro well
      refine ⟨some, fun k' halved' divides => ?_⟩
      obtain rfl := halved.unique halved'
      rw [if_pos divides] at result
      obtain ⟨counted, none | ⟨same, indices⟩⟩ := (launches divides).mp (well.2 _ result)
      · rw [empty none some]
        exact ⟨dvd_zero _, counted, Or.inl none⟩
      · exact ⟨divisible.mp same, counted, Or.inr indices⟩
    · rintro ⟨-, fits⟩
      refine ⟨sound, fun sizes' ok => ?_⟩
      rw [result] at ok
      by_cases divides : localSize ∣ chunkSize / 2 ^ k
      · rw [if_pos divides] at ok
        obtain ⟨whole, counted, indices⟩ := fits k halved divides
        obtain rfl := Except.ok.inj ok
        exact (launches divides).mpr
          ⟨counted, indices.imp_right fun indices => ⟨divisible.mpr whole, indices⟩⟩
      · rw [if_neg divides] at ok
        cases ok
  · obtain ⟨none, large⟩ := not_or.mp limit
    obtain rfl : maxWorkDim = 0 := by omega
    obtain ⟨n, result⟩ := limitChunks_zero blockSize (Nat.pos_of_ne_zero large) positive
      groups covers fields
    constructor
    · intro well
      have covered := (well.2 _ result).covers
      rw [found, Nat.mul_zero] at covered
      exact absurd (empty (Nat.le_zero.mp covered) some) large
    · rintro ⟨-, fits⟩
      obtain ⟨k, halved⟩ := exists_halved 0 chunkSize
      have gone : chunkSize / 2 ^ k = 0 := Nat.le_zero.mp halved.1
      obtain ⟨whole, -⟩ := fits k halved (gone ▸ dvd_zero localSize)
      exact absurd (Nat.eq_zero_of_dvd_of_div_eq_zero whole gone) large

end

section
variable {R : Type} [Zero R] [Mul R] [Div R] [OfScientific R] [NatCast R] [DecidableEq R]
variable {C : UIntConversion R} {ap : AstronomyParameters R} {ia : IntegralArea R}
  {di : DevInfo R} {clr : CLRequest R}

theorem chunkPlan_empty (blockSize nChunkEstimate : ℕ) (forceOneChunk : Bool) :
    (chunkPlan 0 blockSize nChunkEstimate forceOneChunk).1 ≠ 0 →
      (chunkPlan 0 blockSize nChunkEstimate forceOneChunk).2 = 0 := by
  have none : ∀ b, mwDivRoundup 0 b = 0 := fun b => by
    rw [mwDivRoundup, Nat.zero_mod, Nat.zero_div]
    rfl
  unfold chunkPlan
  split
  · exact fun _ => by rw [none, Nat.mul_zero]
  · exact fun some => absurd (none _) some

theorem gpu_iff {wgs : ℕ} (area_le : ia.r_steps * ia.mu_steps ≤ (2 ^ 32 - 1) * (2 ^ 32 - 1))
    (groups : di.warpSize ≠ 0) (divides : di.warpSize ∣ wgs) :
    SizesWell ap ia (findRunSizesGPU C wgs (ia.r_steps * ia.mu_steps) di ap ia clr) ↔
      GPUFits C ap ia di clr wgs := by
  obtain ⟨estimated, wait, estimate⟩ := findNChunk_eq C ap ia di clr
  have block_lt : di.blockSize (wgs / di.warpSize) < 2 ^ 64 := Nat.mod_lt _ (Nat.two_pow_pos 64)
  obtain ⟨sized, plan⟩ := sizeChunks_eq (nChunkEstimate C ap ia di clr) (forceOneChunk di clr)
    area_le block_lt
  unfold findRunSizesGPU
  rw [SizesWell, Watched.ensures_remainder_bind,
    if_neg (not_not.mpr (Nat.mod_eq_zero_of_dvd divides)), Watched.ensures_divide_bind,
    Watched.ensures_bind_of_ok estimate, estimated]
  dsimp only
  by_cases chunks : ChunksFit (ia.r_steps * ia.mu_steps) (di.blockSize (wgs / di.warpSize))
    (nChunkEstimate C ap ia di clr) (forceOneChunk di clr)
  swap
  · refine ⟨fun well => absurd (sized.mp ?_) chunks, fun fits => absurd fits.chunks chunks⟩
    exact Watched.sound_of_bind well.2.2.2.1
  obtain ⟨covers, rest, found⟩ := plan chunks
  have blocks : di.blockSize (wgs / di.warpSize) ≠ 0 := fun none =>
    chunks.estimate (by rw [none, Nat.mul_zero, Nat.zero_mod])
  rw [Watched.ensures_bind_of_ok found, sized, Watched.ensures_check_bind]
  have limited := @limitChunks_iff R ap ia di.maxWorkDim _ _ _ _ (fun n c => ⟨⟨c, n, _⟩,
    di.warpSize, nChunkEstimate C ap ia di clr, wait, ia.r_steps * ia.mu_steps, _, c⟩) groups
    blocks area_le covers rest (fun none => by rw [none]; exact chunkPlan_empty _ _ _)
    (fun _ _ => rfl)
  rw [SizesWell] at limited
  constructor
  · rintro ⟨-, -, fits, -, -, well⟩
    obtain ⟨some, halved⟩ := limited.mp well
    exact ⟨fits, chunks, some, halved⟩
  · intro fits
    exact ⟨groups, groups, fits.estimate, chunks, blocks, limited.mpr ⟨fits.some, fits.halved⟩⟩

omit [Zero R] [Mul R] [Div R] [OfScientific R] [NatCast R] [DecidableEq R] in
theorem cpu_iff (area_le : ia.r_steps * ia.mu_steps ≤ (2 ^ 32 - 1) * (2 ^ 32 - 1)) :
    SizesWell ap ia (return ⟨⟨ia.r_steps * ia.mu_steps, 1, 0⟩, 1, 1, 0, ia.r_steps * ia.mu_steps,
      ia.r_steps * ia.mu_steps, ia.r_steps * ia.mu_steps⟩) ↔ KernelFits ia ap.number_streams := by
  have launches := @launches_iff R ia ap.number_streams ⟨⟨ia.r_steps * ia.mu_steps, 1, 0⟩, 1, 1, 0,
    ia.r_steps * ia.mu_steps, ia.r_steps * ia.mu_steps, ia.r_steps * ia.mu_steps⟩
    (by dsimp only; omega) (Nat.one_mul _).le (one_dvd _) rfl
  rw [SizesWell, Watched.ensures_pure, launches]
  constructor
  · exact fun fits => fits.2.imp_right And.right
  · exact fun fits =>
      ⟨by norm_num, fits.imp_right fun indices => ⟨Nat.one_mul _, indices⟩⟩

/-- The sizes are as they should be on exactly the inputs of the condition. -/
theorem findRunSizes_iff {wgi : Option ℕ} (r_lt : ia.r_steps < 2 ^ 32)
    (mu_lt : ia.mu_steps < 2 ^ 32) :
    SizesWell ap ia (findRunSizes C wgi di ap ia clr) ↔ SizesFit C ap ia di clr wgi := by
  have area_le : ia.r_steps * ia.mu_steps ≤ (2 ^ 32 - 1) * (2 ^ 32 - 1) :=
    Nat.mul_le_mul (by omega) (by omega)
  have area : ia.r_steps * ia.mu_steps % 2 ^ 64 = ia.r_steps * ia.mu_steps :=
    Nat.mod_eq_of_lt (by omega)
  unfold findRunSizes
  rw [SizesWell, area, Watched.ensures_divide_bind]
  by_cases mu : ia.mu_steps = 0
  · exact ⟨fun well => absurd mu well.1, fun fits => absurd mu fits.mu⟩
  have passes : ¬ (2 ^ 64 - 1) / ia.mu_steps < ia.r_steps := by
    rw [not_lt, Nat.le_div_iff_mul_le (Nat.pos_of_ne_zero mu)]
    omega
  rw [if_neg passes]
  cases kind : di.isCPU with
  | true =>
      rw [if_pos rfl]
      refine (and_congr_right' (cpu_iff area_le)).trans ?_
      exact ⟨fun well => ⟨mu, fun _ => well.2, fun gpu => absurd (kind.symm.trans gpu) nofun⟩,
        fun fits => ⟨mu, fits.cpu kind⟩⟩
  | false =>
      rw [if_neg Bool.false_ne_true]
      cases wgi with
      | none =>
          exact ⟨fun _ => ⟨mu, fun cpu => absurd (kind.symm.trans cpu) nofun, nofun⟩,
            fun _ => ⟨mu, ⟨rfl, nofun⟩⟩⟩
      | some wgs =>
          have well_iff : SizesWell ap ia
              (findRunSizesGPU C wgs (ia.r_steps * ia.mu_steps) di ap ia clr) ↔
                di.warpSize ≠ 0 ∧ (di.warpSize ∣ wgs → GPUFits C ap ia di clr wgs) := by
            by_cases groups : di.warpSize = 0
            · rw [SizesWell, findRunSizesGPU, Watched.ensures_remainder_bind]
              exact ⟨fun well => absurd groups well.1, fun fits => absurd groups fits.1⟩
            by_cases divides : di.warpSize ∣ wgs
            · rw [gpu_iff area_le groups divides]
              exact ⟨fun fits => ⟨groups, fun _ => fits⟩, fun fits => fits.2 divides⟩
            · rw [SizesWell, findRunSizesGPU, Watched.ensures_remainder_bind,
                if_pos fun none => divides (Nat.dvd_of_mod_eq_zero none)]
              exact ⟨fun well => ⟨well.1, fun divides' => absurd divides' divides⟩,
                fun fits => ⟨fits.1, ⟨rfl, nofun⟩⟩⟩
          refine (and_congr_right' well_iff).trans ⟨?_, ?_⟩
          · rintro ⟨-, fits⟩
            refine ⟨mu, fun cpu => absurd (kind.symm.trans cpu) nofun, fun _ wgs' same => ?_⟩
            obtain rfl := Option.some.inj same
            exact fits
          · exact fun fits => ⟨mu, fits.gpu kind wgs rfl⟩

end

/-! ## Three streams on a device -/

def floorUInt : UIntConversion ℚ where
  inRange x := decide (0 ≤ x ∧ x < 2 ^ 32)
  toUInt x := ⌊x⌋.toNat

def threeStreams : AstronomyParameters ℚ :=
  { halfHernquist with convolve := 120, number_streams := 3 }

def steps640 (mu_steps r_steps : ℕ) : IntegralArea ℚ where
  r_min := 16
  r_step_size := 1 / 10
  nu_min := -1
  nu_step_size := 1 / 256
  mu_min := 310
  mu_step_size := 1 / 20
  r_steps := r_steps
  nu_steps := 640
  mu_steps := mu_steps

def wideDevice : DevInfo ℚ where
  isCPU := false
  warpSize := 64
  maxCompUnits := 16
  maxWorkItemSizes := (1024, 1024, 64)
  nonOutput := false
  hasGraphicsQOS := false
  gflops := 100

def defaultRequest : CLRequest ℚ := ⟨false, 60, 3 / 4⟩

theorem kernelFits_steps640 {mu_steps r_steps : ℕ} (mu : 640 * mu_steps < 2 ^ 32)
    (area : 3 * mu_steps * r_steps < 2 ^ 32) : KernelFits (steps640 mu_steps r_steps) 3 := by
  refine Or.inr fun nu_step less => ⟨?_, fun j less' => ?_⟩
  · exact (Nat.mul_le_mul_right mu_steps less.le).trans_lt mu
  · exact (Nat.mul_le_mul_right r_steps (Nat.mul_le_mul_right mu_steps less'.le)).trans_lt area

theorem gpuFits_wideDevice :
    GPUFits floorUInt threeStreams (steps640 1600 700) wideDevice defaultRequest 256 where
  estimate := ⟨by decide, by decide +kernel, by decide +kernel, by decide +kernel,
    by decide +kernel, by decide +kernel, by decide +kernel⟩
  chunks := ⟨by decide +kernel, by decide +kernel, by decide +kernel, by decide +kernel,
    by decide +kernel⟩
  some := by decide +kernel
  halved k halved _ := by
    have whole : Halved wideDevice.maxWorkDim
        (gpuPlan floorUInt threeStreams (steps640 1600 700) wideDevice defaultRequest 256).2 0 :=
      ⟨by decide +kernel, nofun⟩
    obtain rfl := whole.unique halved
    exact ⟨one_dvd _, by decide +kernel, kernelFits_steps640 (by decide) (by decide)⟩

theorem findRunSizes_iff_wideDevice :
    SizesWell threeStreams (steps640 1600 700)
      (findRunSizes floorUInt (some 256) wideDevice threeStreams (steps640 1600 700)
        defaultRequest) := by
  refine (findRunSizes_iff (by decide) (by decide)).mpr ⟨by decide, nofun, fun _ wgs same => ?_⟩
  obtain rfl := Option.some.inj same
  exact ⟨by decide, fun _ => gpuFits_wideDevice⟩

/-- A small area asks for less than one chunk, and this number is divided by. Where a chunk is
too large for the device half of an odd number of items is not a number of items, and the last
of three items is in no chunk. -/
theorem small_unsound :
    (findRunSizes floorUInt (some 256) wideDevice threeStreams (steps640 100 100)
        defaultRequest).sound = false ∧
      (findRunSizes floorUInt (some 1)
          { wideDevice with warpSize := 1, maxCompUnits := 1, maxWorkItemSizes := (2, 1, 1) }
          threeStreams (steps640 1 3) ⟨true, 60, 3 / 4⟩).result.toOption.map
        (fun sizes => evaluated (steps640 1 3) sizes.toRunSizes) = some [(0, 0), (1, 0)] := by
  refine ⟨?_, ?_⟩
  · decide +kernel
  · decide +kernel

end MilkyWay.Separation
