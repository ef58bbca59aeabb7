import Mathlib.Tactic.Ring
import MilkyWay.Foundation.Watched
import MilkyWay.NBody.BoundingBoxCL

/-! The depth of the stack for the force on a device. The host solves its own formula for the
local memory that the kernel needs, in unsigned numbers of 64 bits; the kernel declares one
array for each piece. -/

namespace MilkyWay.NBody

open Foundation

def NB_MAX_MAX_DEPTH : ℕ := 128

def sizeofInt : ℕ := 4

def sizeofReal (DOUBLEPREC : Bool) : ℕ := if DOUBLEPREC then 8 else 4

structure WarpInfo where
  localMemSize : UInt64
  warpSize : UInt32

/-! ## The host -/

section
variable (DOUBLEPREC : Bool) (di : WarpInfo) (threads : UInt64) (useQuad : Bool)

def assumedMemory : ℕ := if 0 < di.localMemSize.toNat then di.localMemSize.toNat else 16384

def stackItemSize : ℕ :=
  let pos := sizeofInt
  let node := sizeofInt
  let dq := sizeofReal DOUBLEPREC
  let quadPieces := 6 * sizeofReal DOUBLEPREC
  if useQuad then pos + node + dq + quadPieces else pos + node + dq

def nbCalculateDepthLimitationFromCalculatedForceKernelLocalMemoryUsage : Watched Unit ℕ := do
  let warpPerWG ← Watched.divide threads.toNat di.warpSize.toNat
  let maxDepth := sizeofInt
  let rootCritRadius := sizeofReal DOUBLEPREC
  let allBlock ← Watched.mul 64 warpPerWG sizeofInt
  let ch ← Watched.mul 64 warpPerWG sizeofInt
  let nx ← Watched.mul 64 warpPerWG sizeofInt
  let ny ← Watched.mul 64 warpPerWG sizeofInt
  let nz ← Watched.mul 64 warpPerWG sizeofInt
  let nm ← Watched.mul 64 warpPerWG sizeofInt
  let lmcAddition := 13 * sizeofReal DOUBLEPREC
  let constantPieces ← Watched.add 64 maxDepth rootCritRadius
  let constantPieces ← Watched.add 64 constantPieces allBlock
  let constantPieces ← Watched.add 64 constantPieces ch
  let constantPieces ← Watched.add 64 constantPieces nx
  let constantPieces ← Watched.add 64 constantPieces ny
  let constantPieces ← Watched.add 64 constantPieces nz
  let constantPieces ← Watched.add 64 constantPieces nm
  let constantPieces ← Watched.add 64 constantPieces lmcAddition
  let room ← Watched.sub 64 (assumedMemory di) constantPieces
  let level ← Watched.mul 64 warpPerWG (stackItemSize DOUBLEPREC useQuad)
  let estMaxDepth ← Watched.divide room level
  Watched.sub 64 estMaxDepth 1

def nbFindMaxDepthForDevice : Watched Unit ℕ := do
  let d ← nbCalculateDepthLimitationFromCalculatedForceKernelLocalMemoryUsage DOUBLEPREC di threads
    useQuad
  return (if d < NB_MAX_MAX_DEPTH then d else NB_MAX_MAX_DEPTH) % 2 ^ 32

end

/-! ## The kernel -/

structure ForceFlags where
  DOUBLEPREC : Bool
  USE_QUAD : Bool
  HAVE_INLINE_PTX : Bool
  MAXDEPTH : ℕ
  THREADS6 : ℕ
  WARPSIZE : ℕ

namespace ForceFlags
variable (k : ForceFlags)

def warps : ℕ := k.THREADS6 / k.WARPSIZE

/-- The elements of an array for the stacks of all warps. -/
def cells : ℕ := k.MAXDEPTH * k.THREADS6 / k.WARPSIZE

/-- The local variables and arrays of the kernel, with the number and the size of their
elements. -/
def forceCalculation : List (ℕ × ℕ) :=
  let real := sizeofReal k.DOUBLEPREC
  -- maxDepth, rootCritRadius
  [(1, sizeofInt), (1, real)] ++
  -- ch, nx, ny, nz, nm
  [(k.warps, sizeofInt), (k.warps, real), (k.warps, real), (k.warps, real), (k.warps, real)] ++
  -- pos, node, dq
  [(k.cells, sizeofInt), (k.cells, sizeofInt), (k.cells, real)] ++
  -- the moments of the root, quadXX to quadZZ
  (if k.USE_QUAD then List.replicate 6 (1, real) ++ List.replicate 6 (k.cells, real) else []) ++
  -- allBlock
  if k.HAVE_INLINE_PTX then [] else [(k.warps, sizeofInt)]

def localBytes : ℕ := (k.forceCalculation.map fun array => array.1 * array.2).sum

theorem localBytes_eq :
    k.localBytes = sizeofInt + sizeofReal k.DOUBLEPREC +
      k.warps * (sizeofInt + 4 * sizeofReal k.DOUBLEPREC) +
      (if k.USE_QUAD then 6 * sizeofReal k.DOUBLEPREC else 0) +
      (if k.HAVE_INLINE_PTX then 0 else k.warps * sizeofInt) +
      k.cells * stackItemSize k.DOUBLEPREC k.USE_QUAD := by
  unfold localBytes forceCalculation stackItemSize
  generalize sizeofReal k.DOUBLEPREC = real
  generalize sizeofInt = int
  generalize k.warps = warps
  generalize k.cells = cells
  cases k.USE_QUAD <;> cases k.HAVE_INLINE_PTX <;>
    simp only [List.map_append, List.map_cons, List.map_nil, List.sum_append, List.sum_cons,
      List.sum_nil, List.map_replicate, List.sum_replicate, smul_eq_mul, if_true, if_false,
      Bool.false_eq_true] <;> ring

end ForceFlags

/-! ## The room for the stack -/

section
variable (DOUBLEPREC : Bool) (di : WarpInfo) (threads : UInt64) (useQuad : Bool)

def warpPerWG : ℕ := threads.toNat / di.warpSize.toNat

/-- What the host sets aside beside the stack. -/
def constantPieces : ℕ :=
  sizeofInt + 14 * sizeofReal DOUBLEPREC + 6 * (warpPerWG di threads * sizeofInt)

/-- The cells of all warps at one depth of the stack. -/
def levelSize : ℕ := warpPerWG di threads * stackItemSize DOUBLEPREC useQuad

def levels : ℕ :=
  (di.localMemSize.toNat - constantPieces DOUBLEPREC di threads) /
    levelSize DOUBLEPREC di threads useQuad - 1

variable {DOUBLEPREC di threads useQuad}

theorem assumedMemory_lt : assumedMemory di < 2 ^ 64 := by
  have room := di.localMemSize.toNat_lt
  unfold assumedMemory
  split <;> omega

theorem stackItemSize_pos : 0 < stackItemSize DOUBLEPREC useQuad := by
  cases DOUBLEPREC <;> cases useQuad <;> decide

theorem levelSize_pos (warp : di.warpSize.toNat ≤ threads.toNat) (nonzero : di.warpSize.toNat ≠ 0) :
    0 < levelSize DOUBLEPREC di threads useQuad := by
  exact Nat.mul_pos (Nat.div_pos warp (Nat.pos_of_ne_zero nonzero)) stackItemSize_pos

theorem ensures_depthLimitation {P : ℕ → Prop} (warp : di.warpSize.toNat ≤ threads.toNat) :
    (nbCalculateDepthLimitationFromCalculatedForceKernelLocalMemoryUsage DOUBLEPREC di threads
        useQuad).Ensures P ↔
      di.warpSize.toNat ≠ 0 ∧
        constantPieces DOUBLEPREC di threads + levelSize DOUBLEPREC di threads useQuad ≤
          assumedMemory di ∧
        P ((assumedMemory di - constantPieces DOUBLEPREC di threads) /
          levelSize DOUBLEPREC di threads useQuad - 1) := by
  have memory : assumedMemory di < 2 ^ 64 := assumedMemory_lt
  unfold nbCalculateDepthLimitationFromCalculatedForceKernelLocalMemoryUsage
  simp only [Watched.ensures_divide_bind, Watched.ensures_mul_bind, Watched.ensures_add_bind,
    Watched.ensures_sub_bind memory]
  refine and_congr_right fun nonzero => ?_
  have level_pos : 0 < levelSize DOUBLEPREC di threads useQuad := levelSize_pos warp nonzero
  have est : (assumedMemory di - constantPieces DOUBLEPREC di threads) /
      levelSize DOUBLEPREC di threads useQuad < 2 ^ 64 :=
    lt_of_le_of_lt (Nat.div_le_self _ _) (by omega)
  have pieces : sizeofInt + sizeofReal DOUBLEPREC +
      threads.toNat / di.warpSize.toNat * sizeofInt +
      threads.toNat / di.warpSize.toNat * sizeofInt +
      threads.toNat / di.warpSize.toNat * sizeofInt +
      threads.toNat / di.warpSize.toNat * sizeofInt +
      threads.toNat / di.warpSize.toNat * sizeofInt +
      threads.toNat / di.warpSize.toNat * sizeofInt + 13 * sizeofReal DOUBLEPREC =
        constantPieces DOUBLEPREC di threads := by
    simp only [constantPieces, warpPerWG]
    omega
  have level : threads.toNat / di.warpSize.toNat * stackItemSize DOUBLEPREC useQuad =
      levelSize DOUBLEPREC di threads useQuad := rfl
  rw [pieces, level, Watched.ensures_sub est, Nat.le_div_iff_mul_le level_pos, Nat.one_mul]
  constructor
  · rintro ⟨_, _, _, _, _, _, _, _, _, _, _, _, _, _, room, _, _, rest, holds⟩
    exact ⟨by omega, holds⟩
  · rintro ⟨room, holds⟩
    have parts := pieces
    refine ⟨?_, ?_, ?_, ?_, ?_, ?_, ?_, ?_, ?_, ?_, ?_, ?_, ?_, ?_, ?_, ?_, ?_, ?_, holds⟩
    all_goals omega

theorem ensures_findMaxDepth {P : ℕ → Prop} (warp : di.warpSize.toNat ≤ threads.toNat) :
    (nbFindMaxDepthForDevice DOUBLEPREC di threads useQuad).Ensures P ↔
      di.warpSize.toNat ≠ 0 ∧
        constantPieces DOUBLEPREC di threads + levelSize DOUBLEPREC di threads useQuad ≤
          assumedMemory di ∧
        P (min ((assumedMemory di - constantPieces DOUBLEPREC di threads) /
          levelSize DOUBLEPREC di threads useQuad - 1) NB_MAX_MAX_DEPTH) := by
  have clamp : ∀ d, (if d < NB_MAX_MAX_DEPTH then d else NB_MAX_MAX_DEPTH) % 2 ^ 32 =
      min d NB_MAX_MAX_DEPTH := by
    intro d
    unfold NB_MAX_MAX_DEPTH
    split <;> omega
  simp only [nbFindMaxDepthForDevice, Watched.ensures_bind, Watched.ensures_pure, clamp]
  exact ensures_depthLimitation warp

end

/-! ## The arrays that the kernel declares -/

section
variable (DOUBLEPREC : Bool) (di : WarpInfo) (threads : UInt64) (useQuad ptx : Bool)

/-- The kernel for a depth of the stack. -/
def forceFlags (d : ℕ) : ForceFlags :=
  ⟨DOUBLEPREC, useQuad, ptx, d, threads.toNat, di.warpSize.toNat⟩

def fixedBytes : ℕ :=
  sizeofInt + sizeofReal DOUBLEPREC +
    warpPerWG di threads * (sizeofInt + 4 * sizeofReal DOUBLEPREC) +
    (if useQuad then 6 * sizeofReal DOUBLEPREC else 0) +
    if ptx then 0 else warpPerWG di threads * sizeofInt

def extraCells (d : ℕ) : ℕ := d * (threads.toNat % di.warpSize.toNat) / di.warpSize.toNat

variable {DOUBLEPREC di threads useQuad ptx}

theorem cells_forceFlags (warp : di.warpSize.toNat ≠ 0) (d : ℕ) :
    (forceFlags DOUBLEPREC di threads useQuad ptx d).cells =
      d * warpPerWG di threads + extraCells di threads d := by
  have parts := Nat.div_add_mod threads.toNat di.warpSize.toNat
  have total : d * threads.toNat = d * (threads.toNat % di.warpSize.toNat) +
      di.warpSize.toNat * (d * warpPerWG di threads) := by
    nth_rewrite 1 [← parts]
    unfold warpPerWG
    ring
  simp only [ForceFlags.cells, forceFlags, extraCells]
  rw [total, Nat.add_mul_div_left _ _ (Nat.pos_of_ne_zero warp), Nat.add_comm]

theorem localBytes_forceFlags (warp : di.warpSize.toNat ≠ 0) (d : ℕ) :
    (forceFlags DOUBLEPREC di threads useQuad ptx d).localBytes =
      fixedBytes DOUBLEPREC di threads useQuad ptx +
        d * levelSize DOUBLEPREC di threads useQuad +
        extraCells di threads d * stackItemSize DOUBLEPREC useQuad := by
  have warps : (forceFlags DOUBLEPREC di threads useQuad ptx d).warps = warpPerWG di threads := rfl
  rw [ForceFlags.localBytes_eq, cells_forceFlags warp, warps, Nat.add_mul, Nat.mul_assoc]
  simp only [forceFlags, fixedBytes, levelSize]
  exact (Nat.add_assoc _ _ _).symm

theorem fixedBytes_le : fixedBytes DOUBLEPREC di threads useQuad ptx ≤
    constantPieces DOUBLEPREC di threads + levelSize DOUBLEPREC di threads useQuad := by
  unfold fixedBytes constantPieces levelSize stackItemSize sizeofReal sizeofInt
  generalize warpPerWG di threads = warps
  cases DOUBLEPREC <;> cases useQuad <;> cases ptx <;>
    simp only [if_true, if_false, Bool.false_eq_true] <;> omega

theorem stack_fits {fixed pieces level memory limit : ℕ} (fixed_le : fixed ≤ pieces + level)
    (room : pieces + level ≤ memory) (positive : 0 < level) :
    fixed + min ((memory - pieces) / level - 1) limit * level ≤ memory := by
  have some : 1 ≤ (memory - pieces) / level := by
    rw [Nat.le_div_iff_mul_le positive]
    omega
  have depth : min ((memory - pieces) / level - 1) limit * level ≤
      ((memory - pieces) / level - 1) * level :=
    Nat.mul_le_mul_right level (Nat.min_le_left _ _)
  have filled := Nat.div_mul_le_self (memory - pieces) level
  rw [Nat.sub_mul, Nat.one_mul] at depth
  have one : level ≤ (memory - pieces) / level * level := Nat.le_mul_of_pos_left level some
  omega

def cellRoom (DOUBLEPREC : Bool) (di : WarpInfo) (threads : UInt64) (useQuad ptx : Bool) : ℕ :=
  (di.localMemSize.toNat - fixedBytes DOUBLEPREC di threads useQuad ptx) /
    stackItemSize DOUBLEPREC useQuad

/-- The stacks of as many levels as the memory has room for, or of the greatest depth there
is, have room with the work-items beyond the last whole warp. -/
def ExtraFits (DOUBLEPREC : Bool) (di : WarpInfo) (threads : UInt64) (useQuad ptx : Bool) : Prop :=
  levels DOUBLEPREC di threads useQuad * threads.toNat / di.warpSize.toNat ≤
      cellRoom DOUBLEPREC di threads useQuad ptx ∨
    NB_MAX_MAX_DEPTH * threads.toNat / di.warpSize.toNat ≤
      cellRoom DOUBLEPREC di threads useQuad ptx

theorem localBytes_le_iff (fixed : fixedBytes DOUBLEPREC di threads useQuad ptx ≤
    di.localMemSize.toNat) (d : ℕ) :
    (forceFlags DOUBLEPREC di threads useQuad ptx d).localBytes ≤ di.localMemSize.toNat ↔
      d * threads.toNat / di.warpSize.toNat ≤ cellRoom DOUBLEPREC di threads useQuad ptx := by
  have bytes : (forceFlags DOUBLEPREC di threads useQuad ptx d).localBytes =
      fixedBytes DOUBLEPREC di threads useQuad ptx +
        d * threads.toNat / di.warpSize.toNat * stackItemSize DOUBLEPREC useQuad :=
    ForceFlags.localBytes_eq _
  rw [bytes, cellRoom, Nat.le_div_iff_mul_le stackItemSize_pos]
  omega

theorem extraFits_iff : ExtraFits DOUBLEPREC di threads useQuad ptx ↔
    min (levels DOUBLEPREC di threads useQuad) NB_MAX_MAX_DEPTH * threads.toNat /
      di.warpSize.toNat ≤ cellRoom DOUBLEPREC di threads useQuad ptx := by
  have smaller : ∀ {a b : ℕ}, a ≤ b → a * threads.toNat / di.warpSize.toNat ≤
      b * threads.toNat / di.warpSize.toNat :=
    fun le => Nat.div_le_div_right (Nat.mul_le_mul_right _ le)
  constructor
  · rintro (fits | fits)
    · exact (smaller (min_le_left _ _)).trans fits
    · exact (smaller (min_le_right _ _)).trans fits
  · intro fits
    obtain ⟨least, -⟩ | ⟨least, -⟩ := min_cases (levels DOUBLEPREC di threads useQuad)
      NB_MAX_MAX_DEPTH
    · exact .inl (least ▸ fits)
    · exact .inr (least ▸ fits)

/-- The depth that the host finds fits just where the device reports its memory, one level of
the stack has room beside the constant pieces, and the work-groups are whole warps or the
cells of the others have room. -/
theorem nbFindMaxDepthForDevice_iff (warp : di.warpSize.toNat ≤ threads.toNat) :
    (nbFindMaxDepthForDevice DOUBLEPREC di threads useQuad).Ensures (fun d =>
        (forceFlags DOUBLEPREC di threads useQuad ptx d).localBytes ≤ di.localMemSize.toNat) ↔
      di.warpSize.toNat ≠ 0 ∧ di.localMemSize.toNat ≠ 0 ∧
        constantPieces DOUBLEPREC di threads + levelSize DOUBLEPREC di threads useQuad ≤
          di.localMemSize.toNat ∧
        (di.warpSize.toNat ∣ threads.toNat ∨ ExtraFits DOUBLEPREC di threads useQuad ptx) := by
  rw [ensures_findMaxDepth warp]
  refine and_congr_right fun nonzero => ?_
  by_cases reported : di.localMemSize.toNat = 0
  · have some : sizeofInt ≤ fixedBytes DOUBLEPREC di threads useQuad ptx := by
      unfold fixedBytes
      omega
    unfold sizeofInt at some
    rw [localBytes_forceFlags nonzero]
    simp only [reported, ne_eq, not_true_eq_false, false_and, iff_false, not_and]
    intro
    omega
  · have memory : assumedMemory di = di.localMemSize.toNat := if_pos (Nat.pos_of_ne_zero reported)
    rw [memory]
    simp only [ne_eq, reported, not_false_eq_true, true_and]
    refine and_congr_right fun room => ?_
    have extra : ExtraFits DOUBLEPREC di threads useQuad ptx ↔ _ := extraFits_iff
    have fits := (localBytes_le_iff (fixedBytes_le.trans room) _).trans extra.symm
    refine ⟨fun bytes => .inr (fits.mp bytes), fun either => ?_⟩
    obtain ⟨q, whole⟩ | others := either
    · have none : ∀ d, extraCells di threads d = 0 := by
        simp [extraCells, whole]
      rw [localBytes_forceFlags nonzero, none, Nat.zero_mul, Nat.add_zero]
      exact stack_fits fixedBytes_le room (levelSize_pos warp nonzero)
    · exact fits.mpr others

end

/-- A group of two warps with 32 kilobytes. -/
theorem nbFindMaxDepthForDevice_iff_warps :
    (32 : UInt32).toNat ≤ (64 : UInt64).toNat ∧
      ((nbFindMaxDepthForDevice true ⟨32768, 32⟩ 64 true).Ensures (fun d =>
          (forceFlags true ⟨32768, 32⟩ 64 true false d).localBytes ≤ (32768 : UInt64).toNat) ↔
        (32 : UInt32).toNat ≠ 0 ∧ (32768 : UInt64).toNat ≠ 0 ∧
          constantPieces true ⟨32768, 32⟩ 64 + levelSize true ⟨32768, 32⟩ 64 true ≤
            (32768 : UInt64).toNat ∧
          ((32 : UInt32).toNat ∣ (64 : UInt64).toNat ∨
            ExtraFits true ⟨32768, 32⟩ 64 true false)) :=
  ⟨by decide, nbFindMaxDepthForDevice_iff (by decide)⟩

/-- An accelerator without warps and 16 kilobytes, with groups of 256 work-items: the depth
wraps and the limit is returned, for which the kernel needs two megabytes. -/
theorem nbFindMaxDepthForDevice_accelerator :
    (1 : UInt32).toNat ≤ (256 : UInt64).toNat ∧
      ¬(nbFindMaxDepthForDevice true ⟨16384, 1⟩ 256 true).Ensures (fun d =>
        (forceFlags true ⟨16384, 1⟩ 256 true false d).localBytes ≤ (16384 : UInt64).toNat) ∧
      (nbFindMaxDepthForDevice true ⟨16384, 1⟩ 256 true).result = .ok 128 ∧
      (16384 : UInt64).toNat < (forceFlags true ⟨16384, 1⟩ 256 true false 128).localBytes :=
  ⟨by decide, fun fits => absurd fits.1 (by decide +kernel), by rfl, by decide +kernel⟩

end MilkyWay.NBody
