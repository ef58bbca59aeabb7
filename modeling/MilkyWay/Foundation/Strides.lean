import Mathlib.Data.List.Basic
import Mathlib.Data.List.Nodup
import Mathlib.Data.List.Range
import Mathlib.Tactic.Ring

/-! Indices that work-items take in strides, and a range that is cut into chunks. -/

namespace MilkyWay.Foundation

/-- The indices from `k` in strides of `inc` below `top`, of which there are at most as many as
the first argument says. -/
def strided (inc top : ℕ) : ℕ → ℕ → List ℕ
  | 0, _ => []
  | n + 1, k => if k < top then k :: strided inc top n (k + inc) else []

theorem mem_strided {inc top : ℕ} (pos : 0 < inc) {n k x : ℕ} (enough : top ≤ k + n) :
    x ∈ strided inc top n k ↔ x < top ∧ ∃ t, x = k + t * inc := by
  induction n generalizing k with
  | zero =>
      rw [strided]
      refine ⟨fun none => absurd none List.not_mem_nil, fun ⟨lt, t, here⟩ => ?_⟩
      omega
  | succ n ih =>
      rw [strided]
      split
      · next inside =>
          rw [List.mem_cons, ih (by omega)]
          constructor
          · rintro (rfl | ⟨lt, t, rfl⟩)
            · exact ⟨inside, 0, by simp⟩
            · exact ⟨lt, t + 1, by ring⟩
          · rintro ⟨lt, t, rfl⟩
            cases t with
            | zero => exact .inl (by simp)
            | succ t => exact .inr ⟨lt, t, by ring⟩
      · next outside =>
          refine ⟨fun none => absurd none List.not_mem_nil, fun ⟨lt, t, here⟩ => ?_⟩
          omega

/-- Where item `w` begins in a range from `bottom` on, when the first item begins at a multiple of
`warp`. -/
def alignedStart (warp inc bottom w : ℕ) : ℕ :=
  let k := bottom - bottom % warp + w
  if k < bottom then k + inc else k

theorem exists_stride_from {inc base x : ℕ} (pos : 0 < inc) (le : base ≤ x) :
    ∃ w < inc, ∃ t, x = base + w + t * inc :=
  ⟨(x - base) % inc, Nat.mod_lt _ pos, (x - base) / inc, by
    have divided := Nat.mod_add_div' (x - base) inc
    omega⟩

theorem stride_unique {inc base w v t u : ℕ} (hw : w < inc) (hv : v < inc)
    (same : base + w + t * inc = base + v + u * inc) : w = v := by
  have rest : (w + t * inc) % inc = (v + u * inc) % inc := by
    congr 1
    omega
  rwa [Nat.add_mul_mod_self_right, Nat.add_mul_mod_self_right, Nat.mod_eq_of_lt hw,
    Nat.mod_eq_of_lt hv] at rest

theorem le_alignedStart {warp inc bottom w : ℕ} (pos : 0 < warp) (le : warp ≤ inc) :
    bottom ≤ alignedStart warp inc bottom w := by
  have rest := Nat.mod_lt bottom pos
  rw [alignedStart]
  split <;> omega

theorem exists_alignedStart {warp inc bottom x : ℕ} (pos : 0 < inc) (lower : bottom ≤ x) :
    ∃ w < inc, ∃ t, x = alignedStart warp inc bottom w + t * inc := by
  have base : bottom - bottom % warp ≤ x := (Nat.sub_le _ _).trans lower
  obtain ⟨w, lt, t, here⟩ := exists_stride_from pos base
  refine ⟨w, lt, ?_⟩
  rw [alignedStart]
  split
  · next below =>
      cases t with
      | zero => omega
      | succ t => exact ⟨t, by rw [here]; ring⟩
  · exact ⟨t, here⟩

theorem alignedStart_unique {warp inc bottom w v t u : ℕ} (hw : w < inc) (hv : v < inc)
    (same : alignedStart warp inc bottom w + t * inc = alignedStart warp inc bottom v + u * inc) :
    w = v := by
  have shift : ∀ w t, ∃ s, alignedStart warp inc bottom w + t * inc =
      bottom - bottom % warp + w + s * inc := by
    intro w t
    rw [alignedStart]
    split
    · exact ⟨t + 1, by ring⟩
    · exact ⟨t, rfl⟩
  obtain ⟨s, here⟩ := shift w t
  obtain ⟨r, there⟩ := shift v u
  exact stride_unique hw hv (here.symm.trans (same.trans there))

theorem nodup_strided {inc top : ℕ} (pos : 0 < inc) (n k : ℕ) : (strided inc top n k).Nodup := by
  have later : ∀ n k, ∀ x ∈ strided inc top n k, k ≤ x := by
    intro n
    induction n with
    | zero => exact fun k x none => absurd none List.not_mem_nil
    | succ n ih =>
        intro k x mem
        rw [strided] at mem
        split at mem
        · rcases List.mem_cons.mp mem with rfl | mem
          · exact le_rfl
          · exact (Nat.le_add_right k inc).trans (ih _ x mem)
        · cases mem
  induction n generalizing k with
  | zero => exact List.nodup_nil
  | succ n ih =>
      rw [strided]
      split
      · refine List.nodup_cons.mpr ⟨fun again => ?_, ih _⟩
        have beyond := later n _ k again
        omega
      · exact List.nodup_nil

theorem strided_perm {inc base top : ℕ} (pos : 0 < inc) :
    ((List.range inc).flatMap fun w => strided inc top top (base + w)).Perm
      (List.range' base (top - base)) := by
  have mem : ∀ w x, x ∈ strided inc top top (base + w) ↔ x < top ∧ ∃ t, x = base + w + t * inc :=
    fun w x => mem_strided pos (Nat.le_add_left _ _)
  refine (List.perm_ext_iff_of_nodup ?_ List.nodup_range').mpr fun x => ?_
  · refine List.nodup_flatMap.mpr ⟨fun w _ => nodup_strided pos _ _, ?_⟩
    refine List.nodup_range.pairwise_of_forall_ne fun w hw v hv ne x here there => ne ?_
    obtain ⟨-, t, first⟩ := (mem w x).mp here
    obtain ⟨-, u, second⟩ := (mem v x).mp there
    exact stride_unique (List.mem_range.mp hw) (List.mem_range.mp hv) (first.symm.trans second)
  · rw [List.mem_flatMap, List.mem_range'_1]
    constructor
    · rintro ⟨w, -, found⟩
      obtain ⟨upper, t, rfl⟩ := (mem w x).mp found
      omega
    · rintro ⟨lower, upper⟩
      obtain ⟨w, lt, t, here⟩ := exists_stride_from pos lower
      exact ⟨w, List.mem_range.mpr lt, (mem w x).mpr ⟨by omega, t, here⟩⟩

theorem stride_before {first inc u t : ℕ} (lt : first + u * inc < first + t * inc + inc)
    (ne : first + u * inc ≠ first + t * inc) : first + u * inc < first + t * inc := by
  have less : u * inc < (t + 1) * inc := by
    rw [Nat.succ_mul]
    omega
  have le : u ≤ t := Nat.lt_succ_iff.mp (Nat.lt_of_mul_lt_mul_right less)
  have more := Nat.mul_le_mul_right inc le
  omega

def chunkLoop (top global : ℕ) : ℕ → ℕ → ℕ → List (ℕ × ℕ)
  | 0, _, _ => []
  | n + 1, offset, upperBound =>
      let upperBound := if upperBound > top then top else upperBound
      (offset, upperBound) :: chunkLoop top global n (offset + global) (upperBound + global)

theorem flatMap_chunkLoop {top global n offset upperBound : ℕ}
    (start : upperBound = min offset top + global) (reach : top ≤ offset + n * global) :
    (chunkLoop top global n offset upperBound).flatMap
      (fun c => List.range' c.1 (c.2 - c.1)) = List.range' offset (top - offset) := by
  induction n generalizing offset upperBound with
  | zero =>
      have none : top - offset = 0 := by omega
      rw [none]
      rfl
  | succ n ih =>
      rw [Nat.succ_mul] at reach
      have cut : (if upperBound > top then top else upperBound) =
          min (min offset top + global) top := by
        rw [start]
        split <;> omega
      rw [chunkLoop, List.flatMap_cons, cut, ih (by omega) (by omega)]
      rcases lt_or_ge top (offset + global) with last | more
      · have here : min (min offset top + global) top - offset = top - offset := by omega
        have rest : top - (offset + global) = 0 := by omega
        rw [here, rest, List.range'_zero, List.append_nil]
      · have here : min (min offset top + global) top - offset = global := by omega
        have whole : top - offset = global + (top - (offset + global)) := by omega
        rw [here, whole, List.range'_append_1]

theorem snd_le_of_mem_chunkLoop {top global n offset upperBound : ℕ} {c : ℕ × ℕ}
    (h : c ∈ chunkLoop top global n offset upperBound) : c.2 ≤ top := by
  induction n generalizing offset upperBound with
  | zero => cases h
  | succ n ih =>
      rw [chunkLoop, List.mem_cons] at h
      rcases h with rfl | h
      · dsimp only
        split <;> omega
      · exact ih h

end MilkyWay.Foundation
