import Mathlib.Algebra.BigOperators.Field
import Mathlib.Algebra.Order.BigOperators.Ring.Finset
import Mathlib.Algebra.Order.Field.Basic
import Mathlib.Tactic.LinearCombination
import Mathlib.Tactic.Linarith
import Mathlib.Topology.Algebra.Monoid
import Mathlib.Topology.Algebra.Ring.Real
import Mathlib.Topology.MetricSpace.ProperSpace.Real
import Mathlib.Topology.Order.Compact

/-! The transport of supplies to demands. Prices for the rows and columns bound the cost
of every flow from below, and a flow on cells whose cost is their price attains the
bound. A flow may be restricted to the lines that have a supply or demand. -/

namespace MilkyWay.Foundation

variable {ι κ ι' κ' F : Type*} [Fintype ι] [Fintype κ] [Fintype ι'] [Fintype κ']

section
variable [CommSemiring F] [PartialOrder F]

structure IsFlow (s : ι → F) (d : κ → F) (f : ι → κ → F) : Prop where
  nonneg : ∀ i j, 0 ≤ f i j
  row : ∀ i, ∑ j, f i j = s i
  col : ∀ j, ∑ i, f i j = d j

def flowCost (cost f : ι → κ → F) : F := ∑ i, ∑ j, f i j * cost i j

def transportCosts (s : ι → F) (d : κ → F) (cost : ι → κ → F) : Set F :=
  {c | ∃ f, IsFlow s d f ∧ flowCost cost f = c}

def priceOf (s : ι → F) (d : κ → F) (u : ι → F) (v : κ → F) : F :=
  ∑ i, s i * u i + ∑ j, d j * v j

variable {s : ι → F} {d : κ → F} {f cost : ι → κ → F}

theorem IsFlow.price_eq (flow : IsFlow s d f) (u : ι → F) (v : κ → F) :
    ∑ i, ∑ j, f i j * (u i + v j) = priceOf s d u v := by
  have rows : ∑ i, ∑ j, f i j * u i = ∑ i, s i * u i :=
    Finset.sum_congr rfl fun i _ => by rw [← Finset.sum_mul, flow.row]
  have cols : ∑ i, ∑ j, f i j * v j = ∑ j, d j * v j := by
    rw [Finset.sum_comm]
    exact Finset.sum_congr rfl fun j _ => by rw [← Finset.sum_mul, flow.col]
  simp only [mul_add, Finset.sum_add_distrib]
  rw [rows, cols, priceOf]

theorem IsFlow.total (flow : IsFlow s d f) : ∑ i, ∑ j, f i j = ∑ i, s i :=
  Finset.sum_congr rfl fun i _ => flow.row i

end

/-! ## Prices -/

section
variable [CommRing F] [LinearOrder F] [IsStrictOrderedRing F] {s : ι → F} {d : κ → F}
  {f cost : ι → κ → F} {u : ι → F} {v : κ → F}

theorem IsFlow.price_le (flow : IsFlow s d f) {eps : F}
    (prices : ∀ i j, u i + v j - eps ≤ cost i j) :
    priceOf s d u v - eps * ∑ i, s i ≤ flowCost cost f := by
  have cellwise : ∑ i, ∑ j, f i j * (u i + v j - eps) ≤ flowCost cost f :=
    Finset.sum_le_sum fun i _ => Finset.sum_le_sum fun j _ =>
      mul_le_mul_of_nonneg_left (prices i j) (flow.nonneg i j)
  have split : ∑ i, ∑ j, f i j * (u i + v j - eps) =
      ∑ i, ∑ j, f i j * (u i + v j) - eps * ∑ i, ∑ j, f i j := by
    simp only [mul_sub, Finset.sum_sub_distrib, ← Finset.sum_mul, mul_comm eps]
  rw [split, flow.price_eq, flow.total] at cellwise
  exact cellwise

end

/-! ## Lines without supply or demand -/

section
variable [CommRing F] [LinearOrder F] [IsStrictOrderedRing F]
  {s : ι → F} {d : κ → F} {s' : ι' → F} {d' : κ' → F} {p : ι → ι'} {q : κ → κ'}

omit [LinearOrder F] [IsStrictOrderedRing F] in
theorem sum_comp_of_zero_off (injective : Function.Injective p) {g : ι' → F}
    (off : ∀ k, (∀ i, p i ≠ k) → g k = 0) : ∑ i, g (p i) = ∑ k, g k := by
  classical
  rw [← Finset.sum_image fun i _ i' _ same => injective same]
  refine Finset.sum_subset (Finset.subset_univ _) fun k _ outside => off k fun i same => ?_
  exact outside (Finset.mem_image.mpr ⟨i, Finset.mem_univ i, same⟩)

theorem IsFlow.row_zero {g : ι' → κ' → F} (flow : IsFlow s' d' g) {k : ι'} (none : s' k = 0)
    (l : κ') : g k l = 0 := by
  have sum := flow.row k
  rw [none, Finset.sum_eq_zero_iff_of_nonneg fun l _ => flow.nonneg k l] at sum
  exact sum l (Finset.mem_univ l)

theorem IsFlow.col_zero {g : ι' → κ' → F} (flow : IsFlow s' d' g) {l : κ'} (none : d' l = 0)
    (k : ι') : g k l = 0 := by
  have sum := flow.col l
  rw [none, Finset.sum_eq_zero_iff_of_nonneg fun k _ => flow.nonneg k l] at sum
  exact sum k (Finset.mem_univ k)

theorem IsFlow.pull {g : ι' → κ' → F} (flow : IsFlow s' d' g) (pi : Function.Injective p)
    (qi : Function.Injective q) (supply : ∀ i, s' (p i) = s i) (demand : ∀ j, d' (q j) = d j)
    (noSupply : ∀ k, (∀ i, p i ≠ k) → s' k = 0) (noDemand : ∀ l, (∀ j, q j ≠ l) → d' l = 0)
    (cost : ι' → κ' → F) :
    IsFlow s d (fun i j => g (p i) (q j)) ∧
      flowCost (fun i j => cost (p i) (q j)) (fun i j => g (p i) (q j)) = flowCost cost g := by
  refine ⟨⟨fun i j => flow.nonneg _ _, fun i => ?_, fun j => ?_⟩, ?_⟩
  · rw [← supply, ← flow.row]
    exact sum_comp_of_zero_off qi fun l off => flow.col_zero (noDemand l off) _
  · rw [← demand, ← flow.col]
    exact sum_comp_of_zero_off (g := fun k => g k (q j)) pi
      fun k off => flow.row_zero (noSupply k off) _
  · have inner : ∀ i, ∑ j, g (p i) (q j) * cost (p i) (q j) = ∑ l, g (p i) l * cost (p i) l :=
      fun i => sum_comp_of_zero_off (g := fun l => g (p i) l * cost (p i) l) qi
        fun l off => by rw [flow.col_zero (noDemand l off), zero_mul]
    rw [flowCost, Finset.sum_congr rfl fun i _ => inner i]
    exact sum_comp_of_zero_off (g := fun k => ∑ l, g k l * cost k l) pi fun k off =>
      Finset.sum_eq_zero fun l _ => by rw [flow.row_zero (noSupply k off), zero_mul]

theorem IsFlow.push {f : ι → κ → F} (flow : IsFlow s d f)
    (pi : Function.Injective p) (qi : Function.Injective q) (supply : ∀ i, s' (p i) = s i)
    (demand : ∀ j, d' (q j) = d j) (noSupply : ∀ k, (∀ i, p i ≠ k) → s' k = 0)
    (noDemand : ∀ l, (∀ j, q j ≠ l) → d' l = 0) (cost : ι' → κ' → F) :
    ∃ g, IsFlow s' d' g ∧
      flowCost cost g = flowCost (fun i j => cost (p i) (q j)) f := by
  classical
  let g : ι' → κ' → F := fun k l => ∑ i, ∑ j, if p i = k ∧ q j = l then f i j else 0
  have at_cell : ∀ i j, g (p i) (q j) = f i j := by
    intro i j
    simp only [g, pi.eq_iff, qi.eq_iff]
    rw [Finset.sum_eq_single i, Finset.sum_eq_single j]
    · exact if_pos ⟨rfl, rfl⟩
    · exact fun j' _ other => if_neg fun same => other same.2
    · exact fun outside => absurd (Finset.mem_univ j) outside
    · exact fun i' _ other => Finset.sum_eq_zero fun j' _ => if_neg fun same => other same.1
    · exact fun outside => absurd (Finset.mem_univ i) outside
  have off_row : ∀ k, (∀ i, p i ≠ k) → ∀ l, g k l = 0 := fun k off l =>
    Finset.sum_eq_zero fun i _ => Finset.sum_eq_zero fun j _ => if_neg fun h => off i h.1
  have off_col : ∀ l, (∀ j, q j ≠ l) → ∀ k, g k l = 0 := fun l off k =>
    Finset.sum_eq_zero fun i _ => Finset.sum_eq_zero fun j _ => if_neg fun h => off j h.2
  have rows : ∀ i, ∑ l, g (p i) l = s i := by
    intro i
    rw [← sum_comp_of_zero_off qi fun l off => off_col l off (p i), ← flow.row]
    exact Finset.sum_congr rfl fun j _ => at_cell i j
  have cols : ∀ j, ∑ k, g k (q j) = d j := by
    intro j
    rw [← sum_comp_of_zero_off (g := fun k => g k (q j)) pi fun k off => off_row k off (q j),
      ← flow.col]
    exact Finset.sum_congr rfl fun i _ => at_cell i j
  refine ⟨g, ⟨?_, ?_, ?_⟩, ?_⟩
  · intro k l
    refine Finset.sum_nonneg fun i _ => Finset.sum_nonneg fun j _ => ?_
    by_cases cell : p i = k ∧ q j = l
    · rw [if_pos cell]
      exact flow.nonneg i j
    · rw [if_neg cell]
  · intro k
    by_cases line : ∃ i, p i = k
    · obtain ⟨i, rfl⟩ := line
      rw [rows, supply]
    · have off : ∀ i, p i ≠ k := not_exists.mp line
      rw [noSupply k off]
      exact Finset.sum_eq_zero fun l _ => off_row k off l
  · intro l
    by_cases line : ∃ j, q j = l
    · obtain ⟨j, rfl⟩ := line
      rw [cols, demand]
    · have off : ∀ j, q j ≠ l := not_exists.mp line
      rw [noDemand l off]
      exact Finset.sum_eq_zero fun k _ => off_col l off k
  · rw [flowCost, ← sum_comp_of_zero_off (g := fun k => ∑ l, g k l * cost k l) pi
      fun k off => Finset.sum_eq_zero fun l _ => by rw [off_row k off, zero_mul]]
    refine Finset.sum_congr rfl fun i _ => ?_
    rw [← sum_comp_of_zero_off (g := fun l => g (p i) l * cost (p i) l) qi
      fun l off => by rw [off_col l off, zero_mul]]
    exact Finset.sum_congr rfl fun j _ => by rw [at_cell]

end

/-! ## The least cost -/

theorem exists_least_cost {s : ι → ℝ} {d : κ → ℝ} {f : ι → κ → ℝ} (flow : IsFlow s d f)
    (cost : ι → κ → ℝ) : ∃ m, IsLeast (transportCosts s d cost) m := by
  let box : Set (ι → κ → ℝ) := Set.univ.pi fun i => Set.univ.pi fun _ => Set.Icc 0 (s i)
  have bounded : {g | IsFlow s d g} ⊆ box := by
    intro g flow i _ j _
    refine ⟨flow.nonneg i j, ?_⟩
    rw [← flow.row i]
    exact Finset.single_le_sum (fun j _ => flow.nonneg i j) (Finset.mem_univ j)
  have closed : IsClosed {g : ι → κ → ℝ | IsFlow s d g} := by
    have split : {g : ι → κ → ℝ | IsFlow s d g} =
        {g | ∀ i j, 0 ≤ g i j} ∩ ({g | ∀ i, ∑ j, g i j = s i} ∩ {g | ∀ j, ∑ i, g i j = d j}) :=
      Set.ext fun g => ⟨fun flow => ⟨flow.nonneg, flow.row, flow.col⟩,
        fun parts => ⟨parts.1, parts.2.1, parts.2.2⟩⟩
    rw [split]
    refine IsClosed.inter ?_ (IsClosed.inter ?_ ?_)
    · simp only [Set.ofPred_forall]
      exact isClosed_iInter fun i => isClosed_iInter fun j =>
        isClosed_le continuous_const (by fun_prop)
    · simp only [Set.ofPred_forall]
      exact isClosed_iInter fun i => isClosed_eq (by fun_prop) continuous_const
    · simp only [Set.ofPred_forall]
      exact isClosed_iInter fun j => isClosed_eq (by fun_prop) continuous_const
  have compact : IsCompact {g | IsFlow s d g} :=
    (isCompact_univ_pi fun i => isCompact_univ_pi fun _ => isCompact_Icc).of_isClosed_subset
      closed bounded
  have continuous : Continuous fun g : ι → κ → ℝ => flowCost cost g := by
    unfold flowCost
    fun_prop
  obtain ⟨g, least, min⟩ := compact.exists_isMinOn ⟨f, flow⟩ continuous.continuousOn
  refine ⟨flowCost cost g, ⟨g, least, rfl⟩, ?_⟩
  rintro c ⟨g', flow', rfl⟩
  exact min flow'

end MilkyWay.Foundation
