import MilkyWay.Foundation.Cube

/-! Boxes along the axes. The join of two boxes is the least one around both, so that a
box joined from points in any order is known from the points that another box contains.
The cube around a box has its centre and its longest side. -/

namespace MilkyWay.Foundation

structure Box (R : Type*) where
  lo : Vec3 R
  hi : Vec3 R

namespace Box

variable {R : Type*}

def point (p : Vec3 R) : Box R := ⟨p, p⟩

section
variable [LinearOrder R]

def Contains (b : Box R) (p : Vec3 R) : Prop :=
  (b.lo.x ≤ p.x ∧ p.x ≤ b.hi.x) ∧ (b.lo.y ≤ p.y ∧ p.y ≤ b.hi.y) ∧ b.lo.z ≤ p.z ∧ p.z ≤ b.hi.z

/-- One box lies in the other. -/
instance : LE (Box R) where
  le a b := (b.lo.x ≤ a.lo.x ∧ a.hi.x ≤ b.hi.x) ∧ (b.lo.y ≤ a.lo.y ∧ a.hi.y ≤ b.hi.y) ∧
    b.lo.z ≤ a.lo.z ∧ a.hi.z ≤ b.hi.z

def join (a b : Box R) : Box R where
  lo := ⟨min a.lo.x b.lo.x, min a.lo.y b.lo.y, min a.lo.z b.lo.z⟩
  hi := ⟨max a.hi.x b.hi.x, max a.hi.y b.hi.y, max a.hi.z b.hi.z⟩

theorem le_def {a b : Box R} : a ≤ b ↔ (b.lo.x ≤ a.lo.x ∧ a.hi.x ≤ b.hi.x) ∧
    (b.lo.y ≤ a.lo.y ∧ a.hi.y ≤ b.hi.y) ∧ b.lo.z ≤ a.lo.z ∧ a.hi.z ≤ b.hi.z := Iff.rfl

theorem le_refl (b : Box R) : b ≤ b := ⟨⟨le_rfl, le_rfl⟩, ⟨le_rfl, le_rfl⟩, le_rfl, le_rfl⟩

@[simp] theorem point_le_iff {p : Vec3 R} {b : Box R} : point p ≤ b ↔ b.Contains p := Iff.rfl

@[simp] theorem join_le_iff {a b c : Box R} : a.join b ≤ c ↔ a ≤ c ∧ b ≤ c := by
  simp only [le_def, join, le_min_iff, max_le_iff]
  tauto

theorem ext_of_le {a b : Box R} (h : ∀ c, a ≤ c ↔ b ≤ c) : a = b := by
  obtain ⟨⟨ax, ax'⟩, ⟨ay, ay'⟩, az, az'⟩ := (h b).mpr (le_refl b)
  obtain ⟨⟨bx, bx'⟩, ⟨by_, by'⟩, bz, bz'⟩ := (h a).mp (le_refl a)
  cases a
  cases b
  rw [Box.mk.injEq]
  exact ⟨Vec3.ext (bx.antisymm ax) (by_.antisymm ay) (bz.antisymm az),
    Vec3.ext (ax'.antisymm bx') (ay'.antisymm by') (az'.antisymm bz')⟩

theorem Contains.mono {a b : Box R} {p : Vec3 R} (h : a.Contains p) (le : a ≤ b) :
    b.Contains p :=
  ⟨⟨le.1.1.trans h.1.1, h.1.2.trans le.1.2⟩, ⟨le.2.1.1.trans h.2.1.1, h.2.1.2.trans le.2.1.2⟩,
    le.2.2.1.trans h.2.2.1, h.2.2.2.trans le.2.2.2⟩

theorem foldl_join_le_iff {ι : Type*} (l : List ι) (f : ι → Box R) (a b : Box R) :
    l.foldl (fun c i => c.join (f i)) a ≤ b ↔ a ≤ b ∧ ∀ i ∈ l, f i ≤ b := by
  induction l generalizing a with
  | nil => simp
  | cons i l ih =>
      rw [List.foldl_cons, ih, join_le_iff, List.forall_mem_cons, and_assoc]

/-- The box around the first `n` of a sequence of points, or around the first alone. -/
def hull (x : ℕ → Vec3 R) (n : ℕ) : Box R :=
  (List.range n).foldl (fun b i => b.join (point (x i))) (point (x 0))

theorem hull_le_iff (x : ℕ → Vec3 R) (n : ℕ) (b : Box R) :
    hull x n ≤ b ↔ b.Contains (x 0) ∧ ∀ i < n, b.Contains (x i) := by
  rw [hull, foldl_join_le_iff, point_le_iff]
  simp only [List.mem_range, point_le_iff]

theorem hull_contains (x : ℕ → Vec3 R) (n i : ℕ) (hi : i = 0 ∨ i < n) :
    (hull x n).Contains (x i) := by
  have all := (hull_le_iff x n (hull x n)).mp (le_refl _)
  rcases hi with rfl | hi
  · exact all.1
  · exact all.2 i hi

end

open Numerals in
/-- The cube at the centre of a box with its longest side. -/
def cube [Field R] [LinearOrder R] (b : Box R) : Cube R where
  center := ⟨(b.lo.x + b.hi.x) / 2, (b.lo.y + b.hi.y) / 2, (b.lo.z + b.hi.z) / 2⟩
  size := max (max (b.hi.x - b.lo.x) (b.hi.y - b.lo.y)) (b.hi.z - b.lo.z)

variable [Field R] [LinearOrder R] [IsStrictOrderedRing R]

private theorem abs_sub_mid_le {a b p s : R} (lo : a ≤ p) (hi : p ≤ b) (side : b - a ≤ s) :
    |p - (a + b) / 2| ≤ s / 2 := by
  rw [abs_le]
  constructor <;> linarith

theorem cube_contains {b : Box R} {p : Vec3 R} (h : b.Contains p) : b.cube.Contains p :=
  ⟨abs_sub_mid_le h.1.1 h.1.2 ((le_max_left _ _).trans (le_max_left _ _)),
    abs_sub_mid_le h.2.1.1 h.2.1.2 ((le_max_right _ _).trans (le_max_left _ _)),
    abs_sub_mid_le h.2.2.1 h.2.2.2 (le_max_right _ _)⟩

theorem cube_size_nonneg {b : Box R} {p : Vec3 R} (h : b.Contains p) : 0 ≤ b.cube.size := by
  have side : 0 ≤ b.hi.x - b.lo.x := sub_nonneg.mpr (h.1.1.trans h.1.2)
  exact side.trans ((le_max_left _ _).trans (le_max_left _ _))

end Box

end MilkyWay.Foundation
