import Mathlib

/-! Vectors with three components over an ordered field and axis-parallel cubes
with their octants. Bits 2, 1 and 0 of an octant's index choose its upper half on
the x, y and z axes. -/

namespace MilkyWay.Foundation

/-! ## Numerals

The numerals that definitions over any field write, and those of the index types, each with
its side condition as one named fact. A definition elaborated with this namespace open carries
the name; otherwise it carries a proof of its own, which is shared or not shared with the
definitions before it according to the file that it is compiled in. -/

namespace Numerals

scoped instance atLeastTwo_two : Nat.AtLeastTwo 2 := inferInstance

scoped instance atLeastTwo_three : Nat.AtLeastTwo 3 := inferInstance

scoped instance atLeastTwo_four : Nat.AtLeastTwo 4 := inferInstance

scoped instance atLeastTwo_five : Nat.AtLeastTwo 5 := inferInstance

scoped instance atLeastTwo_ten : Nat.AtLeastTwo 10 := inferInstance

scoped instance neZero_two : NeZero 2 := inferInstance

scoped instance neZero_six : NeZero 6 := inferInstance

scoped instance neZero_eight : NeZero 8 := inferInstance

end Numerals

/-! ## Vectors -/

structure Vec3 (R : Type*) where
  x : R
  y : R
  z : R
deriving DecidableEq

namespace Vec3

variable {R : Type*}

instance [Zero R] : Zero (Vec3 R) := ⟨⟨0, 0, 0⟩⟩
instance [Add R] : Add (Vec3 R) := ⟨fun v w => ⟨v.x + w.x, v.y + w.y, v.z + w.z⟩⟩
instance [Neg R] : Neg (Vec3 R) := ⟨fun v => ⟨-v.x, -v.y, -v.z⟩⟩
instance [Sub R] : Sub (Vec3 R) := ⟨fun v w => ⟨v.x - w.x, v.y - w.y, v.z - w.z⟩⟩
instance [Mul R] : SMul R (Vec3 R) := ⟨fun a v => ⟨a * v.x, a * v.y, a * v.z⟩⟩

@[ext] theorem ext {v w : Vec3 R} (hx : v.x = w.x) (hy : v.y = w.y) (hz : v.z = w.z) : v = w := by
  cases v
  cases w
  simp_all

@[simp] theorem zero_x [Zero R] : (0 : Vec3 R).x = 0 := rfl
@[simp] theorem zero_y [Zero R] : (0 : Vec3 R).y = 0 := rfl
@[simp] theorem zero_z [Zero R] : (0 : Vec3 R).z = 0 := rfl
@[simp] theorem add_x [Add R] (v w : Vec3 R) : (v + w).x = v.x + w.x := rfl
@[simp] theorem add_y [Add R] (v w : Vec3 R) : (v + w).y = v.y + w.y := rfl
@[simp] theorem add_z [Add R] (v w : Vec3 R) : (v + w).z = v.z + w.z := rfl
@[simp] theorem neg_x [Neg R] (v : Vec3 R) : (-v).x = -v.x := rfl
@[simp] theorem neg_y [Neg R] (v : Vec3 R) : (-v).y = -v.y := rfl
@[simp] theorem neg_z [Neg R] (v : Vec3 R) : (-v).z = -v.z := rfl
@[simp] theorem sub_x [Sub R] (v w : Vec3 R) : (v - w).x = v.x - w.x := rfl
@[simp] theorem sub_y [Sub R] (v w : Vec3 R) : (v - w).y = v.y - w.y := rfl
@[simp] theorem sub_z [Sub R] (v w : Vec3 R) : (v - w).z = v.z - w.z := rfl
@[simp] theorem smul_x [Mul R] (a : R) (v : Vec3 R) : (a • v).x = a * v.x := rfl
@[simp] theorem smul_y [Mul R] (a : R) (v : Vec3 R) : (a • v).y = a * v.y := rfl
@[simp] theorem smul_z [Mul R] (a : R) (v : Vec3 R) : (a • v).z = a * v.z := rfl

instance [AddCommGroup R] : AddCommGroup (Vec3 R) where
  add_assoc u v w := by ext <;> simp [add_assoc]
  zero_add v := by ext <;> simp
  add_zero v := by ext <;> simp
  add_comm v w := by ext <;> simp [add_comm]
  neg_add_cancel v := by ext <;> simp
  sub_eq_add_neg v w := by ext <;> simp [sub_eq_add_neg]
  nsmul := nsmulRec
  zsmul := zsmulRec

instance [CommRing R] : Module R (Vec3 R) where
  one_smul v := by ext <;> simp
  mul_smul a b v := by ext <;> simp [mul_assoc]
  smul_zero a := by ext <;> simp
  smul_add a v w := by ext <;> simp [mul_add]
  add_smul a b v := by ext <;> simp [add_mul]
  zero_smul v := by ext <;> simp

def normSq [Add R] [Mul R] (v : Vec3 R) : R := v.x * v.x + v.y * v.y + v.z * v.z

end Vec3

structure Cube (R : Type*) where
  center : Vec3 R
  size : R

namespace Cube

variable {R : Type*} [Field R] [LinearOrder R]

def Contains (Q : Cube R) (p : Vec3 R) : Prop :=
  |p.x - Q.center.x| ≤ Q.size / 2 ∧ |p.y - Q.center.y| ≤ Q.size / 2 ∧
    |p.z - Q.center.z| ≤ Q.size / 2

def offset (c size : R) (upper : Bool) : R := c + if upper then size / 4 else -(size / 4)

def octant (Q : Cube R) (i : Fin 8) : Cube R where
  center := ⟨offset Q.center.x Q.size (i.val.testBit 2),
    offset Q.center.y Q.size (i.val.testBit 1), offset Q.center.z Q.size (i.val.testBit 0)⟩
  size := Q.size / 2

def octantOf (center p : Vec3 R) : Fin 8 :=
  (if center.x ≤ p.x then 4 else 0) + (if center.y ≤ p.y then 2 else 0) +
    (if center.z ≤ p.z then 1 else 0)

omit [Field R] in
theorem testBit_octantOf (center p : Vec3 R) :
    (octantOf center p).val.testBit 2 = decide (center.x ≤ p.x) ∧
      (octantOf center p).val.testBit 1 = decide (center.y ≤ p.y) ∧
      (octantOf center p).val.testBit 0 = decide (center.z ≤ p.z) := by
  unfold octantOf
  split_ifs with hx hy hz hz hy hz hz <;> simp only [hx, hy, hz] <;> decide

def farthestSq (Q : Cube R) (c : Vec3 R) : R :=
  (Q.size / 2 + |c.x - Q.center.x|) * (Q.size / 2 + |c.x - Q.center.x|) +
    (Q.size / 2 + |c.y - Q.center.y|) * (Q.size / 2 + |c.y - Q.center.y|) +
    (Q.size / 2 + |c.z - Q.center.z|) * (Q.size / 2 + |c.z - Q.center.z|)

def FarCorner (Q : Cube R) (c p : Vec3 R) : Prop :=
  |c.x - p.x| = Q.size / 2 + |c.x - Q.center.x| ∧ |c.y - p.y| = Q.size / 2 + |c.y - Q.center.y| ∧
    |c.z - p.z| = Q.size / 2 + |c.z - Q.center.z|

instance (Q : Cube R) (c p : Vec3 R) : Decidable (Q.FarCorner c p) :=
  inferInstanceAs (Decidable (_ ∧ _ ∧ _))

variable [IsStrictOrderedRing R]

private theorem le_of_offset (c size p : R) (upper : Bool)
    (h : |p - offset c size upper| ≤ size / 2 / 2) : |p - c| ≤ size / 2 := by
  rw [abs_le] at h ⊢
  cases upper <;> simp only [offset, if_true, Bool.false_eq_true, if_false] at h <;>
    constructor <;> linarith

private theorem offset_le (c size p : R) (h : |p - c| ≤ size / 2) :
    |p - offset c size (decide (c ≤ p))| ≤ size / 2 / 2 := by
  rw [abs_le] at h ⊢
  by_cases hp : c ≤ p <;>
    simp only [offset, hp, decide_true, decide_false, if_true, Bool.false_eq_true, if_false] <;>
    constructor <;> linarith

theorem contains_of_octant (Q : Cube R) (i : Fin 8) (p : Vec3 R)
    (h : (Q.octant i).Contains p) : Q.Contains p :=
  ⟨le_of_offset _ _ _ _ h.1, le_of_offset _ _ _ _ h.2.1, le_of_offset _ _ _ _ h.2.2⟩

theorem octantOf_contains (Q : Cube R) (p : Vec3 R) (h : Q.Contains p) :
    (Q.octant (octantOf Q.center p)).Contains p := by
  obtain ⟨hx, hy, hz⟩ := testBit_octantOf Q.center p
  simp only [octant, Contains, hx, hy, hz]
  exact ⟨offset_le _ _ _ h.1, offset_le _ _ _ h.2.1, offset_le _ _ _ h.2.2⟩

private theorem sq_sub_le (c s p q : R) (hp : |p - c| ≤ s / 2) (hq : |q - c| ≤ s / 2) :
    (q - p) * (q - p) ≤ s * s := by
  rw [abs_le] at hp hq
  nlinarith

theorem normSq_sub_lt (Q : Cube R) (p q : Vec3 R) (hs : 0 < Q.size)
    (hp : Q.Contains p) (hq : Q.Contains q) :
    (q - p).normSq < (2 * Q.size) * (2 * Q.size) := by
  have hx := sq_sub_le _ _ _ _ hp.1 hq.1
  have hy := sq_sub_le _ _ _ _ hp.2.1 hq.2.1
  have hz := sq_sub_le _ _ _ _ hp.2.2 hq.2.2
  have pos : 0 < Q.size * Q.size := by positivity
  simp only [Vec3.normSq, Vec3.sub_x, Vec3.sub_y, Vec3.sub_z]
  linarith

private theorem abs_sub_le_far {c p q s : R} (hp : |p - q| ≤ s / 2) :
    |c - p| ≤ s / 2 + |c - q| := by
  have apart : c - p = c - q + (q - p) := by ring
  rw [apart, add_comm (s / 2)]
  refine (abs_add_le _ _).trans (add_le_add_right ?_ _)
  rw [abs_sub_comm]
  exact hp

theorem normSq_sub_le_farthestSq (Q : Cube R) (c p : Vec3 R) (hp : Q.Contains p) :
    (c - p).normSq ≤ Q.farthestSq c := by
  have square : ∀ a b : R, |a| ≤ b → a * a ≤ b * b := fun a b h => by
    rw [← abs_mul_abs_self]
    exact mul_self_le_mul_self (abs_nonneg a) h
  exact add_le_add (add_le_add (square _ _ (abs_sub_le_far hp.1))
    (square _ _ (abs_sub_le_far hp.2.1))) (square _ _ (abs_sub_le_far hp.2.2))

theorem farthestSq_le_iff (Q : Cube R) (c p : Vec3 R) (hp : Q.Contains p) :
    Q.farthestSq c ≤ (c - p).normSq ↔ Q.FarCorner c p := by
  have square : ∀ a b : R, |a| ≤ b → a * a ≤ b * b ∧ (b * b ≤ a * a → |a| = b) := fun a b h => by
    rw [← abs_mul_abs_self a]
    refine ⟨mul_self_le_mul_self (abs_nonneg a) h, fun back => h.antisymm ?_⟩
    exact (mul_self_le_mul_self_iff ((abs_nonneg a).trans h) (abs_nonneg a)).mpr back
  obtain ⟨lx, ex⟩ := square _ _ (abs_sub_le_far hp.1 : |c.x - p.x| ≤ _)
  obtain ⟨ly, ey⟩ := square _ _ (abs_sub_le_far hp.2.1 : |c.y - p.y| ≤ _)
  obtain ⟨lz, ez⟩ := square _ _ (abs_sub_le_far hp.2.2 : |c.z - p.z| ≤ _)
  constructor
  · intro far
    simp only [farthestSq, Vec3.normSq, Vec3.sub_x, Vec3.sub_y, Vec3.sub_z] at far
    refine ⟨ex ?_, ey ?_, ez ?_⟩ <;> linarith
  · rintro ⟨hx, hy, hz⟩
    refine le_of_eq ?_
    simp only [farthestSq, Vec3.normSq, Vec3.sub_x, Vec3.sub_y, Vec3.sub_z, ← hx, ← hy, ← hz,
      abs_mul_abs_self]

theorem farthestSq_pos (Q : Cube R) (c : Vec3 R) (pos : 0 < Q.size) : 0 < Q.farthestSq c := by
  have hx := abs_nonneg (c.x - Q.center.x)
  have hy := abs_nonneg (c.y - Q.center.y)
  have hz := abs_nonneg (c.z - Q.center.z)
  unfold farthestSq
  positivity

private theorem mul_self_inner_le (a b c x y z : R) :
    (a * x + b * y + c * z) * (a * x + b * y + c * z) ≤
      (a * a + b * b + c * c) * (x * x + y * y + z * z) := by
  have lagrange : (a * a + b * b + c * c) * (x * x + y * y + z * z) =
      (a * x + b * y + c * z) * (a * x + b * y + c * z) + ((a * y - b * x) * (a * y - b * x) +
        (b * z - c * y) * (b * z - c * y) + (c * x - a * z) * (c * x - a * z)) := by ring
  rw [lagrange]
  refine le_add_of_nonneg_right (add_nonneg (add_nonneg ?_ ?_) ?_) <;> exact mul_self_nonneg _

theorem normSq_sub_lt_offset (Q : Cube R) (c p : Vec3 R) (d : R) (pos : 0 < Q.size)
    (hp : Q.Contains p) (hd : 0 ≤ d) (offset : (c - Q.center).normSq ≤ d * d) :
    (c - p).normSq < (Q.size + d) * (Q.size + d) := by
  obtain ⟨hx, hy, hz⟩ := hp
  have square : ∀ a : R, |a| ≤ Q.size / 2 → a * a ≤ Q.size / 2 * (Q.size / 2) := fun a h => by
    rw [← abs_mul_abs_self]
    exact mul_self_le_mul_self (abs_nonneg a) h
  have hx := square _ hx
  have hy := square _ hy
  have hz := square _ hz
  simp only [Vec3.normSq, Vec3.sub_x, Vec3.sub_y, Vec3.sub_z] at offset ⊢
  set ux := c.x - Q.center.x with hux
  set uy := c.y - Q.center.y with huy
  set uz := c.z - Q.center.z with huz
  set vx := p.x - Q.center.x with hvx
  set vy := p.y - Q.center.y with hvy
  set vz := p.z - Q.center.z with hvz
  have ex : c.x - p.x = ux - vx := by rw [hux, hvx]; ring
  have ey : c.y - p.y = uy - vy := by rw [huy, hvy]; ring
  have ez : c.z - p.z = uz - vz := by rw [huz, hvz]; ring
  rw [ex, ey, ez]
  have near : vx * vx + vy * vy + vz * vz < Q.size * Q.size := by
    have side : 0 < Q.size * Q.size := by positivity
    linarith
  have nonneg : 0 ≤ vx * vx + vy * vy + vz * vz :=
    add_nonneg (add_nonneg (mul_self_nonneg _) (mul_self_nonneg _)) (mul_self_nonneg _)
  -- the inner product of the two displacements, by Cauchy and Schwarz
  have inner : (ux * vx + uy * vy + uz * vz) * (ux * vx + uy * vy + uz * vz) ≤
      (d * Q.size) * (d * Q.size) := by
    calc (ux * vx + uy * vy + uz * vz) * (ux * vx + uy * vy + uz * vz)
        ≤ (ux * ux + uy * uy + uz * uz) * (vx * vx + vy * vy + vz * vz) :=
          mul_self_inner_le ux uy uz vx vy vz
      _ ≤ (d * d) * (Q.size * Q.size) := mul_le_mul offset near.le nonneg (by positivity)
      _ = (d * Q.size) * (d * Q.size) := by ring
  have cross : |ux * vx + uy * vy + uz * vz| ≤ d * Q.size := by
    refine (mul_self_le_mul_self_iff (abs_nonneg _) (by positivity)).mpr ?_
    rw [abs_mul_abs_self]
    exact inner
  have below := (abs_le.mp cross).1
  have expand : (ux - vx) * (ux - vx) + (uy - vy) * (uy - vy) + (uz - vz) * (uz - vz) =
      (ux * ux + uy * uy + uz * uz) - 2 * (ux * vx + uy * vy + uz * vz) +
        (vx * vx + vy * vy + vz * vz) := by ring
  have sum : (Q.size + d) * (Q.size + d) = d * d + 2 * (d * Q.size) + Q.size * Q.size := by ring
  rw [expand, sum]
  linarith

end Cube

end MilkyWay.Foundation
