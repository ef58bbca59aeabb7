import Mathlib.Data.List.Basic
import Mathlib.Data.Nat.Notation

/-! A register of flags. Each write adds the bits of a status or puts the status in the
place of all that was there. -/

namespace MilkyWay.Foundation

inductive FlagWrite (w : ℕ) where
  | or (status : BitVec w)
  | set (status : BitVec w)
deriving DecidableEq

variable {w : ℕ}

def FlagWrite.status : FlagWrite w → BitVec w
  | or status => status
  | set status => status

/-- All bits of `a` are among those of `b`. -/
def Within (a b : BitVec w) : Prop := a ||| b = b

instance (a b : BitVec w) : Decidable (Within a b) := inferInstanceAs (Decidable (_ = _))

def joined (statuses : List (BitVec w)) : BitVec w := statuses.foldr (· ||| ·) 0

theorem within_joined {a : BitVec w} {statuses : List (BitVec w)} (mem : a ∈ statuses) :
    Within a (joined statuses) := by
  induction statuses with
  | nil => cases mem
  | cons s statuses ih =>
      obtain rfl | later := List.mem_cons.mp mem
      · rw [Within, joined, List.foldr_cons, ← BitVec.or_assoc, BitVec.or_self]
      · have within : a ||| joined statuses = joined statuses := ih later
        rw [Within, joined, List.foldr_cons, BitVec.or_comm s, ← BitVec.or_assoc]
        exact congrArg (· ||| s) within

end MilkyWay.Foundation
