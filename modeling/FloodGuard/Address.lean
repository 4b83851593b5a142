import Std.Data.ExtTreeMap

/-!
Internet addresses of the two families. Addresses are ordered by family first, version 4 in front,
and by value within a family.
-/
namespace FloodGuard

inductive Family where
  | v4
  | v6
deriving DecidableEq, Repr

/-- The number of bits in an address of the family. -/
def Family.width : Family → Nat
  | .v4 => 32
  | .v6 => 128

def Family.name : Family → String
  | .v4 => "IPv4"
  | .v6 => "IPv6"

inductive Address where
  | v4 (bits : BitVec 32)
  | v6 (bits : BitVec 128)
deriving DecidableEq, Repr

namespace Address

def family : Address → Family
  | .v4 _ => .v4
  | .v6 _ => .v6

/-- Addresses of different families never compare equal. -/
def cmp : Address → Address → Ordering
  | .v4 a, .v4 b => compare a b
  | .v4 _, .v6 _ => .lt
  | .v6 _, .v4 _ => .gt
  | .v6 a, .v6 b => compare a b

instance : Ord Address := ⟨cmp⟩

theorem compare_def (a b : Address) : compare a b = cmp a b := rfl

instance : Std.TransOrd Address where
  eq_swap {a b} := by
    cases a <;> cases b <;> simp [compare_def, cmp, Ordering.swap]
    all_goals exact Std.OrientedCmp.eq_swap
  isLE_trans {a b c} hab hbc := by
    cases a <;> cases b <;> cases c <;> simp_all [compare_def, cmp]
    all_goals exact Std.TransCmp.isLE_trans hab hbc

instance : Std.LawfulEqOrd Address where
  compare_self {a} := by cases a <;> exact Std.ReflCmp.compare_self
  eq_of_compare {a b} h := by
    cases a <;> cases b <;> simp_all [compare_def, cmp]

end Address

end FloodGuard
