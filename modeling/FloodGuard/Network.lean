import FloodGuard.Address
import FloodGuard.Network.Block

/-!
Networks: blocks of addresses of either family. A network is made from any of its addresses and a
length; a length beyond the family's width is refused. Networks are ordered by family, address and
length.
-/
namespace FloodGuard

inductive Network where
  | v4 (block : Block 32)
  | v6 (block : Block 128)
deriving DecidableEq, Repr

/-- Why a network could not be made. -/
inductive NetworkError where
  | malformed (text : String)
  | lengthOutOfRange (family : Family) (length : Nat)
deriving DecidableEq, Repr

def NetworkError.message : NetworkError → String
  | .malformed text => "invalid CIDR notation: " ++ text
  | .lengthOutOfRange family length =>
    "prefix length " ++ length.repr ++ " is out of range for " ++ family.name

namespace Network

/-- The network of the addresses that agree with `address` on the first `length` bits. -/
def around (address : Address) (length : Nat) : Except NetworkError Network :=
  match address with
  | .v4 a =>
    if h : length ≤ 32 then .ok (.v4 (Block.around a length h))
    else .error (.lengthOutOfRange .v4 length)
  | .v6 a =>
    if h : length ≤ 128 then .ok (.v6 (Block.around a length h))
    else .error (.lengthOutOfRange .v6 length)

/-- The network of a single address. -/
def host : Address → Network
  | .v4 a => .v4 (Block.host a)
  | .v6 a => .v6 (Block.host a)

/-- The first address of the network. -/
def address : Network → Address
  | .v4 b => .v4 b.bits
  | .v6 b => .v6 b.bits

def length : Network → Nat
  | .v4 b => b.length
  | .v6 b => b.length

def family : Network → Family
  | .v4 _ => .v4
  | .v6 _ => .v6

def isV6 (n : Network) : Bool := n.family = .v6

/-- Whether the network holds one address only. -/
def isHost : Network → Bool
  | .v4 b => b.isHost
  | .v6 b => b.isHost

def contains : Network → Address → Bool
  | .v4 b, .v4 a => b.contains a
  | .v6 b, .v6 a => b.contains a
  | _, _ => false

def cmp : Network → Network → Ordering
  | .v4 b, .v4 c => compare b c
  | .v4 _, .v6 _ => .lt
  | .v6 _, .v4 _ => .gt
  | .v6 b, .v6 c => compare b c

instance : Ord Network := ⟨cmp⟩

theorem compare_def (m n : Network) : compare m n = cmp m n := rfl

instance : Std.TransOrd Network where
  eq_swap {a b} := by
    cases a <;> cases b <;> simp [compare_def, cmp, Ordering.swap]
    all_goals exact Std.OrientedCmp.eq_swap
  isLE_trans {a b c} hab hbc := by
    cases a <;> cases b <;> cases c <;> simp_all [compare_def, cmp]
    all_goals exact Std.TransCmp.isLE_trans hab hbc

instance : Std.LawfulEqOrd Network where
  compare_self {a} := by cases a <;> exact Std.ReflCmp.compare_self
  eq_of_compare {a b} h := by
    cases a <;> cases b <;> simp_all [compare_def, cmp]

theorem around_eq_error_iff (a : Address) (n : Nat) (e : NetworkError) :
    around a n = .error e ↔ a.family.width < n ∧ e = .lengthOutOfRange a.family n := by
  rw [eq_comm (a := e)]
  cases a with
  | v4 bits =>
    simp only [around, Address.family, Family.width]
    by_cases h : n ≤ 32
    · simp [h, Nat.not_lt.2 h]
    · simp [h, Nat.lt_of_not_le h]
  | v6 bits =>
    simp only [around, Address.family, Family.width]
    by_cases h : n ≤ 128
    · simp [h, Nat.not_lt.2 h]
    · simp [h, Nat.lt_of_not_le h]

end Network

end FloodGuard
