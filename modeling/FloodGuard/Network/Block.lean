import Std.Data.ExtTreeMap

/-!
A block of addresses of one width: the addresses that agree with a given one on the first bits. A
block stores the address with all later bits clear, so two blocks are equal exactly when they hold
the same addresses. The main statements describe `keep` bit by bit and membership in a block.
-/
namespace FloodGuard

/-- The address with only its first `n` bits kept and all others cleared. -/
def keep {w : Nat} (n : Nat) (a : BitVec w) : BitVec w := (a >>> (w - n)) <<< (w - n)

theorem getMsbD_keep {w : Nat} (n : Nat) (a : BitVec w) (i : Nat) :
    (keep n a).getMsbD i = (decide (i < n) && a.getMsbD i) := by
  simp only [keep, BitVec.getMsbD_shiftLeft, BitVec.getMsbD_ushiftRight]
  by_cases hi : i < w
  · by_cases hn : i < n
    · have h1 : ¬ i + (w - n) < w - n := by omega
      have h2 : i + (w - n) < w := by omega
      simp [hn, h2]
    · have h2 : ¬ i + (w - n) < w := by omega
      simp [hn, h2]
  · have h2 : ¬ i + (w - n) < w := by omega
    simp [h2, BitVec.getMsbD_of_ge a i (by omega)]

theorem keep_keep {w : Nat} (m n : Nat) (a : BitVec w) : keep m (keep n a) = keep (min m n) a := by
  apply BitVec.eq_of_getMsbD_eq
  intro i _
  simp only [getMsbD_keep, Nat.lt_min, Bool.decide_and, Bool.and_assoc]

theorem keep_self {w : Nat} (n : Nat) (a : BitVec w) : keep n (keep n a) = keep n a := by
  rw [keep_keep, Nat.min_self]

theorem keep_of_le {w : Nat} (n : Nat) (h : w ≤ n) (a : BitVec w) : keep n a = a := by
  simp [keep, Nat.sub_eq_zero_of_le h]

/-- A block of addresses of width `w`, given by their common first bits. -/
structure Block (w : Nat) where
  bits : BitVec w
  length : Nat
  length_le : length ≤ w
  canonical : keep length bits = bits
deriving DecidableEq, Repr

namespace Block

variable {w : Nat}

/-- The block of the addresses that agree with `a` on the first `n` bits. -/
def around (a : BitVec w) (n : Nat) (h : n ≤ w) : Block w :=
  ⟨keep n a, n, h, keep_self n a⟩

/-- The block that holds one address only. -/
def host (a : BitVec w) : Block w := around a w (Nat.le_refl w)

def contains (b : Block w) (a : BitVec w) : Bool := keep b.length a = b.bits

def isHost (b : Block w) : Bool := b.length = w

@[simp] theorem bits_host (a : BitVec w) : (host a).bits = a := keep_of_le w (Nat.le_refl w) a

@[simp] theorem length_host (a : BitVec w) : (host a).length = w := rfl

/-- Two blocks with the same address and length are the same block. -/
theorem ext_iff' (b c : Block w) : b = c ↔ b.bits = c.bits ∧ b.length = c.length := by
  cases b
  cases c
  simp

/-- The block around any of its addresses, of its own length, is the block itself. -/
theorem around_of_contains (b : Block w) (a : BitVec w) (h : b.contains a) :
    around a b.length b.length_le = b := by
  simp only [contains, decide_eq_true_eq] at h
  simp [around, h]

theorem contains_bits (b : Block w) : b.contains b.bits := by
  simp [contains, b.canonical]

/-- A block holds the addresses that agree with its own address on the first bits. -/
theorem contains_iff (b : Block w) (a : BitVec w) :
    b.contains a ↔ ∀ i < b.length, a.getMsbD i = b.bits.getMsbD i := by
  simp only [contains, decide_eq_true_eq]
  constructor
  · intro h i hi
    rw [← h, getMsbD_keep]
    simp [hi]
  · intro h
    apply BitVec.eq_of_getMsbD_eq
    intro i _
    rw [getMsbD_keep]
    by_cases hi : i < b.length
    · simp [hi, h i hi]
    · rw [← b.canonical, getMsbD_keep]
      simp [hi]

/-- Blocks are ordered by address, and by length where the addresses are equal. -/
def cmp (b c : Block w) : Ordering := (compare b.bits c.bits).then (compare b.length c.length)

instance : Ord (Block w) := ⟨cmp⟩

theorem compare_def (b c : Block w) :
    compare b c = compareLex (compareOn Block.bits) (compareOn Block.length) b c := rfl

instance : Std.TransOrd (Block w) :=
  inferInstanceAs (Std.TransCmp (compareLex (compareOn Block.bits) (compareOn Block.length)))

instance : Std.LawfulEqOrd (Block w) where
  compare_self := Std.ReflCmp.compare_self
  eq_of_compare {b c} h := by
    simp only [compare_def, compareLex, compareOn, Ordering.then_eq_eq, Std.compare_eq_iff_eq] at h
    exact (ext_iff' b c).2 h

end Block

end FloodGuard
