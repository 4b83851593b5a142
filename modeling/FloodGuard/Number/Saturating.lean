/-!
Counters are 64-bit words whose arithmetic stops at the ends of the range instead of wrapping. Every
operation is the exact result on natural numbers, cut off at the largest word; the main statements
give the value of each operation and say that cutting off late or early makes no difference to a
sum.
-/
namespace FloodGuard.Saturating

/-- The largest value a counter can hold. -/
def largest : Nat := UInt64.size - 1

/-- The counter for a natural number, cut off at the largest one. -/
def clamp (n : Nat) : UInt64 := UInt64.ofNat (min n largest)

def add (a b : UInt64) : UInt64 := clamp (a.toNat + b.toNat)

def mul (a b : UInt64) : UInt64 := clamp (a.toNat * b.toNat)

/-- Subtraction that stops at zero. -/
def sub (a b : UInt64) : UInt64 := clamp (a.toNat - b.toNat)

/-- The sum of a list of counters as a natural number. -/
def exactSum (counts : List UInt64) : Nat := counts.foldr (fun a total => a.toNat + total) 0

/-- The sum of a list of counters, cut off once at the end. -/
def sum (counts : List UInt64) : UInt64 := clamp (exactSum counts)

theorem toNat_le_largest (a : UInt64) : a.toNat ≤ largest := by
  have h := a.toNat_lt
  simp only [largest, UInt64.size]
  omega

@[simp] theorem toNat_clamp (n : Nat) : (clamp n).toNat = min n largest := by
  simp only [clamp, UInt64.toNat_ofNat', largest, UInt64.size]
  omega

theorem toNat_add (a b : UInt64) : (add a b).toNat = min (a.toNat + b.toNat) largest :=
  toNat_clamp _

theorem toNat_mul (a b : UInt64) : (mul a b).toNat = min (a.toNat * b.toNat) largest :=
  toNat_clamp _

theorem toNat_sub (a b : UInt64) : (sub a b).toNat = a.toNat - b.toNat := by
  have h := toNat_le_largest a
  rw [sub, toNat_clamp]
  omega

theorem toNat_sum (counts : List UInt64) :
    (sum counts).toNat = min (exactSum counts) largest :=
  toNat_clamp _

/-- Adding to a sum that was cut off already gives the same as cutting off at the end. -/
theorem add_clamp (n : Nat) (a : UInt64) : add (clamp n) a = clamp (n + a.toNat) := by
  apply UInt64.toNat_inj.mp
  rw [toNat_add, toNat_clamp, toNat_clamp]
  omega

/-- The order in which counters are added does not matter. -/
theorem add_right_comm (a b c : UInt64) : add (add a b) c = add (add a c) b := by
  apply UInt64.toNat_inj.mp
  simp only [toNat_add]
  omega

/-- A running total equals the total cut off once. -/
theorem foldl_add (counts : List UInt64) (n : Nat) :
    counts.foldl add (clamp n) = clamp (n + exactSum counts) := by
  induction counts generalizing n with
  | nil => rfl
  | cons a rest ih =>
    rw [List.foldl_cons, add_clamp, ih, Nat.add_assoc]
    rfl

end FloodGuard.Saturating
