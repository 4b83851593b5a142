/-!
Numbers as fixed-length lists of digits, the most significant digit in front. The main statements
say that splitting and joining are inverse to each other.
-/
namespace FloodGuard.Positional

/-- The number with the given digits. -/
def join (base : Nat) (digits : List Nat) : Nat := digits.foldl (fun n d => n * base + d) 0

/-- The last `count` digits of a number. -/
def split (base : Nat) : Nat → Nat → List Nat
  | 0, _ => []
  | count + 1, n => split base count (n / base) ++ [n % base]

@[simp] theorem length_split (base count n : Nat) : (split base count n).length = count := by
  induction count generalizing n with
  | zero => rfl
  | succ count ih => simp [split, ih]

theorem split_lt (base count n : Nat) (hbase : 0 < base) :
    ∀ d ∈ split base count n, d < base := by
  induction count generalizing n with
  | zero => simp [split]
  | succ count ih =>
    intro d hd
    rcases List.mem_append.1 hd with h | h
    · exact ih _ d h
    · rw [List.mem_singleton.1 h]
      exact Nat.mod_lt _ hbase

theorem join_append_singleton (base : Nat) (digits : List Nat) (d : Nat) :
    join base (digits ++ [d]) = join base digits * base + d := by
  simp [join]

/-- Joining the split digits gives the number, up to the digits that were not taken. -/
theorem join_split (base count n : Nat) :
    join base (split base count n) = n % Nat.pow base count := by
  induction count generalizing n with
  | zero => simp [split, join, Nat.mod_one]
  | succ count ih =>
    have hpow : Nat.pow base (count + 1) = base * Nat.pow base count := Nat.mul_comm _ _
    rw [split, join_append_singleton, ih, hpow, Nat.mod_mul, Nat.mul_comm, Nat.add_comm]

/-- Splitting a number that was joined gives its digits. -/
theorem split_join (base : Nat) (digits : List Nat) (h : ∀ d ∈ digits, d < base) :
    split base digits.length (join base digits) = digits := by
  obtain ⟨reversed, rfl⟩ : ∃ reversed : List Nat, digits = reversed.reverse :=
    ⟨digits.reverse, digits.reverse_reverse.symm⟩
  induction reversed with
  | nil => rfl
  | cons d rest ih =>
    rw [List.reverse_cons] at h ⊢
    have hd : d < base := h d (by simp)
    have hrest := ih fun e he => h e (List.mem_append_left [d] he)
    rw [join_append_singleton, List.length_append, List.length_singleton, split,
      Nat.mul_comm, Nat.mul_add_div (by omega), Nat.div_eq_of_lt hd, Nat.add_zero,
      Nat.mul_add_mod, Nat.mod_eq_of_lt hd, hrest]

/-- A number is below the power of the base for its digits. -/
theorem join_lt (base : Nat) (digits : List Nat) (hbase : 0 < base) (h : ∀ d ∈ digits, d < base) :
    join base digits < Nat.pow base digits.length := by
  have hjoin := join_split base digits.length (join base digits)
  rw [split_join base digits h] at hjoin
  rw [hjoin]
  exact Nat.mod_lt _ (Nat.pow_pos hbase)

end FloodGuard.Positional
