/-!
Rounding of natural numbers to a fixed number of significant bits, to the nearest such number and,
half way between two of them, to the one with the even significand. Speeds in megabits and traffic
shares are computed from numbers rounded to 53 bits. The main statements are that no whole number is
nearer to a quotient than the rounded one, that rounding keeps the order of numbers, also from one
power of two to the next, and that it moves a number by half of its last place at most. Powers are
those of natural numbers, written `Nat.pow`, here and in what builds on this.
-/
namespace FloodGuard.Rounding

/-- The quotient rounded to the nearest whole number; a half goes to the even neighbour. -/
def divNearest (n d : Nat) : Nat :=
  if d < 2 * (n % d) ∨ (d = 2 * (n % d) ∧ n / d % 2 = 1) then n / d + 1 else n / d

/-- The weight of the last bit that `n` keeps when `bits` significant bits are kept. -/
def lastPlace (bits n : Nat) : Nat := Nat.pow 2 (n.log2 + 1 - bits)

/-- The nearest number with at most `bits` significant bits. -/
def significant (bits n : Nat) : Nat := divNearest n (lastPlace bits n) * lastPlace bits n

/-- The number of significant bits that measurements keep. -/
def precision : Nat := 53

/-- The nearest number that a measurement can hold. -/
def measured (n : Nat) : Nat := significant precision n

theorem lastPlace_pos (bits n : Nat) : 0 < lastPlace bits n := Nat.two_pow_pos _

/-- A number is less than what the kept bits can tell in units of its last place. -/
theorem lt_mul_lastPlace (bits n : Nat) : n < Nat.pow 2 bits * lastPlace bits n := by
  have hhigh : n < Nat.pow 2 (n.log2 + 1) := Nat.lt_log2_self
  have hsplit : Nat.pow 2 (bits + (n.log2 + 1 - bits)) = Nat.pow 2 bits * lastPlace bits n :=
    Nat.pow_add 2 bits (n.log2 + 1 - bits)
  rw [← hsplit]
  exact Nat.lt_of_lt_of_le hhigh (Nat.pow_le_pow_right (by decide) (by omega))

theorem divNearest_one (n : Nat) : divNearest n 1 = n := by
  simp [divNearest, Nat.mod_one]

theorem divNearest_zero (d : Nat) (_h : 0 < d) : divNearest 0 d = 0 := by
  simp [divNearest]

/-- A number that has no more bits than are kept is not changed. -/
theorem significant_of_lt (bits n : Nat) (h : n < Nat.pow 2 bits) : significant bits n = n := by
  by_cases hn : n = 0
  · subst hn
    simp [significant, divNearest_zero _ (lastPlace_pos bits 0)]
  · have hbits := (Nat.log2_lt hn).2 h
    have hplace : lastPlace bits n = 1 := by
      have h0 : n.log2 + 1 - bits = 0 := by omega
      simp [lastPlace, h0]
    simp [significant, hplace, divNearest_one]

theorem divNearest_mono {m n : Nat} (d : Nat) (h : m ≤ n) : divNearest m d ≤ divNearest n d := by
  have hm := Nat.div_add_mod m d
  have hn := Nat.div_add_mod n d
  have hle : m / d ≤ n / d := Nat.div_le_div_right h
  rcases Nat.lt_or_ge (m / d) (n / d) with hlt | hge
  · simp only [divNearest]
    split <;> split <;> omega
  · have hquotient : m / d = n / d := Nat.le_antisymm hle hge
    rw [hquotient] at hm
    have hmod : m % d ≤ n % d := by omega
    simp only [divNearest, hquotient]
    split <;> split <;> omega

theorem divNearest_mul (k d : Nat) (h : 0 < d) : divNearest (k * d) d = k := by
  have hrest : k * d % d = 0 := Nat.mul_mod_left k d
  rw [divNearest, hrest, Nat.mul_div_cancel k h, if_neg (by omega)]

theorem divNearest_le {n m d : Nat} (hd : 0 < d) (h : n ≤ m * d) : divNearest n d ≤ m :=
  divNearest_mul m d hd ▸ divNearest_mono d h

theorem le_divNearest {n m d : Nat} (hd : 0 < d) (h : m * d ≤ n) : m ≤ divNearest n d :=
  divNearest_mul m d hd ▸ divNearest_mono d h

/-- A number keeps its leading bit, or is rounded up to the next power of two. -/
theorem significant_bounds {bits n : Nat} (hbits : 0 < bits) (hn : n ≠ 0) :
    Nat.pow 2 n.log2 ≤ significant bits n ∧ significant bits n ≤ Nat.pow 2 (n.log2 + 1) := by
  have hlow : Nat.pow 2 n.log2 ≤ n := Nat.log2_self_le hn
  have hhigh : n < Nat.pow 2 (n.log2 + 1) := Nat.lt_log2_self
  rcases Nat.lt_or_ge n.log2 bits with hshort | hlong
  · have hplain : n < Nat.pow 2 bits :=
      Nat.lt_of_lt_of_le hhigh (Nat.pow_le_pow_right (by decide) hshort)
    rw [significant_of_lt bits n hplain]
    exact ⟨hlow, Nat.le_of_lt hhigh⟩
  · have hplace := lastPlace_pos bits n
    -- Both powers of two are whole numbers of last places.
    have hfirst : Nat.pow 2 n.log2 = Nat.pow 2 (bits - 1) * lastPlace bits n := by
      have hsplit := Nat.pow_add 2 (bits - 1) (n.log2 + 1 - bits)
      have hsum : bits - 1 + (n.log2 + 1 - bits) = n.log2 := by omega
      rw [hsum] at hsplit
      exact hsplit
    have hnext : Nat.pow 2 (n.log2 + 1) = Nat.pow 2 bits * lastPlace bits n := by
      have hsplit := Nat.pow_add 2 bits (n.log2 + 1 - bits)
      have hsum : bits + (n.log2 + 1 - bits) = n.log2 + 1 := by omega
      rw [hsum] at hsplit
      exact hsplit
    rw [hfirst] at hlow ⊢
    rw [hnext] at hhigh ⊢
    exact ⟨Nat.mul_le_mul_right _ (le_divNearest hplace hlow),
      Nat.mul_le_mul_right _ (divNearest_le hplace (Nat.le_of_lt hhigh))⟩

/-- Of two numbers the greater one is not rounded to a lesser one. -/
theorem significant_mono {bits m n : Nat} (hbits : 0 < bits) (h : m ≤ n) :
    significant bits m ≤ significant bits n := by
  by_cases hm : m = 0
  · subst hm
    have hzero : significant bits 0 = 0 := significant_of_lt bits 0 (Nat.two_pow_pos bits)
    omega
  · have hn : n ≠ 0 := by omega
    have hlog : m.log2 ≤ n.log2 := (Nat.le_log2 hn).2 (Nat.le_trans (Nat.log2_self_le hm) h)
    rcases Nat.lt_or_ge m.log2 n.log2 with hlt | hge
    · have hpow : Nat.pow 2 (m.log2 + 1) ≤ Nat.pow 2 n.log2 := Nat.pow_le_pow_right (by decide) hlt
      have hleft := (significant_bounds hbits hm).2
      have hright := (significant_bounds hbits hn).1
      omega
    · have hsame : m.log2 = n.log2 := Nat.le_antisymm hlog hge
      have hplace : lastPlace bits m = lastPlace bits n := by rw [lastPlace, lastPlace, hsame]
      rw [significant, significant, hplace]
      exact Nat.mul_le_mul_right _ (divNearest_mono _ h)

/-- A rounded quotient is off by half a unit at most. -/
theorem divNearest_error (n : Nat) {d : Nat} (h : 0 < d) :
    2 * (divNearest n d * d) ≤ 2 * n + d ∧ 2 * n ≤ 2 * (divNearest n d * d) + d := by
  have hn := Nat.div_add_mod' n d
  have hrest := Nat.mod_lt n h
  have hnext : (n / d + 1) * d = n / d * d + d := Nat.succ_mul _ _
  rw [divNearest]
  split
  · rw [hnext]
    omega
  · omega

/-- A quotient half way between two whole numbers is rounded to the even one. -/
theorem two_dvd_divNearest {n d : Nat} (h : 0 < d)
    (htie : 2 * n + d = 2 * (divNearest n d * d) ∨ 2 * n = 2 * (divNearest n d * d) + d) :
    2 ∣ divNearest n d := by
  have hn := Nat.div_add_mod' n d
  have hrest := Nat.mod_lt n h
  have hnext : (n / d + 1) * d = n / d * d + d := Nat.succ_mul _ _
  rw [divNearest] at htie ⊢
  split at htie
  · rw [hnext] at htie
    split <;> omega
  · split <;> omega

/-- No whole number is nearer to a quotient than the rounded one, and where another one is as near,
the rounded one is even. -/
theorem divNearest_nearest (n : Nat) {d : Nat} (h : 0 < d) (k : Int) :
    ((n : Int) - divNearest n d * d).natAbs ≤ ((n : Int) - k * d).natAbs ∧
      (((n : Int) - k * d).natAbs = ((n : Int) - divNearest n d * d).natAbs →
        k = divNearest n d ∨ 2 ∣ divNearest n d) := by
  obtain ⟨habove, hbelow⟩ := divNearest_error n h
  have heven := two_dvd_divNearest (n := n) h
  generalize divNearest n d = nearest at *
  -- Any other number is a whole divisor away from the rounded one.
  have hstep : ∀ i j : Int, i < j → i * d + d ≤ j * d := by
    intro i j hless
    have hle : (i + 1) * d ≤ j * d := Int.mul_le_mul_of_nonneg_right hless (Int.natCast_nonneg d)
    rwa [Int.add_mul, Int.one_mul] at hle
  rcases Int.lt_trichotomy k nearest with hless | rfl | hmore
  · have hle := hstep k nearest hless
    constructor <;> omega
  · exact ⟨Nat.le_refl _, fun _ => .inl rfl⟩
  · have hle := hstep nearest k hmore
    constructor <;> omega

/-- A quotient is rounded to less than a number just if it is more than half a unit below it, or
just that and the number is odd. -/
theorem divNearest_lt_iff (n m : Nat) {d : Nat} (h : 0 < d) :
    divNearest n d < m ↔ 2 * n + d < 2 * (m * d) ∨ (2 * n + d = 2 * (m * d) ∧ m % 2 = 1) := by
  have hn := Nat.div_add_mod' n d
  have hrest := Nat.mod_lt n h
  have hnear : divNearest n d = n / d ∨ divNearest n d = n / d + 1 := by
    rw [divNearest]
    split <;> simp
  rcases Nat.lt_trichotomy m (n / d + 1) with hless | heq | hmore
  · have hle : m * d ≤ n / d * d := Nat.mul_le_mul_right d (by omega)
    constructor <;> intro <;> omega
  · have hnext : m * d = n / d * d + d := heq ▸ Nat.succ_mul _ _
    rw [divNearest, hnext]
    split <;> constructor <;> intro <;> omega
  · have hnext : (n / d + 2) * d = n / d * d + 2 * d := Nat.add_mul _ _ _
    have hle : (n / d + 2) * d ≤ m * d := Nat.mul_le_mul_right d (by omega)
    constructor <;> intro <;> omega

/-- The same for a number and whole numbers of its last places. -/
theorem significant_lt_iff (bits n m : Nat) :
    significant bits n < m * lastPlace bits n ↔
      2 * n + lastPlace bits n < 2 * (m * lastPlace bits n) ∨
        (2 * n + lastPlace bits n = 2 * (m * lastPlace bits n) ∧ m % 2 = 1) := by
  have hplace := lastPlace_pos bits n
  rw [significant, Nat.mul_lt_mul_right hplace, divNearest_lt_iff n m hplace]

/-- Rounding does not reach below an even number of last places, and reaches it from half of the
last place below. -/
theorem le_significant_iff {bits n even : Nat} (h : 2 * lastPlace bits n ∣ even) :
    even ≤ significant bits n ↔ 2 * even ≤ 2 * n + lastPlace bits n := by
  obtain ⟨k, rfl⟩ := h
  have hless := significant_lt_iff bits n (2 * k)
  rw [Nat.mul_right_comm 2 k] at hless
  omega

/-- A rounded number is divided by an even number of last places like the number itself with half of
its last place added. -/
theorem significant_div {bits n unit : Nat} (hunit : 0 < unit) (h : 2 * lastPlace bits n ∣ unit) :
    significant bits n / unit = (2 * n + lastPlace bits n) / (2 * unit) := by
  have hle : ∀ m, m ≤ significant bits n / unit ↔ m ≤ (2 * n + lastPlace bits n) / (2 * unit) := by
    intro m
    rw [Nat.le_div_iff_mul_le hunit, Nat.le_div_iff_mul_le (by omega), Nat.mul_left_comm m 2 unit,
      le_significant_iff (Nat.dvd_mul_left_of_dvd h m)]
  exact Nat.le_antisymm ((hle _).1 (Nat.le_refl _)) ((hle _).2 (Nat.le_refl _))

/-- Rounding is off by half of the last place at most, which is a number divided by a power of two
for the bits that are kept. -/
theorem significant_error (bits n : Nat) :
    Nat.pow 2 bits * significant bits n ≤ Nat.pow 2 bits * n + n ∧
      Nat.pow 2 bits * n ≤ Nat.pow 2 bits * significant bits n + n := by
  by_cases hshort : n < Nat.pow 2 bits
  · rw [significant_of_lt bits n hshort]
    omega
  · have hn : n ≠ 0 := by
      have hpos : 0 < Nat.pow 2 bits := Nat.two_pow_pos bits
      omega
    have hlong : bits ≤ n.log2 := (Nat.le_log2 hn).2 (Nat.le_of_not_lt hshort)
    have hlow : Nat.pow 2 n.log2 ≤ n := Nat.log2_self_le hn
    have hplace : Nat.pow 2 bits * lastPlace bits n = 2 * Nat.pow 2 n.log2 := by
      have hsplit := Nat.pow_add 2 bits (n.log2 + 1 - bits)
      have hsum : bits + (n.log2 + 1 - bits) = n.log2 + 1 := by omega
      rw [hsum, Nat.pow_succ, Nat.mul_comm _ 2] at hsplit
      exact hsplit.symm
    obtain ⟨habove, hbelow⟩ := divNearest_error n (lastPlace_pos bits n)
    rw [← significant] at habove hbelow
    have hscaledAbove := Nat.mul_le_mul_left (Nat.pow 2 bits) habove
    have hscaledBelow := Nat.mul_le_mul_left (Nat.pow 2 bits) hbelow
    simp only [Nat.mul_add, Nat.mul_left_comm _ 2, hplace] at hscaledAbove hscaledBelow
    omega

/-- A measured number is off by the share of one last bit of 53 at most. -/
theorem measured_error (n : Nat) :
    Nat.pow 2 precision * measured n ≤ Nat.pow 2 precision * n + n ∧
      Nat.pow 2 precision * n ≤ Nat.pow 2 precision * measured n + n :=
  significant_error precision n

theorem measured_of_lt {n : Nat} (h : n < Nat.pow 2 precision) : measured n = n :=
  significant_of_lt precision n h

theorem measured_mono {m n : Nat} (h : m ≤ n) : measured m ≤ measured n :=
  significant_mono (by decide) h

end FloodGuard.Rounding
