/-!
Numerals in bases up to sixteen, with lower-case letters for the digits above nine. Writing never
pads; reading accepts leading zeros and both cases of letters. The main statement is that reading a
written number gives the number back.
-/
namespace FloodGuard.Numeral

/-- The value of a digit, if the character is one in some base up to sixteen. -/
def digitValue (c : Char) : Option Nat :=
  if '0' ≤ c ∧ c ≤ '9' then some (c.toNat - 48)
  else if 'a' ≤ c ∧ c ≤ 'f' then some (c.toNat - 87)
  else if 'A' ≤ c ∧ c ≤ 'F' then some (c.toNat - 55)
  else none

/-- Reads one more digit behind the digits that gave `n`. -/
def extend (base n : Nat) (c : Char) : Option Nat :=
  match digitValue c with
  | some d => if d < base then some (n * base + d) else none
  | none => none

/-- The value of a non-empty run of digits. -/
def value? (base : Nat) (digits : List Char) : Option Nat :=
  if digits.isEmpty then none else digits.foldlM (extend base) 0

/-- A decimal number of at most `largest`; one plus sign in front is allowed. -/
def bounded? (largest : Nat) (text : List Char) : Option Nat :=
  let digits := match text with
    | '+' :: rest => rest
    | _ => text
  (value? 10 digits).filter (· ≤ largest)

/-- The digits of a number, without leading zeros. -/
def write (base n : Nat) : List Char := Nat.toDigits base n

/-- The decimal digits of a whole number, behind a minus sign if it is negative. -/
def signed (n : Int) : List Char :=
  if n < 0 then '-' :: write 10 n.natAbs else write 10 n.natAbs

/-- The decimal digits of a number as text. -/
def decimal (n : Nat) : String := n.repr

theorem extend_digitChar (base n d : Nat) (hd : d < base) (hb : base ≤ 16) :
    extend base n d.digitChar = some (n * base + d) := by
  have hall : ∀ k < 16, digitValue k.digitChar = some k := by decide
  have hvalue : digitValue d.digitChar = some d := hall d (by omega)
  simp [extend, hvalue, hd]

theorem foldlM_extend_toDigits (base n : Nat) (hone : 1 < base) (hb : base ≤ 16) :
    (Nat.toDigits base n).foldlM (extend base) 0 = some n := by
  induction n using Nat.strongRecOn with
  | ind n ih =>
    rw [Nat.toDigits_eq_if hone]
    by_cases h : n < base
    · simp [h, extend_digitChar base 0 n h hb]
    · have hlt : n / base < n := Nat.div_lt_self (by omega) hone
      have hmod : n % base < base := Nat.mod_lt _ (by omega)
      simp only [h, if_false, List.foldlM_append, ih _ hlt]
      simp [extend_digitChar base _ _ hmod hb, Nat.div_add_mod']

/-- A written number reads back as itself. -/
theorem value?_write (base n : Nat) (hone : 1 < base) (hb : base ≤ 16) :
    value? base (write base n) = some n := by
  simp [value?, write, foldlM_extend_toDigits base n hone hb, Nat.toDigits_ne_nil]

theorem write_ne_nil (base n : Nat) : write base n ≠ [] := Nat.toDigits_ne_nil

theorem length_write_le (base n count : Nat) (hone : 1 < base) (hcount : 0 < count)
    (h : n < Nat.pow base count) : (write base n).length ≤ count :=
  (Nat.length_toDigits_le_iff hone hcount).2 h

/-- A number is written with digits of its base. -/
theorem exists_digit_of_mem_write (base n : Nat) (hone : 1 < base) :
    ∀ c ∈ write base n, ∃ d < base, c = d.digitChar := by
  induction n using Nat.strongRecOn with
  | ind n ih =>
    intro c hc
    rw [write, Nat.toDigits_eq_if hone] at hc
    split at hc
    · rename_i hlt
      exact ⟨n, hlt, List.mem_singleton.1 hc⟩
    · rename_i hge
      rcases List.mem_append.1 hc with hfront | hlast
      · exact ih (n / base) (Nat.div_lt_self (by omega) hone) c hfront
      · exact ⟨n % base, Nat.mod_lt n (by omega), List.mem_singleton.1 hlast⟩

/-- Only the number zero is written with a zero in front. -/
theorem head?_write (base n : Nat) (hone : 1 < base) (hb : base ≤ 16)
    (h : (write base n).head? = some '0') : n = 0 := by
  induction n using Nat.strongRecOn with
  | ind n ih =>
    rw [write, Nat.toDigits_eq_if hone] at h
    split at h
    · rename_i hlt
      have hzero : ∀ d < 16, Nat.digitChar d = '0' → d = 0 := by decide
      exact hzero n (by omega) (by simpa using h)
    · rename_i hge
      have hdigits : Nat.toDigits base (n / base) ≠ [] := Nat.toDigits_ne_nil
      rw [List.head?_append, List.head?_eq_some_head hdigits, Option.some_or,
        ← List.head?_eq_some_head hdigits] at h
      have hquotient := ih (n / base) (Nat.div_lt_self (by omega) hone) h
      have hpositive := Nat.div_pos (Nat.le_of_not_lt hge) (by omega)
      omega

/-- What holds a sign that is no digit is not a number. -/
theorem value?_of_mem {base : Nat} {digits : List Char} {c : Char} (hc : c ∈ digits)
    (hsign : digitValue c = none) : value? base digits = none := by
  obtain ⟨front, rest, rfl⟩ := List.append_of_mem hc
  have hstop : ∀ n, extend base n c = none := by
    intro n
    simp [extend, hsign]
  simp [value?, List.foldlM_append, hstop]

/-- A written number holds none of the signs between numbers. -/
theorem not_mem_write {base n : Nat} {c : Char} (hone : 1 < base) (hb : base ≤ 16)
    (hc : digitValue c = none) : c ∉ write base n := by
  intro hmem
  obtain ⟨d, hd, rfl⟩ := exists_digit_of_mem_write base n hone c hmem
  have hdigit : ∀ d < 16, digitValue d.digitChar ≠ none := by decide
  exact hdigit d (by omega) hc

theorem bounded?_write {largest n : Nat} (h : n ≤ largest) :
    bounded? largest (write 10 n) = some n := by
  have hplus : '+' ∉ write 10 n := not_mem_write (by decide) (by decide) (by decide)
  rw [bounded?, value?_write 10 n (by decide) (by decide)]
  · simp [h]
  · intro rest hdigits
    rw [hdigits] at hplus
    exact hplus List.mem_cons_self

end FloodGuard.Numeral
