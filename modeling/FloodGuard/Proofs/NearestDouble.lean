import FloodGuard.Number.Double
import Mathlib.Algebra.Order.Field.Power
import Mathlib.Data.Rat.Cast.Order
import Mathlib.Tactic.FieldSimp
import Mathlib.Tactic.Linarith
import Mathlib.Tactic.Positivity
import Mathlib.Tactic.Ring

/-!
Floating-point numbers as rationals. A quotient is counted in units of the last place that it keeps,
the count is rounded, and no number at all is nearer to the quotient than the rounded count: numbers
with a greater last place are whole units too, and those with a lesser one end below the power of
two that the quotient reaches. The main statements are that products and quotients that are not too
large are the numbers nearest to the exact results, that there is never more than one such number,
so that nothing changes where the exact results are numbers, and that the number nearest to a
natural number is the one that it is measured as.
-/
namespace FloodGuard.Double

open Rounding

/-- A magnitude with a sign. -/
def signed (negative : Bool) (v : ℚ) : ℚ := if negative then -v else v

/-- The number as a rational. -/
def value (x : Double) : ℚ := signed x.negative (x.significand * 2 ^ x.exponent)

/-- Whether the exponent is in its range and the significand has all its bits, which it may lack
only with the least exponent. -/
structure Canonical (x : Double) : Prop where
  significand_lt : x.significand < Nat.pow 2 precision
  full : Nat.pow 2 (precision - 1) ≤ x.significand ∨ x.exponent = leastExponent
  least_le : leastExponent ≤ x.exponent
  le_greatest : x.exponent ≤ greatestExponent

/-- Whether a rational is a whole number of at most 53 bits times a power of two that is not too
small. The values of all numbers are, and so are some rationals that are too large for a number. -/
def Representable (v : ℚ) : Prop :=
  ∃ k e : Int, |k| ≤ Nat.pow 2 precision ∧ leastExponent ≤ e ∧ v = k * 2 ^ e

/-- Whether a rational is rounded to a number: nothing representable is nearer, and where something
else is as near, the significand is even. -/
structure Nearest (x : Double) (v : ℚ) : Prop where
  canonical : x.Canonical
  le : ∀ w, Representable w → |v - x.value| ≤ |v - w|
  even : ∀ w, Representable w → |v - w| = |v - x.value| → w = x.value ∨ 2 ∣ x.significand

theorem two_zpow_pos (e : Int) : (0 : ℚ) < 2 ^ e := zpow_pos two_pos e

theorem cast_two_pow (k : Nat) : ((Nat.pow 2 k : Nat) : ℚ) = 2 ^ (k : Int) := by
  rw [zpow_natCast]
  exact_mod_cast (rfl : Nat.pow 2 k = 2 ^ k)

theorem cast_two_pow_ne_zero (k : Nat) : ((Nat.pow 2 k : Nat) : ℚ) ≠ 0 :=
  Nat.cast_ne_zero.2 (Nat.two_pow_pos k).ne'

/-- A power with an exponent of either sign, by powers of natural numbers. -/
theorem two_zpow_mul_pow_toNat (e : Int) :
    (2 : ℚ) ^ e * (Nat.pow 2 (-e).toNat : Nat) = (Nat.pow 2 e.toNat : Nat) := by
  rw [cast_two_pow, cast_two_pow, ← zpow_add₀ two_ne_zero]
  congr 1
  omega

/-- A whole number of greater powers is one of lesser powers. -/
theorem mul_two_zpow_of_le (k : Int) {e f : Int} (h : f ≤ e) :
    (k : ℚ) * 2 ^ e = (k * (Nat.pow 2 (e - f).toNat : Nat) : Int) * 2 ^ f := by
  have hshift : (((e - f).toNat : Nat) : Int) = e - f :=
    Int.toNat_of_nonneg (Int.sub_nonneg_of_le h)
  rw [Int.cast_mul, Int.cast_natCast, cast_two_pow, hshift, mul_assoc, ← zpow_add₀ two_ne_zero,
    sub_add_cancel]

/-- With a lesser last place, a number ends below the power of two that has all bits in front of the
greater one. -/
theorem mul_two_zpow_le_of_lt {k e f : Int} (hk : |k| ≤ Nat.pow 2 precision) (h : e < f) :
    (k : ℚ) * 2 ^ e ≤ (Nat.pow 2 (precision - 1) : Nat) * 2 ^ f := by
  calc (k : ℚ) * 2 ^ e ≤ (Nat.pow 2 precision : Nat) * 2 ^ e := by
        refine mul_le_mul_of_nonneg_right ?_ (two_zpow_pos e).le
        exact_mod_cast (le_abs_self k).trans hk
    _ = 2 ^ ((precision : Int) + e) := by rw [cast_two_pow, zpow_add₀ two_ne_zero]
    _ ≤ 2 ^ (((precision - 1 : Nat) : Int) + f) :=
        zpow_le_zpow_right₀ one_le_two (by simp only [precision]; omega)
    _ = _ := by rw [cast_two_pow, zpow_add₀ two_ne_zero]

section

variable {x y : Double} {v : ℚ}

theorem exists_value_eq (x : Double) :
    ∃ k : Int, k.natAbs = x.significand ∧ x.value = k * 2 ^ x.exponent := by
  cases hsign : x.negative with
  | false => exact ⟨x.significand, Int.natAbs_natCast _, by simp [value, signed, hsign]⟩
  | true => exact ⟨-x.significand, by simp, by simp [value, signed, hsign]⟩

theorem Canonical.representable (h : x.Canonical) : Representable x.value := by
  obtain ⟨k, hk, hvalue⟩ := exists_value_eq x
  have hbits : |k| ≤ Nat.pow 2 precision := by
    rw [Int.abs_eq_natAbs, hk]
    exact_mod_cast h.significand_lt.le
  exact ⟨k, x.exponent, hbits, h.least_le, hvalue⟩

/-- What is representable is not rounded. -/
theorem Nearest.value_eq (h : x.Nearest v) (hv : Representable v) : x.value = v := by
  have hle := h.le v hv
  rw [sub_self, abs_zero] at hle
  exact (sub_eq_zero.1 (abs_nonpos_iff.1 hle)).symm

/-- A number with an even significand is not nearest to the middle between itself and another even
number of its last places, since the next number on that side is nearer. -/
theorem Nearest.eq_of_middle (hx : x.Nearest v) {i j : Int} (hi : x.value = 2 * i * 2 ^ x.exponent)
    (hv : v = (i + j) * 2 ^ x.exponent) : i = j := by
  by_contra hne
  obtain ⟨k, hk, hvalue⟩ := exists_value_eq x
  have hunit := two_zpow_pos x.exponent
  have heven : k = 2 * i := by
    rw [hvalue, mul_left_inj' hunit.ne'] at hi
    exact_mod_cast hi
  have hbits := hx.canonical.significand_lt
  obtain ⟨s, hs, hcloser⟩ : ∃ s : Int, s.natAbs = 1 ∧ (j - i - s).natAbs < (j - i).natAbs := by
    rcases lt_or_gt_of_ne hne with hless | hmore
    · exact ⟨1, rfl, by omega⟩
    · exact ⟨-1, rfl, by omega⟩
  have hnext : Representable ((2 * i + s : Int) * 2 ^ x.exponent) := by
    refine ⟨2 * i + s, x.exponent, ?_, hx.canonical.least_le, rfl⟩
    rw [Int.abs_eq_natAbs]
    omega
  have hself : v - x.value = (j - i : Int) * 2 ^ x.exponent := by
    rw [hv, hi]
    push_cast
    ring
  have hother : v - (2 * i + s : Int) * 2 ^ x.exponent = (j - i - s : Int) * 2 ^ x.exponent := by
    rw [hv]
    push_cast
    ring
  have hle := hx.le _ hnext
  rw [hself, hother, abs_mul, abs_mul, mul_le_mul_iff_left₀ (abs_pos.2 hunit.ne')] at hle
  have hwhole : |j - i| ≤ |j - i - s| := by exact_mod_cast hle
  rw [Int.abs_eq_natAbs, Int.abs_eq_natAbs] at hwhole
  omega

theorem Nearest.value_unique_of_le (hx : x.Nearest v) (hy : y.Nearest v)
    (hle : x.exponent ≤ y.exponent) : x.value = y.value := by
  have hdistance : |v - x.value| = |v - y.value| :=
    le_antisymm (hx.le _ hy.canonical.representable) (hy.le _ hx.canonical.representable)
  by_contra hne
  obtain ⟨k, hk, hxvalue⟩ := exists_value_eq x
  obtain ⟨l, hl, hyvalue⟩ := exists_value_eq y
  have hxeven := (hx.even _ hy.canonical.representable hdistance.symm).resolve_left (Ne.symm hne)
  have hyeven := (hy.even _ hx.canonical.representable hdistance).resolve_left hne
  obtain ⟨i, rfl⟩ : ∃ i, k = 2 * i := ⟨k / 2, by omega⟩
  obtain ⟨j, rfl⟩ : ∃ j, l = 2 * j := ⟨l / 2, by omega⟩
  have hfirst : x.value = 2 * i * 2 ^ x.exponent := by
    rw [hxvalue]
    push_cast
    rfl
  have hsecond : y.value =
      2 * (j * (Nat.pow 2 (y.exponent - x.exponent).toNat : Nat) : Int) * 2 ^ x.exponent := by
    rw [hyvalue, mul_two_zpow_of_le _ hle, mul_assoc (2 : Int), Int.cast_mul, Int.cast_ofNat]
  have hmiddle : v - x.value = -(v - y.value) := by
    rcases abs_eq_abs.1 hdistance with hsame | hopposite
    · exact absurd (sub_right_injective hsame) hne
    · exact hopposite
  have hunits := hx.eq_of_middle hfirst
    (j := j * (Nat.pow 2 (y.exponent - x.exponent).toNat : Nat)) (by linarith)
  rw [hfirst, hsecond, ← hunits] at hne
  exact hne rfl

/-- There is no choice in rounding. -/
theorem Nearest.value_unique (hx : x.Nearest v) (hy : y.Nearest v) : x.value = y.value := by
  rcases le_total x.exponent y.exponent with hle | hle
  · exact hx.value_unique_of_le hy hle
  · exact (hy.value_unique_of_le hx hle).symm

end

section

variable (negative : Bool)

@[simp] theorem signed_zero : signed negative 0 = 0 := by
  cases negative <;> simp [signed]

@[simp] theorem signed_signed (v : ℚ) : signed negative (signed negative v) = v := by
  cases negative <;> simp [signed]

theorem signed_eq_zero_iff (v : ℚ) : signed negative v = 0 ↔ v = 0 := by
  cases negative <;> simp [signed]

theorem abs_signed {v : ℚ} (h : 0 ≤ v) : |signed negative v| = v := by
  cases negative <;> simp [signed, abs_of_nonneg h]

theorem abs_signed_sub (v w : ℚ) : |signed negative v - w| = |v - signed negative w| := by
  cases negative with
  | false => rfl
  | true =>
    simp only [signed, if_true]
    rw [← abs_neg, neg_sub, sub_neg_eq_add, sub_neg_eq_add, add_comm]

theorem representable_signed {v : ℚ} (h : Representable v) : Representable (signed negative v) := by
  obtain ⟨k, e, hk, hleast, rfl⟩ := h
  cases negative with
  | false => exact ⟨k, e, hk, hleast, rfl⟩
  | true => exact ⟨-k, e, by rwa [abs_neg], hleast, by simp [signed]⟩

end

theorem signed_mul (a b : Bool) (v w : ℚ) : signed (a != b) (v * w) = signed a v * signed b w := by
  cases a <;> cases b <;> simp [signed]

theorem signed_div (a b : Bool) (v w : ℚ) : signed (a != b) (v / w) = signed a v / signed b w := by
  cases a <;> cases b <;> simp [signed, neg_div, div_neg]

theorem two_zpow_log2_le {n : Nat} (hn : n ≠ 0) : (2 : ℚ) ^ (n.log2 : Int) ≤ n := by
  rw [← cast_two_pow]
  exact_mod_cast Nat.log2_self_le hn

theorem lt_two_zpow_log2 (n : Nat) : (n : ℚ) < 2 ^ ((n.log2 : Int) + 1) := by
  rw [← Nat.cast_succ, ← cast_two_pow]
  exact_mod_cast (Nat.lt_log2_self : n < 2 ^ (n.log2 + 1))

/-- The exponent is that of the greatest power of two that is at most the quotient. -/
theorem log2Quotient_bounds {n d : Nat} (hn : n ≠ 0) (hd : d ≠ 0) :
    (2 : ℚ) ^ log2Quotient n d * d ≤ n ∧ (n : ℚ) < 2 ^ (log2Quotient n d + 1) * d := by
  have hguess : d * Nat.pow 2 ((n.log2 : Int) - d.log2).toNat ≤
      n * Nat.pow 2 (-((n.log2 : Int) - d.log2)).toNat ↔
        (2 : ℚ) ^ ((n.log2 : Int) - d.log2) * d ≤ n := by
    have hpos : (0 : ℚ) < (Nat.pow 2 (-((n.log2 : Int) - d.log2)).toNat : Nat) :=
      Nat.cast_pos.2 (Nat.two_pow_pos _)
    rw [← Nat.cast_le (α := ℚ), Nat.cast_mul, Nat.cast_mul, ← two_zpow_mul_pow_toNat, ← mul_assoc,
      mul_le_mul_iff_left₀ hpos, mul_comm (d : ℚ)]
  rw [log2Quotient]
  simp only [hguess]
  split
  · rename_i hle
    refine ⟨hle, ?_⟩
    calc (n : ℚ) < 2 ^ ((n.log2 : Int) + 1) := lt_two_zpow_log2 n
      _ = 2 ^ ((n.log2 : Int) - d.log2 + 1) * 2 ^ (d.log2 : Int) := by
        rw [← zpow_add₀ two_ne_zero]
        congr 1
        omega
      _ ≤ 2 ^ ((n.log2 : Int) - d.log2 + 1) * d :=
        mul_le_mul_of_nonneg_left (two_zpow_log2_le hd) (two_zpow_pos _).le
  · rename_i hless
    refine ⟨?_, by simpa using hless⟩
    calc (2 : ℚ) ^ ((n.log2 : Int) - d.log2 - 1) * d
        ≤ 2 ^ ((n.log2 : Int) - d.log2 - 1) * 2 ^ ((d.log2 : Int) + 1) :=
        mul_le_mul_of_nonneg_left (lt_two_zpow_log2 d).le (two_zpow_pos _).le
      _ = 2 ^ (n.log2 : Int) := by
        rw [← zpow_add₀ two_ne_zero]
        congr 1
        omega
      _ ≤ n := two_zpow_log2_le hn

/-- The exponent of the last place that a quotient keeps. -/
def place (n d : Nat) : Int := max (log2Quotient n d - (precision - 1)) leastExponent

/-- A quotient in units of the last place that it keeps. -/
def inUnits (n d : Nat) : Nat × Nat :=
  (n * Nat.pow 2 (-place n d).toNat, d * Nat.pow 2 (place n d).toNat)

/-- The rounded number of units. -/
def units (n d : Nat) : Nat := divNearest (inUnits n d).1 (inUnits n d).2

section

variable {n d : Nat}

theorem inUnits_pos (hd : d ≠ 0) : 0 < (inUnits n d).2 :=
  Nat.mul_pos (Nat.pos_of_ne_zero hd) (Nat.two_pow_pos _)

theorem cast_inUnits_pos (hd : d ≠ 0) : (0 : ℚ) < (inUnits n d).2 :=
  Nat.cast_pos.2 (inUnits_pos hd)

theorem inUnits_eq (hd : d ≠ 0) :
    (n : ℚ) / d = (inUnits n d).1 / (inUnits n d).2 * 2 ^ place n d := by
  have hdivisor : (d : ℚ) ≠ 0 := Nat.cast_ne_zero.2 hd
  have hpow := cast_two_pow_ne_zero (-place n d).toNat
  have hunit := (two_zpow_pos (place n d)).ne'
  rw [inUnits, Nat.cast_mul, Nat.cast_mul, ← two_zpow_mul_pow_toNat (place n d)]
  field_simp

/-- The distance of a quotient from whole units. -/
theorem abs_sub_units (hd : d ≠ 0) (k : Int) :
    |(n : ℚ) / d - k * 2 ^ place n d| =
      (((inUnits n d).1 : Int) - k * (inUnits n d).2).natAbs *
        (2 ^ place n d / (inUnits n d).2) := by
  have hdivisor := cast_inUnits_pos (n := n) hd
  have hunit : (0 : ℚ) < 2 ^ place n d / (inUnits n d).2 := div_pos (two_zpow_pos _) hdivisor
  calc |(n : ℚ) / d - k * 2 ^ place n d|
      = |((inUnits n d).1 - k * (inUnits n d).2 : ℚ) * (2 ^ place n d / (inUnits n d).2)| := by
        rw [inUnits_eq hd]
        congr 1
        field_simp
    _ = |((inUnits n d).1 - k * (inUnits n d).2 : ℚ)| * (2 ^ place n d / (inUnits n d).2) := by
        rw [abs_mul, abs_of_pos hunit]
    _ = _ := by
        rw [Nat.cast_natAbs]
        push_cast
        rfl

theorem abs_sub_units_le_iff (hd : d ≠ 0) (j k : Int) :
    |(n : ℚ) / d - j * 2 ^ place n d| ≤ |(n : ℚ) / d - k * 2 ^ place n d| ↔
      (((inUnits n d).1 : Int) - j * (inUnits n d).2).natAbs ≤
        (((inUnits n d).1 : Int) - k * (inUnits n d).2).natAbs := by
  rw [abs_sub_units hd, abs_sub_units hd,
    mul_le_mul_iff_left₀ (div_pos (two_zpow_pos _) (cast_inUnits_pos hd)), Nat.cast_le]

/-- No whole number of units is nearer to a quotient than the rounded one. -/
theorem units_nearest (hd : d ≠ 0) (k : Int) :
    |(n : ℚ) / d - units n d * 2 ^ place n d| ≤ |(n : ℚ) / d - k * 2 ^ place n d| ∧
      (|(n : ℚ) / d - k * 2 ^ place n d| = |(n : ℚ) / d - units n d * 2 ^ place n d| →
        k = units n d ∨ 2 ∣ units n d) := by
  obtain ⟨hle, heven⟩ := divNearest_nearest (inUnits n d).1 (inUnits_pos hd) k
  have hnear := abs_sub_units_le_iff (n := n) hd (units n d) k
  have hfar := abs_sub_units_le_iff (n := n) hd k (units n d)
  rw [Int.cast_natCast] at hnear hfar
  exact ⟨hnear.2 hle, fun heq => heven (Nat.le_antisymm (hfar.1 heq.le) hle)⟩

theorem units_zero (hd : d ≠ 0) : units 0 d = 0 := by
  have hnothing : (inUnits 0 d).1 = 0 := Nat.zero_mul _
  rw [units, hnothing, divNearest_zero _ (inUnits_pos hd)]

theorem leastExponent_le_place : leastExponent ≤ place n d := le_max_right _ _

/-- A quotient has all bits in front of its last place, unless that is the least one. -/
theorem two_pow_le_quotient (hn : n ≠ 0) (hd : d ≠ 0) (hplace : place n d ≠ leastExponent) :
    ((Nat.pow 2 (precision - 1) : Nat) : ℚ) * 2 ^ place n d ≤ n / d := by
  have hexponent : place n d = log2Quotient n d - (precision - 1) := by
    rw [place] at hplace ⊢
    omega
  have hprecision : precision = 53 := rfl
  have hsum : ((precision - 1 : Nat) : Int) + place n d = log2Quotient n d := by omega
  rw [cast_two_pow, ← zpow_add₀ two_ne_zero, hsum, le_div_iff₀ (by positivity)]
  exact (log2Quotient_bounds hn hd).1

theorem quotient_lt_two_pow (hn : n ≠ 0) (hd : d ≠ 0) :
    (n : ℚ) / d < (Nat.pow 2 precision : Nat) * 2 ^ place n d := by
  have hexponent : log2Quotient n d - (precision - 1) ≤ place n d := le_max_left _ _
  rw [cast_two_pow, ← zpow_add₀ two_ne_zero, div_lt_iff₀ (by positivity)]
  refine (log2Quotient_bounds hn hd).2.trans_le (mul_le_mul_of_nonneg_right ?_ (by positivity))
  exact zpow_le_zpow_right₀ one_le_two (by omega)

theorem units_le (hn : n ≠ 0) (hd : d ≠ 0) : units n d ≤ Nat.pow 2 precision := by
  have hless := quotient_lt_two_pow hn hd
  rw [inUnits_eq hd, mul_lt_mul_iff_left₀ (two_zpow_pos _),
    div_lt_iff₀ (cast_inUnits_pos hd)] at hless
  exact divNearest_le (inUnits_pos hd) (by exact_mod_cast hless.le)

theorem le_units (hn : n ≠ 0) (hd : d ≠ 0) (hplace : place n d ≠ leastExponent) :
    Nat.pow 2 (precision - 1) ≤ units n d := by
  have hle := two_pow_le_quotient hn hd hplace
  rw [inUnits_eq hd, mul_le_mul_iff_left₀ (two_zpow_pos _),
    le_div_iff₀ (cast_inUnits_pos hd)] at hle
  exact le_divNearest (inUnits_pos hd) (by exact_mod_cast hle)

/-- Nothing representable is nearer to a quotient than the rounded number of units. -/
theorem units_nearest_of_representable (hn : n ≠ 0) (hd : d ≠ 0) {w : ℚ} (hw : Representable w) :
    |(n : ℚ) / d - units n d * 2 ^ place n d| ≤ |(n : ℚ) / d - w| ∧
      (|(n : ℚ) / d - w| = |(n : ℚ) / d - units n d * 2 ^ place n d| →
        w = units n d * 2 ^ place n d ∨ 2 ∣ units n d) := by
  obtain ⟨k, e, hk, hleast, rfl⟩ := hw
  rcases le_or_gt (place n d) e with hle | hless
  · -- a whole number of units
    rw [mul_two_zpow_of_le k hle]
    obtain ⟨hnear, heven⟩ := units_nearest (n := n) hd (k * (Nat.pow 2 (e - place n d).toNat : Nat))
    exact ⟨hnear, fun heq => (heven heq).imp_left fun h => by rw [h, Int.cast_natCast]⟩
  · -- not above the power of two that the quotient reaches, which is a whole number of units
    have hbelow := two_pow_le_quotient (n := n) (d := d) hn hd (by omega)
    have hle := mul_two_zpow_le_of_lt hk hless
    obtain ⟨hnear, heven⟩ := units_nearest (n := n) hd (Nat.pow 2 (precision - 1) : Nat)
    rw [Int.cast_natCast, abs_of_nonneg (sub_nonneg.2 hbelow)] at hnear heven
    rw [abs_of_nonneg (sub_nonneg.2 (hle.trans hbelow))]
    refine ⟨by linarith, fun heq => ?_⟩
    have hsame : (k : ℚ) * 2 ^ e = (Nat.pow 2 (precision - 1) : Nat) * 2 ^ place n d := by linarith
    rw [hsame] at heq ⊢
    exact (heven heq).imp_left fun h => by rw [Int.natCast_inj.1 h]

end

/-- The number for rounded units, which may have one bit more than a significand. -/
def ofUnits (negative : Bool) (count : Nat) (exponent : Int) : Double :=
  if count = Nat.pow 2 precision then ⟨negative, count / 2, exponent + 1⟩
  else ⟨negative, count, exponent⟩

section

variable (negative : Bool) {count n d : Nat} {exponent : Int}

theorem value_ofUnits (count : Nat) (exponent : Int) :
    (ofUnits negative count exponent).value = signed negative (count * 2 ^ exponent) := by
  rw [ofUnits]
  split
  · rename_i hnext
    have hhalf : ((count / 2 : Nat) : ℚ) * 2 = count := by
      rw [hnext]
      exact_mod_cast (by decide : Nat.pow 2 precision / 2 * 2 = Nat.pow 2 precision)
    rw [value, zpow_add_one₀ two_ne_zero, mul_comm _ (2 : ℚ), ← mul_assoc, hhalf]
  · rfl

theorem canonical_ofUnits (hcount : count ≤ Nat.pow 2 precision)
    (hfull : Nat.pow 2 (precision - 1) ≤ count ∨ exponent = leastExponent)
    (hleast : leastExponent ≤ exponent) (hgreatest : exponent < greatestExponent) :
    (ofUnits negative count exponent).Canonical := by
  rw [ofUnits]
  split
  · rename_i hnext
    have hhalf : count / 2 = Nat.pow 2 (precision - 1) := by
      rw [hnext]
      rfl
    rw [hhalf]
    exact ⟨Nat.pow_lt_pow_right (by decide) (by decide), .inl (Nat.le_refl _),
      Int.le_add_one hleast, hgreatest⟩
  · rename_i hfits
    exact ⟨Nat.lt_of_le_of_ne hcount hfits, hfull, hleast, hgreatest.le⟩

theorem two_dvd_ofUnits (h : 2 ∣ count) : 2 ∣ (ofUnits negative count exponent).significand := by
  rw [ofUnits]
  split
  · rename_i hnext
    rw [hnext]
    exact ⟨Nat.pow 2 (precision - 2), rfl⟩
  · exact h

theorem ofQuotient?_eq (hn : n ≠ 0) (d : Nat) :
    ofQuotient? negative n d =
      if (ofUnits negative (units n d) (place n d)).exponent ≤ greatestExponent then
        some (ofUnits negative (units n d) (place n d))
      else none := by
  rw [ofQuotient?, if_neg hn]
  rfl

/-- The greatest power of two that is a number. What is less is not too large to be rounded. -/
def greatestBinaryPower : ℚ := 2 ^ (greatestExponent + (precision - 1))

theorem place_lt (hn : n ≠ 0) (hd : d ≠ 0) (h : (n : ℚ) / d < greatestBinaryPower) :
    place n d < greatestExponent := by
  have hlow := (log2Quotient_bounds hn hd).1
  rw [← le_div_iff₀ (by positivity)] at hlow
  have hexponent := (zpow_lt_zpow_iff_right₀ one_lt_two).1 (hlow.trans_lt h)
  have hrange : leastExponent < greatestExponent := by decide
  rw [place]
  omega

theorem value_zero : (zero negative).value = 0 := by simp [value, zero]

theorem nearest_zero : (zero negative).Nearest 0 := by
  have hrange : leastExponent ≤ greatestExponent := by decide
  refine ⟨⟨Nat.two_pow_pos _, .inr rfl, Int.le_refl _, hrange⟩, fun w _ => ?_, fun _ _ _ => ?_⟩
  · rw [value_zero, sub_zero, abs_zero]
    exact abs_nonneg _
  · exact .inr ⟨0, rfl⟩

theorem nearest_ofUnits (hn : n ≠ 0) (hd : d ≠ 0) (hplace : place n d < greatestExponent) :
    (ofUnits negative (units n d) (place n d)).Nearest (signed negative (n / d)) := by
  have hfull : Nat.pow 2 (precision - 1) ≤ units n d ∨ place n d = leastExponent := by
    rcases eq_or_ne (place n d) leastExponent with hleast | hmore
    · exact .inr hleast
    · exact .inl (le_units hn hd hmore)
  have hvalue := value_ofUnits negative (units n d) (place n d)
  constructor
  · exact canonical_ofUnits negative (units_le hn hd) hfull leastExponent_le_place hplace
  · intro w hw
    rw [hvalue, abs_signed_sub, abs_signed_sub, signed_signed]
    exact (units_nearest_of_representable hn hd (representable_signed negative hw)).1
  · intro w hw heq
    rw [hvalue, abs_signed_sub, abs_signed_sub, signed_signed] at heq
    rcases (units_nearest_of_representable hn hd (representable_signed negative hw)).2 heq with
      hsame | heven
    · exact .inl (by rw [hvalue, ← hsame, signed_signed])
    · exact .inr (two_dvd_ofUnits negative heven)

/-- A quotient that is not too large is rounded to the nearest number. -/
theorem exists_ofQuotient?_nearest (hd : d ≠ 0) (hsmall : (n : ℚ) / d < greatestBinaryPower) :
    ∃ x, ofQuotient? negative n d = some x ∧ x.Nearest (signed negative (n / d)) ∧
      x.value = signed negative (units n d * 2 ^ place n d) := by
  rcases eq_or_ne n 0 with rfl | hn
  · refine ⟨zero negative, rfl, ?_, ?_⟩
    · rw [Nat.cast_zero, zero_div, signed_zero]
      exact nearest_zero negative
    · rw [value_zero, units_zero hd, Nat.cast_zero, zero_mul, signed_zero]
  · have hnear := nearest_ofUnits negative hn hd (place_lt hn hd hsmall)
    refine ⟨ofUnits negative (units n d) (place n d), ?_, hnear, value_ofUnits negative _ _⟩
    rw [ofQuotient?_eq negative hn, if_pos hnear.canonical.le_greatest]

end

section

variable {x y : Double}

theorem quotient_pos (x : Double) : 0 < x.quotient.2 := Nat.two_pow_pos _

theorem value_eq_quotient (x : Double) :
    x.value = signed x.negative (x.quotient.1 / x.quotient.2) := by
  rw [value, quotient, Nat.cast_mul, ← two_zpow_mul_pow_toNat, ← mul_assoc,
    mul_div_cancel_right₀ _ (cast_two_pow_ne_zero _)]

theorem isZero_iff (x : Double) : x.isZero = true ↔ x.value = 0 := by
  rw [isZero, decide_eq_true_eq, value, signed_eq_zero_iff, mul_eq_zero,
    or_iff_left (two_zpow_pos _).ne', Nat.cast_eq_zero]

/-- A product that is not too large is rounded to the nearest number. -/
theorem exists_mul?_nearest (hsmall : |x.value * y.value| < greatestBinaryPower) :
    ∃ z, x.mul? y = some z ∧ z.Nearest (x.value * y.value) := by
  have hexact : x.value * y.value = signed (x.negative != y.negative)
      ((x.quotient.1 * y.quotient.1 : Nat) / (x.quotient.2 * y.quotient.2 : Nat)) := by
    rw [value_eq_quotient x, value_eq_quotient y, ← signed_mul, div_mul_div_comm, Nat.cast_mul,
      Nat.cast_mul]
  have hdivisor : x.quotient.2 * y.quotient.2 ≠ 0 :=
    (Nat.mul_pos x.quotient_pos y.quotient_pos).ne'
  rw [hexact, abs_signed _ (div_nonneg (Nat.cast_nonneg _) (Nat.cast_nonneg _))] at hsmall
  obtain ⟨z, hz, hnear, -⟩ := exists_ofQuotient?_nearest (x.negative != y.negative) hdivisor hsmall
  exact ⟨z, hz, hexact ▸ hnear⟩

/-- So is a quotient of two numbers. -/
theorem exists_div?_nearest (hy : y.value ≠ 0)
    (hsmall : |x.value / y.value| < greatestBinaryPower) :
    ∃ z, x.div? y = some z ∧ z.Nearest (x.value / y.value) := by
  have hexact : x.value / y.value = signed (x.negative != y.negative)
      ((x.quotient.1 * y.quotient.2 : Nat) / (x.quotient.2 * y.quotient.1 : Nat)) := by
    rw [value_eq_quotient x, value_eq_quotient y, ← signed_div, div_div_div_eq, Nat.cast_mul,
      Nat.cast_mul]
  have hnonzero : ¬ y.isZero = true := mt (isZero_iff y).1 hy
  have hsignificand : y.significand ≠ 0 := by simpa [isZero] using hnonzero
  have hdivisor : x.quotient.2 * y.quotient.1 ≠ 0 :=
    Nat.mul_ne_zero x.quotient_pos.ne' (Nat.mul_ne_zero hsignificand (Nat.two_pow_pos _).ne')
  rw [hexact, abs_signed _ (div_nonneg (Nat.cast_nonneg _) (Nat.cast_nonneg _))] at hsmall
  obtain ⟨z, hz, hnear, -⟩ := exists_ofQuotient?_nearest (x.negative != y.negative) hdivisor hsmall
  refine ⟨z, ?_, hexact ▸ hnear⟩
  rw [div?, if_neg hnonzero]
  exact hz

end

theorem log2Quotient_one {n : Nat} (hn : n ≠ 0) : log2Quotient n 1 = n.log2 := by
  have hone : (n.log2 : Int) - (1 : Nat).log2 = n.log2 := by
    have hlog : (1 : Nat).log2 = 0 := by decide
    omega
  have hrest : (-(n.log2 : Int)).toNat = 0 := by omega
  rw [log2Quotient, hone, hrest, Int.toNat_natCast, Nat.one_mul]
  exact if_pos ((Nat.log2_self_le hn).trans (Nat.le_mul_of_pos_right n (Nat.two_pow_pos 0)))

/-- A natural number is rounded to the bits that a measurement keeps. -/
theorem units_one (n : Nat) : (units n 1 : ℚ) * 2 ^ place n 1 = measured n := by
  rcases eq_or_ne n 0 with rfl | hn
  · have hzero : measured 0 = 0 := measured_of_lt (Nat.two_pow_pos _)
    simp [units_zero one_ne_zero, hzero]
  have hprecision : precision = 53 := rfl
  have hplace : place n 1 = n.log2 - (precision - 1) := by
    have hleast : leastExponent ≤ -(precision - 1) := by decide
    rw [place, log2Quotient_one hn]
    omega
  rcases Nat.lt_or_ge n.log2 precision with hshort | hlong
  · -- whole units already
    have hplain : n < Nat.pow 2 precision := (Nat.log2_lt hn).1 hshort
    have hwhole : (place n 1).toNat = 0 := by omega
    have hunits : units n 1 = n * Nat.pow 2 (-place n 1).toNat := by
      rw [units, inUnits, hwhole]
      exact divNearest_one _
    rw [measured_of_lt hplain, hunits, Nat.cast_mul, mul_assoc, mul_comm _ ((2 : ℚ) ^ _),
      two_zpow_mul_pow_toNat, hwhole]
    simp
  · have hunit : Nat.pow 2 (place n 1).toNat = lastPlace precision n := by
      rw [lastPlace]
      congr 1
      omega
    have hrest : (-place n 1).toNat = 0 := by omega
    have hunits : units n 1 = divNearest n (lastPlace precision n) := by
      rw [units, inUnits, hunit, hrest]
      simp
    have hpower := two_zpow_mul_pow_toNat (place n 1)
    rw [hrest, hunit] at hpower
    rw [hunits, measured, significant, Nat.cast_mul, ← hpower]
    simp

/-- A natural number that is not too large is rounded to the nearest number, which is the one that
it is measured as. -/
theorem exists_ofNat?_nearest {n : Nat} (hsmall : (n : ℚ) < greatestBinaryPower) :
    ∃ x, ofNat? n = some x ∧ x.Nearest n ∧ x.value = measured n := by
  have hone : (n : ℚ) / (1 : Nat) = n := by rw [Nat.cast_one, div_one]
  obtain ⟨x, hx, hnear, hvalue⟩ :=
    exists_ofQuotient?_nearest false one_ne_zero (hone.symm ▸ hsmall)
  rw [hone] at hnear
  rw [units_one] at hvalue
  exact ⟨x, hx, hnear, hvalue⟩

theorem Nearest.value_eq_measured {x : Double} {n : Nat} (h : x.Nearest n)
    (hsmall : (n : ℚ) < greatestBinaryPower) : x.value = measured n := by
  obtain ⟨y, -, hy, hvalue⟩ := exists_ofNat?_nearest hsmall
  rw [h.value_unique hy, hvalue]

theorem representable_measured (n : Nat) {e : Int} (he : leastExponent ≤ e) :
    Representable (measured n * 2 ^ e) := by
  refine ⟨divNearest n (lastPlace precision n), (n.log2 + 1 - precision : Nat) + e, ?_, ?_, ?_⟩
  · have hbits := divNearest_le (lastPlace_pos precision n) (lt_mul_lastPlace precision n).le
    rw [Nat.abs_cast]
    exact_mod_cast hbits
  · omega
  · rw [measured, significant, Nat.cast_mul, Int.cast_natCast, lastPlace, cast_two_pow,
      zpow_add₀ two_ne_zero, mul_assoc]

end FloodGuard.Double
