import FloodGuard.Detection.Dimension
import FloodGuard.Proofs.NearestDouble
import Mathlib.Algebra.Order.Floor.Semifield
import Mathlib.Data.Rat.Floor

/-!
How exact megabits are. They are what floating-point arithmetic gives that rounds the bytes, divides
them by 1024 twice, multiplies them by eight and cuts them off: only the first step loses anything,
since the others change nothing but the exponent. A megabit is an even number of last places of
every counter, so rounding the bytes can only lift them to the next whole megabit, and only from
half of a last place below it.
-/
namespace FloodGuard

open Rounding

namespace Double

/-- Megabits per second in floating-point arithmetic, before they are cut off. -/
def megabits? (bytes : Nat) : Option Double := do
  let speed ← ofNat? bytes
  let kilo ← ofNat? 1024
  let eight ← ofNat? 8
  let kilobytes ← speed.div? kilo
  let megabytes ← kilobytes.div? kilo
  megabytes.mul? eight

section

variable {n : Nat} {x y : Double} {e : Int}

theorem cast_lt_greatestBinaryPower (h : n ≤ UInt64.size) : (n : ℚ) < greatestBinaryPower := by
  calc (n : ℚ) ≤ (Nat.pow 2 64 : Nat) := Nat.cast_le.2 h
    _ < greatestBinaryPower := by
      rw [cast_two_pow, greatestBinaryPower]
      exact zpow_lt_zpow_right₀ one_lt_two (by decide)

/-- Nothing that a counter is measured as and scaled down to is too large. -/
theorem abs_measured_lt (hn : n < UInt64.size) (he : e ≤ 0) :
    |(measured n : ℚ) * 2 ^ e| < greatestBinaryPower := by
  have hsize : measured UInt64.size = UInt64.size := by decide
  have hmeasured : measured n ≤ UInt64.size := hsize ▸ measured_mono hn.le
  have hscale : (2 : ℚ) ^ e ≤ 1 := zpow_le_one_of_nonpos₀ one_le_two he
  rw [abs_of_nonneg (mul_nonneg (Nat.cast_nonneg _) (two_zpow_pos e).le)]
  exact (mul_le_of_le_one_right (Nat.cast_nonneg _) hscale).trans_lt
    (cast_lt_greatestBinaryPower hmeasured)

/-- Dividing by a power of two changes the exponent only. -/
theorem exists_div?_eq (hn : n < UInt64.size) (hx : x.value = measured n * 2 ^ e) {k : Nat}
    (hy : y.value = 2 ^ (k : Int)) (he : e ≤ 0) (hleast : leastExponent ≤ e - k) :
    ∃ z, x.div? y = some z ∧ z.value = measured n * 2 ^ (e - k) := by
  have hexact : x.value / y.value = measured n * 2 ^ (e - k) := by
    rw [hx, hy, zpow_sub₀ two_ne_zero, mul_div_assoc]
  have hsmall := abs_measured_lt (e := e - k) hn (by omega)
  obtain ⟨z, hz, hnear⟩ :=
    exists_div?_nearest (hy ▸ (two_zpow_pos k).ne') (hexact.symm ▸ hsmall)
  rw [hexact] at hnear
  exact ⟨z, hz, hnear.value_eq (representable_measured n hleast)⟩

/-- So does multiplying by one. -/
theorem exists_mul?_eq (hn : n < UInt64.size) (hx : x.value = measured n * 2 ^ e) {k : Nat}
    (hy : y.value = 2 ^ (k : Int)) (he : e + k ≤ 0) (hleast : leastExponent ≤ e) :
    ∃ z, x.mul? y = some z ∧ z.value = measured n * 2 ^ (e + k) := by
  have hexact : x.value * y.value = measured n * 2 ^ (e + k) := by
    rw [hx, hy, zpow_add₀ two_ne_zero, mul_assoc]
  have hsmall := abs_measured_lt (e := e + k) hn he
  obtain ⟨z, hz, hnear⟩ := exists_mul?_nearest (hexact.symm ▸ hsmall)
  rw [hexact] at hnear
  exact ⟨z, hz, hnear.value_eq (representable_measured n (by omega))⟩

theorem exists_ofNat?_two_pow {k : Nat} (hk : k < precision) :
    ∃ x, ofNat? (Nat.pow 2 k) = some x ∧ x.value = 2 ^ (k : Int) := by
  have hshort : Nat.pow 2 k < Nat.pow 2 precision := Nat.pow_lt_pow_right (by decide) hk
  have hsize : Nat.pow 2 precision ≤ UInt64.size := by decide
  obtain ⟨x, hx, -, hvalue⟩ :=
    exists_ofNat?_nearest (cast_lt_greatestBinaryPower (hshort.le.trans hsize))
  rw [measured_of_lt hshort, cast_two_pow] at hvalue
  exact ⟨x, hx, hvalue⟩

/-- Only the rounding of the bytes loses anything. -/
theorem exists_megabits? (hn : n < UInt64.size) :
    ∃ y : Double, megabits? n = some y ∧ y.value = measured n * (8 / 2 ^ 20) := by
  obtain ⟨speed, hspeed, -, hmeasured⟩ := exists_ofNat?_nearest (cast_lt_greatestBinaryPower hn.le)
  obtain ⟨kilo, hkilo, hkiloValue⟩ := exists_ofNat?_two_pow (k := 10) (by decide)
  obtain ⟨eight, height, heightValue⟩ := exists_ofNat?_two_pow (k := 3) (by decide)
  have hplain : speed.value = measured n * 2 ^ (0 : Int) := by rw [hmeasured, zpow_zero, mul_one]
  obtain ⟨kilobytes, hkilobytes, hfirst⟩ :=
    exists_div?_eq hn hplain hkiloValue (by decide) (by decide)
  obtain ⟨megabytes, hmegabytes, hsecond⟩ :=
    exists_div?_eq hn hfirst hkiloValue (by decide) (by decide)
  obtain ⟨result, hresult, hlast⟩ :=
    exists_mul?_eq hn hsecond heightValue (by decide) (by decide)
  have hdivisor : ofNat? 1024 = some kilo := hkilo
  have hfactor : ofNat? 8 = some eight := height
  refine ⟨result, ?_, ?_⟩
  · simp only [megabits?, hspeed, hdivisor, hfactor, hkilobytes, hmegabytes, hresult,
      Option.bind_eq_bind, Option.bind_some]
  · rw [hlast]
    norm_num

end

end Double

section

variable (bytes : UInt64)

/-- The last place of a counter is one of twelve powers of two. -/
theorem lastPlace_dvd : lastPlace precision bytes.toNat ∣ 2048 := by
  have hlog : bytes.toNat.log2 < 64 := by
    by_cases hzero : bytes.toNat = 0
    · rw [hzero]
      decide
    · exact (Nat.log2_lt hzero).2 bytes.toNat_lt
  have hprecision : precision = 53 := rfl
  have hpower : 2048 = Nat.pow 2 11 := rfl
  rw [hpower, lastPlace]
  exact Nat.pow_dvd_pow 2 (by omega)

/-- Megabits are rounded down, but lifted to the next whole number from half of a last place below
it. -/
theorem toNat_megabits_eq :
    (megabits bytes).toNat = bytes.toNat / 131072 +
      if 2 * (131072 - bytes.toNat % 131072) ≤ lastPlace precision bytes.toNat then 1 else 0 := by
  have hplace := Nat.le_of_dvd (by decide) (lastPlace_dvd bytes)
  have hwhole : 2 * lastPlace precision bytes.toNat ∣ 131072 :=
    (Nat.mul_dvd_mul_left 2 (lastPlace_dvd bytes)).trans ⟨32, rfl⟩
  rw [toNat_megabits, measured, significant_div (by decide) hwhole]
  split <;> omega

theorem toNat_megabits_of_le {bytes : UInt64} (h : bytes.toNat ≤ Nat.pow 2 53) :
    (megabits bytes).toNat = bytes.toNat / 131072 := by
  rcases Nat.lt_or_eq_of_le h with hless | heq
  · rw [toNat_megabits, measured_of_lt hless]
  · rw [toNat_megabits, heq]
    decide

/-- Where the megabits are not rounded down, a whole number is at most 1024 bytes above. -/
theorem toNat_megabits_cases :
    (megabits bytes).toNat = bytes.toNat / 131072 ∨
      ((megabits bytes).toNat = bytes.toNat / 131072 + 1 ∧
        ∃ gap, 0 < gap ∧ gap ≤ 1024 ∧ 131072 ∣ bytes.toNat + gap) := by
  have hplace := Nat.le_of_dvd (by decide) (lastPlace_dvd bytes)
  have hmegabits := toNat_megabits_eq bytes
  split at hmegabits
  · refine .inr ⟨hmegabits, 131072 - bytes.toNat % 131072, ?_, ?_, ?_⟩ <;> omega
  · exact .inl hmegabits

theorem toNat_megabits_eq_floor {y : ℚ}
    (h : y = measured bytes.toNat * (8 / 2 ^ 20)) : (megabits bytes).toNat = ⌊y⌋₊ := by
  have hscale : (8 / 2 ^ 20 : ℚ) = 1 / (131072 : Nat) := by norm_num
  rw [toNat_megabits, h, hscale, mul_one_div, Nat.floor_div_eq_div]

end

/-- Megabits are the bytes rounded to the nearest number, scaled exactly and cut off. They grow with
the bytes, they are rounded down up to `2 ^ 53` bytes, and beyond that they are either rounded down
or, at most 1024 bytes below a whole number of megabits, lifted to it. -/
theorem megabits_accuracy :
    (∀ bytes : UInt64, (∃ x : Double, x.Nearest bytes.toNat) ∧
      ∀ x : Double, x.Nearest bytes.toNat →
        ∃ y, Double.megabits? bytes.toNat = some y ∧ y.value = x.value * (8 / 2 ^ 20) ∧
          (megabits bytes).toNat = ⌊y.value⌋₊) ∧
    (∀ m n : UInt64, m ≤ n → megabits m ≤ megabits n) ∧
    (∀ bytes : UInt64, bytes.toNat ≤ Nat.pow 2 53 →
      (megabits bytes).toNat = bytes.toNat / 131072) ∧
    ∀ bytes : UInt64, Nat.pow 2 53 < bytes.toNat →
      (megabits bytes).toNat = bytes.toNat / 131072 ∨
        ((megabits bytes).toNat = bytes.toNat / 131072 + 1 ∧
          ∃ gap, 0 < gap ∧ gap ≤ 1024 ∧ 131072 ∣ bytes.toNat + gap) := by
  refine ⟨fun bytes => ?_, fun _ _ => megabits_mono, fun _ => toNat_megabits_of_le,
    fun bytes _ => toNat_megabits_cases bytes⟩
  have hsmall := Double.cast_lt_greatestBinaryPower bytes.toNat_lt.le
  obtain ⟨x, -, hx, -⟩ := Double.exists_ofNat?_nearest hsmall
  refine ⟨⟨x, hx⟩, fun z hz => ?_⟩
  obtain ⟨y, hy, hscaled⟩ := Double.exists_megabits? bytes.toNat_lt
  refine ⟨y, hy, ?_, toNat_megabits_eq_floor bytes hscaled⟩
  rw [hscaled, hz.value_eq_measured hsmall]

/-- The last counter that is rounded down is 1025 bytes below a whole number of megabits. -/
theorem megabits_accuracy_of_full_counters :
    (∃ x y : Double, x.Nearest (18446744073709550592 : UInt64).toNat ∧
      Double.megabits? (18446744073709550592 : UInt64).toNat = some y ∧
      y.value = x.value * (8 / 2 ^ 20) ∧
      (megabits 18446744073709550592).toNat = ⌊y.value⌋₊) ∧
    megabits 18446744073709550591 ≤ megabits 18446744073709550592 ∧
    (megabits 9007199254740992).toNat = 9007199254740992 / 131072 ∧
    (megabits 18446744073709550591).toNat = 18446744073709550591 / 131072 ∧
    (megabits 18446744073709550592).toNat = 18446744073709550592 / 131072 + 1 ∧
    ∃ gap, 0 < gap ∧ gap ≤ 1024 ∧ 131072 ∣ 18446744073709550592 + gap := by
  obtain ⟨hrounded, hmono, hsmall, hlarge⟩ := megabits_accuracy
  refine ⟨?_, hmono _ _ (by decide), hsmall 9007199254740992 (by decide), ?_, ?_⟩
  · obtain ⟨⟨x, hx⟩, hscaled⟩ := hrounded 18446744073709550592
    obtain ⟨y, hy, hvalue, hcut⟩ := hscaled x hx
    exact ⟨x, y, hx, hy, hvalue, hcut⟩
  · rcases hlarge 18446744073709550591 (by decide) with hdown | ⟨-, gap, -, hnear, hwhole⟩
    · exact hdown
    · have hbytes : (18446744073709550591 : UInt64).toNat = 18446744073709550591 := by decide
      omega
  · rcases hlarge 18446744073709550592 (by decide) with hdown | hlifted
    · exact absurd hdown (by decide)
    · exact hlifted

end FloodGuard
