import FloodGuard.Attack
import Mathlib.Data.Nat.Dist

/-!
The flood that names an attack, by exact shares of the packets. A portion is compared with seven
tenths of the total, where the total, the share, their product and the portion are all rounded.
Where the portion is not too close to seven tenths, this comes to the exact comparison; for numbers
of packets that rounding does not touch, it does so everywhere but at seven tenths exactly. There
the product falls short of its exact value by enough to be rounded down in some cases: those where
the portion lies in the upper quarter of the numbers with its leading bit.
-/
namespace FloodGuard.Attack

open Rounding

theorem dominates_iff (part total : UInt64) :
    dominates part total = true ↔
      measured (measured total.toNat * share) < measured part.toNat * Nat.pow 2 precision := by
  simp [dominates]

/-- Whether a part is so far from seven tenths of a total that rounding makes no difference. -/
def ClearOfShare (part total : Nat) : Prop :=
  7 * total < Nat.pow 2 51 * Nat.dist (10 * part) (7 * total)

theorem dominates_of_clear {part total : UInt64} (h : ClearOfShare part.toNat total.toNat) :
    dominates part total = true ↔ 7 * total.toNat < 10 * part.toNat := by
  have hprecision : Nat.pow 2 precision = 9007199254740992 := rfl
  have hgap : Nat.pow 2 51 = 2251799813685248 := rfl
  have htotal := measured_error total.toNat
  have hproduct := measured_error (measured total.toNat * share)
  have hpart := measured_error part.toNat
  rw [ClearOfShare, Nat.dist, hgap] at h
  rw [dominates_iff]
  simp only [share, hprecision] at htotal hproduct hpart ⊢
  omega

/-- A power of two is no multiple of seven. -/
theorem two_pow_ne_seven_mul (j k : Nat) : Nat.pow 2 j ≠ 7 * k := by
  intro h
  have hdivides : 7 ∣ 2 ^ j := ⟨k, h⟩
  have hcoprime : Nat.Coprime 7 (2 ^ j) := Nat.Coprime.pow_right j (by decide)
  have hone := Nat.Coprime.eq_one_of_dvd hcoprime hdivides
  omega

/-- Ten shares are seven units, short of four last bits. -/
theorem ten_mul_share (k : Nat) : 10 * k * share + 4 * k = 7 * k * Nat.pow 2 precision := by
  have hprecision : Nat.pow 2 precision = 9007199254740992 := rfl
  rw [share, hprecision]
  omega

/-- What the share lacks does not take the product below the next power of two. -/
theorem log2_ten_mul_share {k : Nat} (hk : k ≠ 0) (hsmall : 7 * k < Nat.pow 2 precision) :
    (10 * k * share).log2 = (7 * k).log2 + precision := by
  have hprecision : Nat.pow 2 precision = 9007199254740992 := rfl
  have hlow : Nat.pow 2 (7 * k).log2 ≤ 7 * k := Nat.log2_self_le (by omega)
  have hhigh : 7 * k < 2 * Nat.pow 2 (7 * k).log2 := Nat.pow_succ' ▸ Nat.lt_log2_self
  have hne := two_pow_ne_seven_mul (7 * k).log2 k
  have hproduct := ten_mul_share k
  have hfirst : 2 ^ ((7 * k).log2 + precision) =
      Nat.pow 2 (7 * k).log2 * Nat.pow 2 precision := Nat.pow_add 2 _ _
  rw [hprecision] at hfirst hsmall hproduct
  rw [Nat.log2_eq_iff (by omega), Nat.pow_succ', hfirst]
  omega

/-- The rounded product of seven tenths is less than the exact one just if its last place is less
than twice what the product lacks. -/
theorem measured_mul_share_lt_iff {k : Nat} (hk : k ≠ 0) (hsmall : 7 * k < Nat.pow 2 precision) :
    measured (10 * k * share) < 7 * k * Nat.pow 2 precision ↔
      Nat.pow 2 ((7 * k).log2 + 1) < 8 * k := by
  have hshort : (7 * k).log2 < precision := (Nat.log2_lt (by omega)).2 hsmall
  have hplace : lastPlace precision (10 * k * share) = Nat.pow 2 ((7 * k).log2 + 1) := by
    rw [lastPlace, log2_ten_mul_share hk hsmall, Nat.add_right_comm, Nat.add_sub_cancel]
  have hsplit : Nat.pow 2 (precision - 1 - (7 * k).log2) * Nat.pow 2 ((7 * k).log2 + 1) =
      Nat.pow 2 precision := by
    have hsum : precision - 1 - (7 * k).log2 + ((7 * k).log2 + 1) = precision := by omega
    exact (Nat.pow_add 2 _ _).symm.trans (congrArg (Nat.pow 2) hsum)
  have hwhole : 7 * k * Nat.pow 2 (precision - 1 - (7 * k).log2) *
      lastPlace precision (10 * k * share) = 7 * k * Nat.pow 2 precision := by
    rw [hplace, Nat.mul_assoc, hsplit]
  have hproduct := ten_mul_share k
  have hprecision : Nat.pow 2 precision = 9007199254740992 := rfl
  rw [measured, ← hwhole, significant_lt_iff, hwhole]
  rw [hplace] at hwhole ⊢
  rw [hprecision] at hwhole hproduct ⊢
  generalize 7 * k * Nat.pow 2 (precision - 1 - (7 * k).log2) = m at *
  constructor
  · rintro (hmore | ⟨htie, hodd⟩)
    · omega
    · -- half way between two numbers the upper one is even, and is taken
      have hlacks : Nat.pow 2 ((7 * k).log2 + 1) = 8 * k := by omega
      have hquotient : m * 8 = 63050394783186944 := by
        apply Nat.eq_of_mul_eq_mul_right (Nat.pos_of_ne_zero hk)
        rw [Nat.mul_assoc, ← hlacks, hwhole]
        omega
      omega
  · intro hless
    omega

/-- The place of the leading bit tells in which part between two powers of two a number lies. -/
theorem two_pow_log2_lt_iff {k : Nat} (hk : k ≠ 0) :
    Nat.pow 2 ((7 * k).log2 + 1) < 8 * k ↔
      ∃ i, 7 * Nat.pow 2 i < 7 * k ∧ 7 * k < 8 * Nat.pow 2 i := by
  have heighth : ∀ i, 8 * Nat.pow 2 i = Nat.pow 2 (i + 3) := fun i =>
    (Nat.mul_comm 8 _).trans (Nat.pow_add 2 i 3).symm
  have hlow : Nat.pow 2 (7 * k).log2 ≤ 7 * k := Nat.log2_self_le (by omega)
  have hhigh : 7 * k < Nat.pow 2 ((7 * k).log2 + 1) := Nat.lt_log2_self
  have hlong : 2 ≤ (7 * k).log2 := (Nat.le_log2 (by omega)).2 (by omega)
  constructor
  · intro hless
    have hsum : (7 * k).log2 + 1 = (7 * k).log2 - 2 + 3 := by omega
    rw [hsum, ← heighth] at hless hhigh
    exact ⟨(7 * k).log2 - 2, by omega, by omega⟩
  · intro hbits
    obtain ⟨i, hfirst, hnext⟩ := hbits
    rw [heighth] at hnext
    have hbelow : (7 * k).log2 < i + 3 :=
      (Nat.pow_lt_pow_iff_right (by decide)).1 (Nat.lt_of_le_of_lt hlow hnext)
    have hle : Nat.pow 2 ((7 * k).log2 + 1) ≤ Nat.pow 2 (i + 3) :=
      Nat.pow_le_pow_right (by decide) hbelow
    rw [← heighth] at hle
    omega

/-- At seven tenths exactly it is the leading bits of the part that decide. -/
theorem dominates_at_share {part total : UInt64} (hshare : 7 * total.toNat = 10 * part.toNat)
    (hsmall : total.toNat < Nat.pow 2 precision) :
    dominates part total = true ↔
      ∃ i, 7 * Nat.pow 2 i < part.toNat ∧ part.toNat < 8 * Nat.pow 2 i := by
  obtain ⟨k, hpart⟩ : 7 ∣ part.toNat := by omega
  have htotal : total.toNat = 10 * k := by omega
  have hsmallPart : part.toNat < Nat.pow 2 precision := by omega
  rw [dominates_iff, measured_of_lt hsmall, measured_of_lt hsmallPart, htotal, hpart]
  by_cases hk : k = 0
  · subst hk
    simp [measured_of_lt (Nat.two_pow_pos precision)]
  · rw [measured_mul_share_lt_iff hk (by omega), two_pow_log2_lt_iff hk]

/-- Whether a part counts as more than seven tenths of a total. It also does if it is exactly seven
tenths and in the upper quarter of the numbers with its leading bit. -/
def AboveShare (part total : Nat) : Prop :=
  7 * total < 10 * part ∨
    (7 * total = 10 * part ∧ ∃ i, 7 * Nat.pow 2 i < part ∧ part < 8 * Nat.pow 2 i)

/-- Numbers that rounding does not touch are clear of seven tenths or exactly that. -/
theorem dominates_iff_aboveShare {part total : UInt64}
    (hsmall : total.toNat < Nat.pow 2 48) :
    dominates part total = true ↔ AboveShare part.toNat total.toNat := by
  have hbits : Nat.pow 2 48 = 281474976710656 := rfl
  have hprecision : Nat.pow 2 precision = 9007199254740992 := rfl
  have hgap : Nat.pow 2 51 = 2251799813685248 := rfl
  by_cases hshare : 7 * total.toNat = 10 * part.toNat
  · rw [dominates_at_share hshare (by omega), AboveShare]
    simp [hshare]
  · have hclear : ClearOfShare part.toNat total.toNat := by
      rw [ClearOfShare, Nat.dist, hgap]
      omega
    rw [dominates_of_clear hclear, AboveShare]
    simp [hshare]

theorem classify_eq {a : Attack} {side : Side} (h : a.direction.side? = some side) :
    a.classify = (signs.find? fun sign =>
      dominates ((sign.2 a.traffic).packets side) (a.traffic.total.packets side)).map Prod.fst := by
  rw [classify, h, Option.bind_eq_bind, Option.bind_some, Option.bind_eq_bind]
  generalize signs.find? _ = found
  cases found <;> rfl

/-- Whether an attack is named by the first of its portions that is above something, looking at SYN
packets, ICMP, fragments and UDP in this order. -/
structure NamedBy (a : Attack) (above : Volume → Prop) : Prop where
  syn : a.classify = some .syn ↔ above a.traffic.tcpSyn
  icmp : a.classify = some .icmp ↔ ¬ above a.traffic.tcpSyn ∧ above a.traffic.icmp
  fragmentation : a.classify = some .fragmentation ↔
    ¬ above a.traffic.tcpSyn ∧ ¬ above a.traffic.icmp ∧ above a.traffic.fragmented
  udp : a.classify = some .udp ↔
    ¬ above a.traffic.tcpSyn ∧ ¬ above a.traffic.icmp ∧ ¬ above a.traffic.fragmented ∧
      above a.traffic.udp
  unnamed : a.classify = none ↔
    ¬ above a.traffic.tcpSyn ∧ ¬ above a.traffic.icmp ∧ ¬ above a.traffic.fragmented ∧
      ¬ above a.traffic.udp

/-- The portions that can name an attack. -/
def portions (a : Attack) : List Volume :=
  [a.traffic.tcpSyn, a.traffic.icmp, a.traffic.fragmented, a.traffic.udp]

theorem namedBy_of_dominates {a : Attack} {side : Side} {above : Volume → Prop}
    (hside : a.direction = side.direction)
    (h : ∀ v ∈ a.portions,
      dominates (v.packets side) (a.traffic.total.packets side) = true ↔ above v) :
    a.NamedBy above := by
  have hmeasured : a.direction.side? = some side := by
    rw [hside]
    cases side <;> rfl
  simp only [portions, List.forall_mem_cons, List.not_mem_nil, false_implies, implies_true,
    and_true] at h
  obtain ⟨hsyn, hicmp, hfragmented, hudp⟩ := h
  have hfirst := classify_eq hmeasured
  rw [signs] at hfirst
  by_cases hs : above a.traffic.tcpSyn
  · rw [List.find?_cons_of_pos (by exact hsyn.2 hs), Option.map_some] at hfirst
    constructor <;> simp [hfirst, hs]
  rw [List.find?_cons_of_neg (by exact mt hsyn.1 hs)] at hfirst
  by_cases hi : above a.traffic.icmp
  · rw [List.find?_cons_of_pos (by exact hicmp.2 hi), Option.map_some] at hfirst
    constructor <;> simp [hfirst, hs, hi]
  rw [List.find?_cons_of_neg (by exact mt hicmp.1 hi)] at hfirst
  by_cases hf : above a.traffic.fragmented
  · rw [List.find?_cons_of_pos (by exact hfragmented.2 hf), Option.map_some] at hfirst
    constructor <;> simp [hfirst, hs, hi, hf]
  rw [List.find?_cons_of_neg (by exact mt hfragmented.1 hf)] at hfirst
  by_cases hu : above a.traffic.udp
  · rw [List.find?_cons_of_pos (by exact hudp.2 hu), Option.map_some] at hfirst
    constructor <;> simp [hfirst, hs, hi, hf, hu]
  · rw [List.find?_cons_of_neg (by exact mt hudp.1 hu), List.find?_nil, Option.map_none] at hfirst
    constructor <;> simp [hfirst, hs, hi, hf, hu]

/-- An attack that is neither incoming nor outgoing is not named. One that is has the name of the
first portion that is above seven tenths of the packets in its direction. Below `2 ^ 48` packets a
portion is so if it exceeds seven tenths, or is exactly that and in the upper quarter of the numbers
with its leading bit; for any number of packets it is so just if it exceeds seven tenths, as long as
the portions are clear of that. -/
theorem classify_above_share (a : Attack) :
    (a.direction ≠ .incoming → a.direction ≠ .outgoing → a.classify = none) ∧
      ∀ side, a.direction = side.direction →
        let total := (a.traffic.total.packets side).toNat
        (total < Nat.pow 2 48 → a.NamedBy fun v => AboveShare (v.packets side).toNat total) ∧
        ((∀ v ∈ a.portions, ClearOfShare (v.packets side).toNat total) →
          a.NamedBy fun v => 7 * total < 10 * (v.packets side).toNat) := by
  refine ⟨fun hincoming houtgoing => ?_, fun side hside => ⟨fun hsmall => ?_, fun hclear => ?_⟩⟩
  · have hunmeasured : a.direction.side? = none := by
      cases hdirection : a.direction with
      | incoming => exact absurd hdirection hincoming
      | outgoing => exact absurd hdirection houtgoing
      | internal => rfl
      | other => rfl
    rw [classify, hunmeasured]
    rfl
  · exact namedBy_of_dominates hside fun _ _ => dominates_iff_aboveShare hsmall
  · exact namedBy_of_dominates hside fun v hv => dominates_of_clear (hclear v hv)

/-- An incoming attack with so many packets over UDP among all. -/
def udpAttack (part total : UInt64) : Attack where
  direction := .incoming
  traffic := { total := { inPackets := total }, udp := { inPackets := part } }

theorem classify_above_share_of_udpAttack :
    (udpAttack 63 90).classify = some .udp ∧ (udpAttack 700 1000).classify = none ∧
      (udpAttack 9000000000000000000 10000000000000000000).classify = some .udp := by
  have hnamed : ∀ part total : UInt64, total.toNat < Nat.pow 2 48 →
      (udpAttack part total).NamedBy
        fun v => AboveShare (v.packets .incoming).toNat total.toNat :=
    fun part total => ((classify_above_share (udpAttack part total)).2 .incoming rfl).1
  have hnothing : ∀ total : Nat, ¬ AboveShare 0 total := by
    rintro total (h | ⟨-, i, h, -⟩) <;> omega
  refine ⟨?_, ?_, ?_⟩
  · exact (hnamed 63 90 (by decide)).udp.2
      ⟨hnothing _, hnothing _, hnothing _, .inr ⟨by decide, 3, by decide, by decide⟩⟩
  · refine (hnamed 700 1000 (by decide)).unnamed.2 ⟨hnothing _, hnothing _, hnothing _, ?_⟩
    rintro (h | ⟨-, i, hfirst, hnext⟩)
    · exact absurd h (by decide)
    · have hbelow : 7 * Nat.pow 2 i < 7 * 2 ^ 7 := Nat.lt_trans hfirst (by decide)
      have habove : 8 * 2 ^ 6 < 8 * Nat.pow 2 i := Nat.lt_trans (by decide) hnext
      have hless : i < 7 :=
        (Nat.pow_lt_pow_iff_right (by decide)).1 (Nat.lt_of_mul_lt_mul_left hbelow)
      have hmore : 6 < i :=
        (Nat.pow_lt_pow_iff_right (by decide)).1 (Nat.lt_of_mul_lt_mul_left habove)
      omega
  · have hclear : ∀ v ∈ (udpAttack 9000000000000000000 10000000000000000000).portions,
        ClearOfShare (v.packets .incoming).toNat 10000000000000000000 := by
      unfold ClearOfShare
      decide
    exact (((classify_above_share _).2 .incoming rfl).2 hclear).udp.2 (by decide)

/-- A portion of exactly seven tenths can name an attack. -/
theorem classify_at_share :
    ¬ ∀ (a : Attack) (side : Side), a.direction = side.direction →
      a.NamedBy fun v =>
        7 * (a.traffic.total.packets side).toNat < 10 * (v.packets side).toNat := by
  intro h
  have hnamed : (udpAttack 63 90).classify = some .udp := by decide +kernel
  obtain ⟨-, -, -, habove⟩ := (h (udpAttack 63 90) .incoming rfl).udp.1 hnamed
  exact absurd habove (by decide)

end FloodGuard.Attack
