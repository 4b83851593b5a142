import FloodGuard.Network

/-!
Networks as sets of addresses. A network covers another one if it holds all its addresses. To tell
that, only the first address of the other one and the two lengths are to be looked at: the first and
the last address of a block differ in every bit behind its length, so a block that holds both is not
longer.
-/
namespace FloodGuard

namespace Block

variable {w : Nat}

/-- The last address of the block. -/
def last (b : Block w) : BitVec w := b.bits ||| BitVec.allOnes w >>> b.length

theorem getMsbD_bits_of_le (b : Block w) {i : Nat} (h : b.length ≤ i) :
    b.bits.getMsbD i = false := by
  have hnot : ¬ i < b.length := Nat.not_lt.2 h
  rw [← b.canonical, getMsbD_keep]
  simp [hnot]

theorem getMsbD_last_of_lt (b : Block w) {i : Nat} (h : i < b.length) :
    b.last.getMsbD i = b.bits.getMsbD i := by
  simp [last, h]

theorem getMsbD_last_of_le (b : Block w) {i : Nat} (h : b.length ≤ i) (hi : i < w) :
    b.last.getMsbD i = true := by
  have hnot : ¬ i < b.length := Nat.not_lt.2 h
  have hrest : i - b.length < w := by omega
  simp [last, hi, hnot, hrest]

theorem contains_last (b : Block w) : b.contains b.last := by
  rw [contains_iff]
  exact fun i hi => b.getMsbD_last_of_lt hi

/-- A block holds the addresses of another one just if it is not longer and holds the first of
them. -/
theorem forall_contains_iff (b c : Block w) :
    (∀ a, c.contains a → b.contains a) ↔ b.length ≤ c.length ∧ b.contains c.bits := by
  constructor
  · intro h
    have hfirst := h c.bits c.contains_bits
    refine ⟨?_, hfirst⟩
    -- Behind the length of the other block its first address has a zero and its last one a one.
    rcases Nat.lt_or_ge c.length b.length with hlt | hle
    · have hi : c.length < w := Nat.lt_of_lt_of_le hlt b.length_le
      have hzero := (b.contains_iff c.bits).1 hfirst c.length hlt
      have hone := (b.contains_iff c.last).1 (h c.last c.contains_last) c.length hlt
      rw [c.getMsbD_bits_of_le (Nat.le_refl _)] at hzero
      rw [c.getMsbD_last_of_le (Nat.le_refl _) hi, ← hzero] at hone
      exact absurd hone (by simp)
    · exact hle
  · intro h a ha
    obtain ⟨hle, hfirst⟩ := h
    rw [contains_iff] at ha hfirst ⊢
    intro i hi
    rw [ha i (Nat.lt_of_lt_of_le hi hle), hfirst i hi]

end Block

namespace Network

/-- Whether a network holds every address of another one. -/
def Covers (n m : Network) : Prop := ∀ a : Address, m.contains a = true → n.contains a = true

theorem contains_address (n : Network) : n.contains n.address = true := by
  cases n with
  | v4 b => exact b.contains_bits
  | v6 b => exact b.contains_bits

theorem family_of_contains {n : Network} {a : Address} (h : n.contains a = true) :
    n.family = a.family := by
  cases n with
  | v4 b =>
    cases a with
    | v4 bits => rfl
    | v6 bits => simp [contains] at h
  | v6 b =>
    cases a with
    | v4 bits => simp [contains] at h
    | v6 bits => rfl

theorem family_address (n : Network) : n.address.family = n.family := by
  cases n <;> rfl

/-- A network covers another one just if it is not longer and holds its first address. -/
theorem covers_iff (n m : Network) :
    n.Covers m ↔ n.length ≤ m.length ∧ n.contains m.address = true := by
  cases n with
  | v4 b =>
    cases m with
    | v4 c =>
      refine Iff.trans ?_ (b.forall_contains_iff c)
      constructor
      · intro h a ha
        exact h (.v4 a) ha
      · intro h a ha
        cases a with
        | v4 bits => exact h bits ha
        | v6 bits => simp [contains] at ha
    | v6 c =>
      refine iff_of_false ?_ (by simp [contains, address])
      intro h
      exact absurd (h _ (contains_address (.v6 c))) (by simp [contains, address])
  | v6 b =>
    cases m with
    | v4 c =>
      refine iff_of_false ?_ (by simp [contains, address])
      intro h
      exact absurd (h _ (contains_address (.v4 c))) (by simp [contains, address])
    | v6 c =>
      refine Iff.trans ?_ (b.forall_contains_iff c)
      constructor
      · intro h a ha
        exact h (.v6 a) ha
      · intro h a ha
        cases a with
        | v4 bits => simp [contains] at ha
        | v6 bits => exact h bits ha

theorem length_of_isHost {n : Network} (h : n.isHost = true) : n.length = n.family.width := by
  cases n with
  | v4 b => exact of_decide_eq_true h
  | v6 b => exact of_decide_eq_true h

theorem length_le_width (n : Network) : n.length ≤ n.family.width := by
  cases n with
  | v4 b => exact b.length_le
  | v6 b => exact b.length_le

end Network

end FloodGuard
