import FloodGuard.Proofs.NetworkNesting

/-!
Networks are canonical: two of them are the same value just if they hold the same addresses, so a
network is a key that stands for its set of addresses. Any two are nested or have no address in
common. A network of some length holds the addresses of its family that agree with the address it
was made from on that many bits, from the first one on.
-/
namespace FloodGuard

namespace Address

/-- A bit of an address, counted from the most significant one. -/
def bit : Address → Nat → Bool
  | .v4 a, i => a.getMsbD i
  | .v6 a, i => a.getMsbD i

/-- An address is told by its family and its bits. -/
theorem ext_bit {a b : Address} (hfamily : a.family = b.family)
    (hbit : ∀ i < a.family.width, a.bit i = b.bit i) : a = b := by
  cases a with
  | v4 x =>
    cases b with
    | v4 y => exact congrArg Address.v4 (BitVec.eq_of_getMsbD_eq hbit)
    | v6 y => exact absurd hfamily (by simp [family])
  | v6 x =>
    cases b with
    | v4 y => exact absurd hfamily (by simp [family])
    | v6 y => exact congrArg Address.v6 (BitVec.eq_of_getMsbD_eq hbit)

end Address

namespace Network

variable {m n : Network} {a x : Address}

/-- A network holds the addresses of its family that agree with its own address on the first
bits. -/
theorem contains_iff (n : Network) (x : Address) :
    n.contains x = true ↔
      x.family = n.family ∧ ∀ i < n.length, x.bit i = n.address.bit i := by
  cases n with
  | v4 b =>
    cases x with
    | v4 y => exact (b.contains_iff y).trans (iff_and_self.mpr fun _ => rfl)
    | v6 y => simp [contains, Address.family, family]
  | v6 b =>
    cases x with
    | v4 y => simp [contains, Address.family, family]
    | v6 y => exact (b.contains_iff y).trans (iff_and_self.mpr fun _ => rfl)

/-- The bits behind the length of a network are clear in its address. -/
theorem bit_address_of_le (n : Network) {i : Nat} (h : n.length ≤ i) :
    n.address.bit i = false := by
  cases n with
  | v4 b => exact b.getMsbD_bits_of_le h
  | v6 b => exact b.getMsbD_bits_of_le h

theorem ext_iff (m n : Network) : m = n ↔ m.address = n.address ∧ m.length = n.length := by
  cases m with
  | v4 b =>
    cases n with
    | v4 c => simp [address, length, Block.ext_iff']
    | v6 c => simp [address]
  | v6 b =>
    cases n with
    | v4 c => simp [address]
    | v6 c => simp [address, length, Block.ext_iff']

/-- Networks that cover each other are the same. -/
theorem eq_of_covers (hmn : m.Covers n) (hnm : n.Covers m) : m = n := by
  obtain ⟨hle, hfirst⟩ := (m.covers_iff n).1 hmn
  obtain ⟨hge, -⟩ := (n.covers_iff m).1 hnm
  obtain ⟨hfamily, hbits⟩ := (m.contains_iff n.address).1 hfirst
  refine (ext_iff m n).2 ⟨?_, Nat.le_antisymm hle hge⟩
  refine Address.ext_bit (by rw [family_address, hfamily]) fun i _ => ?_
  rcases Nat.lt_or_ge i m.length with hlt | hbehind
  · exact (hbits i hlt).symm
  · rw [bit_address_of_le m hbehind, bit_address_of_le n (Nat.le_trans hge hbehind)]

theorem eq_iff_contains (m n : Network) : m = n ↔ ∀ x, m.contains x = n.contains x := by
  constructor
  · rintro rfl x
    rfl
  · intro h
    exact eq_of_covers (fun x hx => (h x).trans hx) (fun x hx => (h x).symm.trans hx)

/-- Of two networks with an address in common, the shorter one covers the other. -/
theorem covers_of_contains (hm : m.contains x = true) (hn : n.contains x = true)
    (hle : m.length ≤ n.length) : m.Covers n := by
  obtain ⟨hmFamily, hmBits⟩ := (m.contains_iff x).1 hm
  obtain ⟨hnFamily, hnBits⟩ := (n.contains_iff x).1 hn
  refine (m.covers_iff n).2 ⟨hle, (m.contains_iff n.address).2 ⟨?_, fun i hi => ?_⟩⟩
  · rw [family_address, ← hnFamily, hmFamily]
  · rw [← hnBits i (Nat.lt_of_lt_of_le hi hle), hmBits i hi]

/-- Two networks are disjoint or nested. -/
theorem disjoint_or_nested (m n : Network) :
    (∀ x, m.contains x = false ∨ n.contains x = false) ∨ m.Covers n ∨ n.Covers m := by
  by_cases hcommon : ∃ x, m.contains x = true ∧ n.contains x = true
  · obtain ⟨x, hm, hn⟩ := hcommon
    rcases Nat.le_total m.length n.length with hle | hge
    · exact .inr (.inl (covers_of_contains hm hn hle))
    · exact .inr (.inr (covers_of_contains hn hm hge))
  · refine .inl fun x => ?_
    cases hm : m.contains x with
    | false => exact .inl rfl
    | true => exact .inr (Bool.eq_false_iff.2 fun hn => hcommon ⟨x, hm, hn⟩)

/-- Every network is made from its own address and length. -/
theorem around_address (n : Network) : around n.address n.length = .ok n := by
  cases n with
  | v4 b =>
    have hsame := b.around_of_contains b.bits b.contains_bits
    exact (dif_pos b.length_le).trans (congrArg (fun c => Except.ok (v4 c)) hsame)
  | v6 b =>
    have hsame := b.around_of_contains b.bits b.contains_bits
    exact (dif_pos b.length_le).trans (congrArg (fun c => Except.ok (v6 c)) hsame)

theorem around_width (a : Address) : around a a.family.width = .ok (host a) := by
  cases a <;> rfl

/-- What a network is made from: its length, its family and the first bits of its address. -/
theorem of_around_eq_ok {k : Nat} (h : around a k = .ok m) :
    m.length = k ∧ m.family = a.family ∧ ∀ i < k, m.address.bit i = a.bit i := by
  have hbits : ∀ {w : Nat} (b : BitVec w), ∀ i < k, (keep k b).getMsbD i = b.getMsbD i := by
    intro w b i hi
    simp [getMsbD_keep, hi]
  cases a with
  | v4 b =>
    simp only [around] at h
    split at h
    · cases h
      exact ⟨rfl, rfl, hbits b⟩
    · cases h
  | v6 b =>
    simp only [around] at h
    split at h
    · cases h
      exact ⟨rfl, rfl, hbits b⟩
    · cases h

theorem contains_of_around {k : Nat} (h : around a k = .ok m) (x : Address) :
    m.contains x = true ↔ x.family = a.family ∧ ∀ i < k, x.bit i = a.bit i := by
  obtain ⟨rfl, hfamily, hbits⟩ := of_around_eq_ok h
  rw [contains_iff, hfamily]
  refine and_congr_right fun _ => forall₂_congr fun i hi => ?_
  rw [hbits i hi]

theorem contains_host (a x : Address) : (host a).contains x = true ↔ x = a := by
  rw [contains_of_around (around_width a)]
  constructor
  · intro ⟨hfamily, hbits⟩
    exact Address.ext_bit hfamily (hfamily ▸ hbits)
  · rintro rfl
    exact ⟨rfl, fun _ _ => rfl⟩

/-- Networks as keys for sets of addresses. Equality is equality of the sets, which are disjoint or
nested, and nested just if the first address of the one is held by the other one, which is not
longer. The sets are those of the addresses that agree on the first bits: with the address of the
network, and with any address that it was made from. -/
theorem canonical_address_sets (m n : Network) :
    (m = n ↔ ∀ x, m.contains x = n.contains x) ∧
    ((∀ x, m.contains x = false ∨ n.contains x = false) ∨ m.Covers n ∨ n.Covers m) ∧
    (m.Covers n ↔
      m.family = n.family ∧ m.length ≤ n.length ∧ m.contains n.address = true) ∧
    (∀ x, m.contains x = true ↔
      x.family = m.family ∧ ∀ i < m.length, x.bit i = m.address.bit i) ∧
    around m.address m.length = .ok m ∧
    (∀ a k, match around a k with
      | .ok made => made.length = k ∧ ∀ x, made.contains x = true ↔
          x.family = a.family ∧ ∀ i < k, x.bit i = a.bit i
      | .error _ => a.family.width < k) ∧
    ∀ a x, (host a).contains x = true ↔ x = a := by
  refine ⟨eq_iff_contains m n, disjoint_or_nested m n, ?_, contains_iff m, around_address m, ?_,
    contains_host⟩
  · rw [covers_iff]
    refine (and_iff_right_of_imp fun h => ?_).symm
    rw [family_of_contains h.2, family_address]
  · intro a k
    split
    · rename_i made h
      exact ⟨(of_around_eq_ok h).1, contains_of_around h⟩
    · rename_i reason h
      exact ((around_eq_error_iff a k reason).1 h).1

/-- Two notations of one network. -/
example : around (.v4 0x0a010203) 8 = around (.v4 0x0a000000) 8 := by rfl

end Network

end FloodGuard
