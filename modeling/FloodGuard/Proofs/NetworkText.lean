import FloodGuard.Api
import FloodGuard.Proofs.AddressText
import FloodGuard.Proofs.CanonicalNetworks

/-!
The text of a network and the network made from an address and a length are the same thing: reading
an address, a slash and a length gives what the address and the length make, be it a network or the
refusal of the length. So it does not matter whether a network is given as one text, as in a
configuration, or as an address and a length of their own, as in a request.
-/
namespace FloodGuard.Network

open Numeral Text

/-- No sign of an address is a blank or a slash. -/
theorem of_isSign {c : Char} (h : Address.IsSign c) : isBlank c = false ∧ c ≠ '/' :=
  h.imp (p := fun c => isBlank c = false ∧ c ≠ '/') (by decide) (by decide) (by decide)

theorem isBlank_of_mem_chars {a : Address} {c : Char} (h : c ∈ a.chars) : isBlank c = false :=
  (of_isSign (Address.isSign_of_mem_chars h)).1

theorem slash_not_mem_chars (a : Address) : '/' ∉ a.chars := fun h =>
  (of_isSign (Address.isSign_of_mem_chars h)).2 rfl

theorem ofChars_bare (a : Address) : ofChars a.chars = .ok (host a) := by
  rw [ofChars, cut_of_not_mem '/' _ (slash_not_mem_chars a)]
  simp only [Address.ofChars?_chars]

theorem ofChars_slash (a : Address) {n : Nat} (hn : n ≤ largestLength) :
    ofChars (a.chars ++ '/' :: write 10 n) = around a n := by
  rw [ofChars, cut_append '/' _ _ (slash_not_mem_chars a)]
  simp only [bounded?_write hn, Address.ofChars?_chars]

/-- The signs of an address with a length. -/
theorem toList_slash (a : Address) (n : Nat) :
    (a.text ++ "/" ++ n.repr).toList = a.chars ++ '/' :: write 10 n := by
  rw [String.toList_append, String.toList_append, Nat.toList_repr, Address.text,
    String.toList_ofList, List.append_assoc]
  rfl

theorem length_le_largest (m : Network) : m.length ≤ largestLength := by
  have hwidth : ∀ family : Family, family.width ≤ largestLength := by
    intro family
    cases family <;> decide
  exact Nat.le_trans m.length_le_width (hwidth m.family)

/-- A network is read back from the signs of its text. -/
theorem ofChars_text (m : Network) : ofChars m.text.toList = .ok m := by
  rw [text, toList_slash, ofChars_slash m.address m.length_le_largest, around_address]

/-- The text of a network identifies it. -/
theorem text_inj {m n : Network} : m.text = n.text ↔ m = n := by
  constructor
  · intro h
    have hread : ofChars m.text.toList = ofChars n.text.toList := by rw [h]
    rw [ofChars_text, ofChars_text] at hread
    exact Except.ok.inj hread
  · exact congrArg text

section Blanks

variable {before after : String} (hbefore : ∀ c ∈ before.toList, isBlank c = true)
  (hafter : ∀ c ∈ after.toList, isBlank c = true)

include hbefore hafter

theorem parse_surrounded {text : String} (hne : text.toList ≠ [])
    (htext : ∀ c ∈ text.toList, isBlank c = false) :
    parse (before ++ text ++ after) = ofChars text.toList := by
  rw [parse, String.toList_append, String.toList_append, trim_append hbefore hafter hne htext]

theorem parse_bare (a : Address) : parse (before ++ a.text ++ after) = .ok (host a) := by
  have hchars : a.text.toList = a.chars := String.toList_ofList
  rw [parse_surrounded hbefore hafter, hchars, ofChars_bare]
  · rw [hchars]
    exact a.chars_ne_nil
  · rw [hchars]
    exact fun c hc => isBlank_of_mem_chars hc

theorem parse_slash (a : Address) {n : Nat} (hn : n ≤ largestLength) :
    parse (before ++ (a.text ++ "/" ++ n.repr) ++ after) = around a n := by
  rw [parse_surrounded hbefore hafter, toList_slash, ofChars_slash a hn]
  · rw [toList_slash]
    simp
  · rw [toList_slash]
    intro c hc
    rcases List.mem_append.1 hc with haddress | hlength
    · exact isBlank_of_mem_chars haddress
    · rcases List.mem_cons.1 hlength with rfl | hdigits
      · decide
      · obtain ⟨d, hd, rfl⟩ := exists_digit_of_mem_write 10 n (by decide) c hdigits
        exact (of_isSign (.inr (.inr ⟨d, by omega, rfl⟩))).1

/-- A network is read back from its text. -/
theorem parse_text (m : Network) : parse (before ++ m.text ++ after) = .ok m := by
  rw [text, parse_slash hbefore hafter m.address m.length_le_largest, around_address]

end Blanks

/-- The text of an address with a length, and the address and the length themselves, are the same
network, or are refused for the same reason. Blanks around the text do not matter, and an address
alone is a network of one address. So every network is read back from its text, and from the string
that stands for it in JSON. -/
theorem text_agrees_with_around (before after : String)
    (hbefore : ∀ c ∈ before.toList, isBlank c = true)
    (hafter : ∀ c ∈ after.toList, isBlank c = true) (a : Address) (n : UInt8) :
    parse (before ++ (a.text ++ "/" ++ n.toNat.repr) ++ after) = around a n.toNat ∧
    (around a n.toNat = .error (.lengthOutOfRange a.family n.toNat) ↔
      a.family.width < n.toNat) ∧
    parse (before ++ a.text ++ after) = .ok (host a) ∧
    Api.entity a.text n.toNat =
      (parse (before ++ (a.text ++ "/" ++ n.toNat.repr) ++ after)).mapError .invalidNetwork ∧
    ∀ m : Network, parse (before ++ m.text ++ after) = .ok m ∧
      read .strict (toJson m) = some m ∧ read .lenient (toJson m) = some m := by
  have hn : n.toNat ≤ largestLength := Nat.le_of_lt_succ n.toNat_lt
  have hslash := parse_slash hbefore hafter a hn
  refine ⟨hslash, ?_, parse_bare hbefore hafter a, ?_, fun m => ?_⟩
  · rw [around_eq_error_iff]
    exact and_iff_left rfl
  · rw [hslash, Api.entity, Api.address, Address.parse?_text]
    rfl
  · have hplain : parse m.text = .ok m := by
      have hbare : parse ("" ++ m.text ++ "") = .ok m := parse_text (by simp) (by simp) m
      simpa using hbare
    have hread : ∀ r : Reader, r.text (toJson m) = some m.text → read r (toJson m) = some m := by
      intro r htext
      rw [read, htext, Option.bind_eq_bind, Option.bind_some, hplain]
      rfl
    exact ⟨parse_text hbefore hafter m, hread .strict rfl, hread .lenient rfl⟩

/-- An address that carries one of version 4, with blanks around it. -/
theorem text_agrees_with_around_of_mapped :
    parse "\t::ffff:10.0.0.1/104 \n" = around (.v6 0xFFFF0A000001) 104 := by
  have hbefore : ∀ c ∈ "\t".toList, isBlank c = true := List.all_eq_true.1 (by decide)
  have hafter : ∀ c ∈ " \n".toList, isBlank c = true := List.all_eq_true.1 (by decide)
  exact (text_agrees_with_around "\t" " \n" hbefore hafter (.v6 0xFFFF0A000001) 104).1

end FloodGuard.Network
