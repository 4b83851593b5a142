/-!
Characters of octets in UTF-8. Octets that are no part of a character stand for a replacement
character; the octets of a character that breaks off count as one. The main statement is that
characters come back from the octets that are written for them.
-/
namespace FloodGuard.Text

def replacement : Char := '\uFFFD'

/-- How a character goes on behind its first octet: the bits that the octet gives, the number of
further octets, and the range of the next one. -/
structure Lead where
  bits : Nat
  further : Nat
  low : Nat
  high : Nat
deriving DecidableEq, Repr

/-- The first octet of a character of several octets. -/
def lead? (octet : Nat) : Option Lead :=
  if octet < 0xC2 then none
  else if octet ≤ 0xDF then some ⟨octet - 0xC0, 1, 0x80, 0xBF⟩
  else if octet = 0xE0 then some ⟨0, 2, 0xA0, 0xBF⟩
  else if octet = 0xED then some ⟨0xD, 2, 0x80, 0x9F⟩
  else if octet ≤ 0xEF then some ⟨octet - 0xE0, 2, 0x80, 0xBF⟩
  else if octet = 0xF0 then some ⟨0, 3, 0x90, 0xBF⟩
  else if octet ≤ 0xF3 then some ⟨octet - 0xF0, 3, 0x80, 0xBF⟩
  else if octet = 0xF4 then some ⟨4, 3, 0x80, 0x8F⟩
  else none

/-- Reads on with a character that is begun, or at its end if there is none. -/
def decodeOctets : Option Lead → List Nat → List Char
  | none, [] => []
  | some _, [] => [replacement]
  | none, octet :: rest =>
    if octet < 0x80 then Char.ofNat octet :: decodeOctets none rest
    else match lead? octet with
      | some lead => decodeOctets (some lead) rest
      | none => replacement :: decodeOctets none rest
  | some begun, octet :: rest =>
    if begun.low ≤ octet ∧ octet ≤ begun.high then
      let bits := begun.bits * 64 + (octet - 0x80)
      if begun.further ≤ 1 then Char.ofNat bits :: decodeOctets none rest
      else decodeOctets (some ⟨bits, begun.further - 1, 0x80, 0xBF⟩) rest
    else if octet < 0x80 then replacement :: Char.ofNat octet :: decodeOctets none rest
    else match lead? octet with
      | some lead => replacement :: decodeOctets (some lead) rest
      | none => replacement :: replacement :: decodeOctets none rest

/-- The characters of a text in UTF-8. -/
def ofUtf8 (octets : List Nat) : List Char := decodeOctets none octets

def toUtf8 (text : List Char) : List Nat :=
  (String.ofList text).toUTF8.toList.map UInt8.toNat

/-- The octets of a character. -/
def octetsOf (c : Char) : List Nat := (String.utf8EncodeChar c).map UInt8.toNat

theorem toList_loop (bytes : ByteArray) (i : Nat) (front : List UInt8) :
    ByteArray.toList.loop bytes i front = front.reverse ++ bytes.data.toList.drop i := by
  fun_induction ByteArray.toList.loop bytes i front with
  | case1 i front hlt ih =>
    have hi : i < bytes.data.toList.length := hlt
    rw [ih, List.drop_eq_getElem_cons hi, List.reverse_cons, List.append_assoc]
    simp [ByteArray.get!, hlt]
  | case2 i front hge =>
    have hend : bytes.data.toList.length ≤ i := Nat.le_of_not_lt hge
    rw [List.drop_eq_nil_of_le hend, List.append_nil]

theorem toUtf8_eq (text : List Char) : toUtf8 text = text.flatMap octetsOf := by
  have hbytes : (String.ofList text).toUTF8.toList = text.flatMap String.utf8EncodeChar := by
    rw [String.toUTF8, String.toByteArray_ofList, List.utf8Encode, ByteArray.toList, toList_loop]
    simp
  rw [toUtf8, hbytes, List.map_flatMap]
  rfl

theorem toUtf8_append (front back : List Char) :
    toUtf8 (front ++ back) = toUtf8 front ++ toUtf8 back := by
  rw [toUtf8_eq, toUtf8_eq, toUtf8_eq, List.flatMap_append]

section Decoding

variable {n : Nat} (rest : List Nat)

theorem decodeOctets_lead {octet : Nat} {lead : Lead} (hoctet : 0x80 ≤ octet)
    (hlead : lead? octet = some lead) :
    decodeOctets none (octet :: rest) = decodeOctets (some lead) rest := by
  rw [decodeOctets, if_neg (by omega), hlead]

theorem decodeOctets_further {bits further low high : Nat} (hlow : low ≤ n + 0x80)
    (hhigh : n + 0x80 ≤ high) :
    decodeOctets (some ⟨bits, further + 2, low, high⟩) ((n + 0x80) :: rest) =
      decodeOctets (some ⟨bits * 64 + n, further + 1, 0x80, 0xBF⟩) rest := by
  have hmore : ¬ further + 2 ≤ 1 := by omega
  rw [decodeOctets, if_pos ⟨hlow, hhigh⟩, if_neg hmore, Nat.add_sub_cancel]
  rfl

theorem decodeOctets_last (bits : Nat) (hn : n < 64) :
    decodeOctets (some ⟨bits, 1, 0x80, 0xBF⟩) ((n + 0x80) :: rest) =
      Char.ofNat (bits * 64 + n) :: decodeOctets none rest := by
  have hlow : 0x80 ≤ n + 0x80 := by omega
  have hhigh : n + 0x80 ≤ 0xBF := by omega
  rw [decodeOctets, if_pos ⟨hlow, hhigh⟩, if_pos (Nat.le_refl 1), Nat.add_sub_cancel]

end Decoding

theorem toNat_range (c : Char) : c.toNat < 0xD800 ∨ 0xDFFF < c.toNat ∧ c.toNat < 0x110000 := c.valid

/-- The octets of a character hold the bits of its number. -/
theorem octetsOf_eq (c : Char) :
    octetsOf c =
      if c.toNat < 0x80 then [c.toNat]
      else if c.toNat < 0x800 then [c.toNat / 64 + 0xC0, c.toNat % 64 + 0x80]
      else if c.toNat < 0x10000 then
        [c.toNat / 4096 + 0xE0, c.toNat / 64 % 64 + 0x80, c.toNat % 64 + 0x80]
      else
        [c.toNat / 262144 + 0xF0, c.toNat / 4096 % 64 + 0x80, c.toNat / 64 % 64 + 0x80,
          c.toNat % 64 + 0x80] := by
  have hoctet : ∀ n < 256, (UInt8.ofNat n).toNat = n := fun n hn => UInt8.toNat_ofNat_of_lt' hn
  have hchar := toNat_range c
  have hnumber : c.val.toNat = c.toNat := rfl
  rw [octetsOf, String.utf8EncodeChar.eq_1, hnumber]
  by_cases hone : c.toNat < 0x80
  · rw [if_pos hone, if_pos (by omega), List.map_singleton, hoctet _ (by omega)]
  rw [if_neg hone, if_neg (by omega)]
  by_cases htwo : c.toNat < 0x800
  · have hfirst : c.toNat / 64 % 32 = c.toNat / 64 := by omega
    rw [if_pos htwo, if_pos (by omega), List.map_cons, List.map_singleton, hfirst,
      hoctet _ (by omega), hoctet _ (by omega)]
  rw [if_neg htwo, if_neg (by omega)]
  by_cases hthree : c.toNat < 0x10000
  · have hfirst : c.toNat / 4096 % 16 = c.toNat / 4096 := by omega
    rw [if_pos hthree, if_pos (by omega), List.map_cons, List.map_cons, List.map_singleton, hfirst,
      hoctet _ (by omega), hoctet _ (by omega), hoctet _ (by omega)]
  · have hfirst : c.toNat / 262144 % 8 = c.toNat / 262144 := by omega
    rw [if_neg hthree, if_neg (by omega), List.map_cons, List.map_cons, List.map_cons,
      List.map_singleton, hfirst, hoctet _ (by omega), hoctet _ (by omega), hoctet _ (by omega),
      hoctet _ (by omega)]

theorem lead?_two : ∀ k < 32, 2 ≤ k → lead? (k + 0xC0) = some ⟨k, 1, 0x80, 0xBF⟩ := by decide

theorem lead?_three : ∀ k < 16, lead? (k + 0xE0) =
    some ⟨k, 2, if k = 0 then 0xA0 else 0x80, if k = 13 then 0x9F else 0xBF⟩ := by decide

theorem lead?_four : ∀ k < 5, lead? (k + 0xF0) =
    some ⟨k, 3, if k = 0 then 0x90 else 0x80, if k = 4 then 0x8F else 0xBF⟩ := by decide

/-- A character is read from its octets. -/
theorem decodeOctets_octetsOf (c : Char) (rest : List Nat) :
    decodeOctets none (octetsOf c ++ rest) = c :: decodeOctets none rest := by
  have hchar := toNat_range c
  have hlast : c.toNat % 64 < 64 := Nat.mod_lt _ (by decide)
  rw [octetsOf_eq]
  by_cases hone : c.toNat < 0x80
  · rw [if_pos hone, List.singleton_append, decodeOctets, if_pos hone, Char.ofNat_toNat]
  rw [if_neg hone]
  by_cases htwo : c.toNat < 0x800
  · have hlead := lead?_two (c.toNat / 64) (by omega) (by omega)
    have hbits : c.toNat / 64 * 64 + c.toNat % 64 = c.toNat := by omega
    rw [if_pos htwo]
    show decodeOctets none (_ :: _ :: rest) = _
    rw [decodeOctets_lead _ (by omega) hlead, decodeOctets_last rest _ hlast, hbits,
      Char.ofNat_toNat]
  rw [if_neg htwo]
  by_cases hthree : c.toNat < 0x10000
  · have hlead := lead?_three (c.toNat / 4096) (by omega)
    have hbits : (c.toNat / 4096 * 64 + c.toNat / 64 % 64) * 64 + c.toNat % 64 = c.toNat := by
      omega
    rw [if_pos hthree]
    show decodeOctets none (_ :: _ :: _ :: rest) = _
    -- The second octet is out of range just for overlong forms and for surrogates.
    rw [decodeOctets_lead _ (by omega) hlead,
      decodeOctets_further _ (by split <;> omega) (by split <;> omega),
      decodeOctets_last rest _ hlast, hbits, Char.ofNat_toNat]
  · have hlead := lead?_four (c.toNat / 262144) (by omega)
    have hbits : ((c.toNat / 262144 * 64 + c.toNat / 4096 % 64) * 64 + c.toNat / 64 % 64) * 64 +
        c.toNat % 64 = c.toNat := by omega
    rw [if_neg hthree]
    show decodeOctets none (_ :: _ :: _ :: _ :: rest) = _
    rw [decodeOctets_lead _ (by omega) hlead,
      decodeOctets_further _ (by split <;> omega) (by split <;> omega),
      decodeOctets_further _ (by omega) (by omega),
      decodeOctets_last rest _ hlast, hbits, Char.ofNat_toNat]

theorem ofUtf8_toUtf8 (text : List Char) : ofUtf8 (toUtf8 text) = text := by
  rw [ofUtf8, toUtf8_eq]
  induction text with
  | nil => rfl
  | cons c rest ih => rw [List.flatMap_cons, decodeOctets_octetsOf, ih]

end FloodGuard.Text
