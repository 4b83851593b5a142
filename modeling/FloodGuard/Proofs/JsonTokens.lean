import FloodGuard.Json.Text

/-!
Cutting a written value into tokens. A text scans to some tokens if its first token, cut off the
front, leaves a text that scans to the others; the number of characters bounds the number of tokens.
Punctuation and strings end by themselves, a number ends where no further digit, fraction or
exponent can follow.
-/
namespace FloodGuard.Json

/-- Whether a text consists of some tokens. -/
def ScansTo (text : List Char) (tokens : List Token) : Prop :=
  ∀ fuel, text.length < fuel → scanWithin text fuel = some tokens

theorem scansTo_nil : ScansTo [] [] := by
  intro fuel hfuel
  obtain ⟨n, rfl⟩ := Nat.exists_eq_succ_of_ne_zero (Nat.ne_of_gt hfuel)
  rfl

theorem ScansTo.cons {c : Char} {text behind : List Char} {token : Token} {tokens : List Token}
    (h : ScansTo behind tokens) (hgap : isGap c = false)
    (hcut : cutToken (c :: text) = some (token, behind)) (hless : behind.length ≤ text.length) :
    ScansTo (c :: text) (token :: tokens) := by
  intro fuel hfuel
  obtain ⟨n, rfl⟩ := Nat.exists_eq_succ_of_ne_zero (Nat.ne_zero_of_lt hfuel)
  have hfirst : (c :: text).dropWhile isGap = c :: text :=
    List.dropWhile_cons_of_neg (by simp [hgap])
  have hrest : scanWithin behind n = some tokens := by
    apply h
    simp only [List.length_cons] at hfuel
    omega
  rw [scanWithin, hfirst]
  simp only [hcut, hrest, Option.bind_eq_bind, Option.bind_some]

theorem scan?_of_scansTo {text : List Char} {tokens : List Token} (h : ScansTo text tokens) :
    scan? text = some tokens := h _ (Nat.lt_succ_self _)

/-- The tokens of one character. -/
def punctuation : List (Char × Token) :=
  [('[', .openArr), (']', .closeArr), ('\x7b', .openObj), ('\x7d', .closeObj), (',', .comma),
    (':', .colon)]

theorem scansTo_punctuation {c : Char} {token : Token} (hmem : (c, token) ∈ punctuation)
    {rest : List Char} {tokens : List Token} (h : ScansTo rest tokens) :
    ScansTo (c :: rest) (token :: tokens) := by
  refine h.cons ?_ ?_ (Nat.le_refl _)
  · have hall : ∀ entry ∈ punctuation, isGap entry.1 = false := by decide
    exact hall (c, token) hmem
  · simp only [punctuation, List.mem_cons, Prod.mk.injEq, List.not_mem_nil, or_false] at hmem
    rcases hmem with ⟨rfl, rfl⟩ | ⟨rfl, rfl⟩ | ⟨rfl, rfl⟩ | ⟨rfl, rfl⟩ | ⟨rfl, rfl⟩ | ⟨rfl, rfl⟩ <;>
      rfl

section Strings

/-- The four digits of an escaped control character give it back. -/
theorem value?_control : ∀ n < 0x20, ∃ a b,
    (if n < 0x10 then ['0'] else []) ++ Numeral.write 16 n = [a, b] ∧
      Numeral.value? 16 ['0', '0', a, b] = some n := by
  intro n hn
  have hdigits : (if n < 0x10 then ['0'] else []) ++ Numeral.write 16 n =
      [(n / 16).digitChar, (n % 16).digitChar] := by
    have hall : ∀ n < 0x20, (if n < 0x10 then ['0'] else []) ++ Numeral.write 16 n =
        [(n / 16).digitChar, (n % 16).digitChar] := by decide
    exact hall n hn
  have hvalue : ∀ n < 0x20,
      Numeral.value? 16 ['0', '0', (n / 16).digitChar, (n % 16).digitChar] = some n := by decide
  exact ⟨_, _, hdigits, hvalue n hn⟩

theorem cutString_escaped {c escaped : Char} (hletter : c ≠ 'u') (h : escaped? c = some escaped)
    (rest : List Char) :
    cutString ('\\' :: c :: rest) =
      (cutString rest).map fun (body, behind) => (escaped :: body, behind) := by
  rw [cutString.eq_4, h]
  · cases cutString rest <;> rfl
  · intro a b d e others hu
    exact absurd hu hletter

theorem cutString_control {n : Nat} (hn : n < 0x20) {a b : Char}
    (h : Numeral.value? 16 ['0', '0', a, b] = some n) (rest : List Char) :
    cutString ('\\' :: 'u' :: '0' :: '0' :: a :: b :: rest) =
      (cutString rest).map fun (body, behind) => (Char.ofNat n :: body, behind) := by
  have hpair : ∀ n < 0x20, isHigh n = false ∧ isLow n = false := by decide
  obtain ⟨hhigh, hlow⟩ := hpair n hn
  simp only [cutString, h, Option.bind_eq_bind, Option.bind_some, hhigh, hlow, Bool.false_eq_true,
    if_false]
  cases cutString rest <;> rfl

/-- A written character is read as that character, in front of what is read of the rest. -/
theorem cutString_charsOfChar (c : Char) (rest : List Char) :
    cutString (charsOfChar c ++ rest) =
      (cutString rest).map fun (body, behind) => (c :: body, behind) := by
  unfold charsOfChar
  split
  · rename_i hquote
    subst hquote
    exact cutString_escaped (by decide) rfl rest
  · split
    · rename_i hback
      subst hback
      exact cutString_escaped (by decide) rfl rest
    · split
      · rename_i hcontrol
        obtain ⟨a, b, hdigits, hvalue⟩ := value?_control c.toNat hcontrol
        have hchar := cutString_control hcontrol hvalue rest
        rw [Char.ofNat_toNat] at hchar
        simp only [List.cons_append, hdigits, List.nil_append]
        exact hchar
      · rename_i hquote hback hplain
        rw [List.singleton_append, cutString.eq_5, if_neg (by simp [hback, hplain])]
        · exact hquote
        · exact fun _ _ _ _ _ h _ => hback h
        · exact fun _ _ h _ => hback h

theorem cutString_flatMap (body rest : List Char) :
    cutString (body.flatMap charsOfChar ++ '"' :: rest) = some (body, rest) := by
  induction body with
  | nil => rfl
  | cons c others ih =>
    rw [List.flatMap_cons, List.append_assoc, cutString_charsOfChar, ih]
    rfl

theorem scansTo_string (s : String) {rest : List Char} {tokens : List Token}
    (h : ScansTo rest tokens) :
    ScansTo (charsOfString s ++ rest) (.value (.str s) :: tokens) := by
  have hchars : charsOfString s ++ rest =
      '"' :: (s.toList.flatMap charsOfChar ++ '"' :: rest) := by
    simp [charsOfString]
  have hcut : cutToken ('"' :: (s.toList.flatMap charsOfChar ++ '"' :: rest)) =
      some (.value (.str s), rest) := by
    show (cutString (s.toList.flatMap charsOfChar ++ '"' :: rest)).map _ = _
    rw [cutString_flatMap]
    show some (Token.value (.str (String.ofList s.toList)), rest) = _
    rw [String.ofList_toList]
  rw [hchars]
  refine h.cons (by decide) hcut ?_
  simp only [List.length_append, List.length_cons]
  omega

end Strings

theorem scansTo_word {word : List Char} {value : Json} (hmem : (word, value) ∈ words)
    {rest : List Char} {tokens : List Token} (h : ScansTo rest tokens) :
    ScansTo (word ++ rest) (.value value :: tokens) := by
  simp only [words, List.mem_cons, Prod.mk.injEq, List.not_mem_nil, or_false] at hmem
  rcases hmem with ⟨rfl, rfl⟩ | ⟨rfl, rfl⟩ | ⟨rfl, rfl⟩
  · show ScansTo ('n' :: 'u' :: 'l' :: 'l' :: rest) _
    exact h.cons (by decide) rfl (by simp only [List.length_cons]; omega)
  · show ScansTo ('t' :: 'r' :: 'u' :: 'e' :: rest) _
    exact h.cons (by decide) rfl (by simp only [List.length_cons]; omega)
  · show ScansTo ('f' :: 'a' :: 'l' :: 's' :: 'e' :: rest) _
    exact h.cons (by decide) rfl (by simp only [List.length_cons]; omega)

section Numbers

/-- Whether a whole number fits in 64 bits, with a sign or without one. -/
def Fits64 (n : Int) : Prop := -9223372036854775808 ≤ n ∧ n < 18446744073709551616

/-- Whether no number goes on in a text: it is empty or begins with punctuation. -/
def Closed (text : List Char) : Prop :=
  ∀ c, text.head? = some c → c ∈ [',', ']', '\x7d']

theorem Closed.not_digit {text : List Char} (h : Closed text) (c : Char)
    (hc : text.head? = some c) : c.isDigit = false := by
  have hall : ∀ c ∈ [',', ']', '\x7d'], (!c.isDigit) = true := List.all_eq_true.1 (by decide)
  simpa using hall c (h c hc)

/-- A decimal digit has the value that its place behind zero gives. -/
theorem eq_of_digitValue {c : Char} {d : Nat} (h : Numeral.digitValue c = some d) (hd : d < 10) :
    d = c.toNat - 48 := by
  rw [Numeral.digitValue] at h
  split at h
  · exact (Option.some.inj h).symm
  · split at h
    · rename_i hletter
      have hlow : 'a'.toNat ≤ c.toNat := hletter.1
      have hvalue := Option.some.inj h
      have ha : 'a'.toNat = 97 := rfl
      omega
    · split at h
      · rename_i hletter
        have hlow : 'A'.toNat ≤ c.toNat := hletter.1
        have hvalue := Option.some.inj h
        have ha : 'A'.toNat = 65 := rfl
        omega
      · cases h

theorem eq_of_extend {n m : Nat} {c : Char} (h : Numeral.extend 10 n c = some m) :
    m = n * 10 + (c.toNat - 48) := by
  rw [Numeral.extend] at h
  split at h
  · rename_i d hvalue
    obtain ⟨hd, hm⟩ := Option.ite_none_right_eq_some.1 h
    rw [← eq_of_digitValue hvalue hd, Option.some.inj hm]
  · cases h

theorem le_of_foldlM {start n : Nat} {digits : List Char}
    (h : digits.foldlM (Numeral.extend 10) start = some n) : start ≤ n := by
  induction digits generalizing start with
  | nil => exact Nat.le_of_eq (Option.some.inj h)
  | cons c rest ih =>
    rw [List.foldlM_cons] at h
    obtain ⟨next, hnext, hrest⟩ := Option.bind_eq_some_iff.1 h
    have hstep := eq_of_extend hnext
    have hlater := ih hrest
    omega

/-- The digits of a number that fits in 64 bits fit there one by one. -/
theorem fittingDigits_of_foldlM {start n : Nat} {digits : List Char}
    (h : digits.foldlM (Numeral.extend 10) start = some n) (hsize : n < UInt64.size) :
    fittingDigits start digits = (n, digits.length, 0) := by
  induction digits generalizing start with
  | nil =>
    obtain rfl := Option.some.inj h
    rfl
  | cons c rest ih =>
    rw [List.foldlM_cons] at h
    obtain ⟨next, hnext, hrest⟩ := Option.bind_eq_some_iff.1 h
    have hstep := eq_of_extend hnext
    have hfits : start * 10 + (c.toNat - 48) < UInt64.size := by
      have hlater := le_of_foldlM hrest
      omega
    rw [fittingDigits, if_pos hfits, ← hstep, ih hrest]
    rfl

theorem isDigit_of_mem_write {n : Nat} {c : Char} (h : c ∈ Numeral.write 10 n) :
    c.isDigit = true := by
  obtain ⟨d, hd, rfl⟩ := Numeral.exists_digit_of_mem_write 10 n (by decide) c h
  have hall : ∀ d < 10, (Nat.digitChar d).isDigit = true := by decide
  exact hall d hd

/-- The digits of a number do not begin with a zero that could be left out. -/
theorem write_ne_zero_cons (n : Nat) (c : Char) (others : List Char) :
    Numeral.write 10 n ≠ '0' :: c :: others := by
  intro h
  have hzero : n = 0 := Numeral.head?_write 10 n (by decide) (by decide) (by rw [h]; rfl)
  subst hzero
  exact absurd (List.cons.inj h).2 nofun

/-- A number without a fraction or an exponent is cut off where its digits end. -/
theorem cutNumber_digits (negative : Bool) {digits rest : List Char}
    (hdigits : ∀ c ∈ digits, c.isDigit = true) (hne : digits ≠ [])
    (hzero : ∀ c others, digits ≠ '0' :: c :: others) (hclosed : Closed rest) :
    cutNumber ((if negative then ['-'] else []) ++ (digits ++ rest)) =
      some (⟨negative, digits, [], false, []⟩, rest) := by
  have htake := Text.takeWhile_run hdigits hclosed.not_digit
  have hdrop := Text.dropWhile_run hdigits hclosed.not_digit
  have hhead : (digits ++ rest).head? ≠ some '-' := by
    obtain ⟨first, others, rfl⟩ := List.exists_cons_of_ne_nil hne
    intro hminus
    obtain rfl : first = '-' := Option.some.inj hminus
    exact absurd (hdigits '-' List.mem_cons_self) (by decide)
  have hsign : ((if negative then ['-'] else []) ++ (digits ++ rest)).head? = some '-' ↔
      negative = true := by
    cases negative
    · simpa using hhead
    · simp
  have hunsigned : (if negative = true then
      ((if negative then ['-'] else []) ++ (digits ++ rest)).tail
      else (if negative then ['-'] else []) ++ (digits ++ rest)) = digits ++ rest := by
    cases negative <;> rfl
  unfold cutNumber
  simp only [hsign, hunsigned, htake, hdrop]
  cases rest with
  | nil => simp
  | cons c others =>
    have hmark := hclosed c rfl
    simp only [List.mem_cons, List.not_mem_nil, or_false] at hmark
    rcases hmark with rfl | rfl | rfl <;> simp

theorem signed_eq (n : Int) :
    Numeral.signed n = (if decide (n < 0) then ['-'] else []) ++ Numeral.write 10 n.natAbs := by
  rw [Numeral.signed]
  by_cases hn : n < 0 <;> simp [hn]

theorem cutNumber_signed (n : Int) {rest : List Char} (h : Closed rest) :
    cutNumber (Numeral.signed n ++ rest) =
      some (⟨decide (n < 0), Numeral.write 10 n.natAbs, [], false, []⟩, rest) := by
  rw [signed_eq, List.append_assoc]
  exact cutNumber_digits (decide (n < 0)) (fun c hc => isDigit_of_mem_write hc)
    (Numeral.write_ne_nil 10 n.natAbs) (write_ne_zero_cons n.natAbs) h

theorem toJson?_signed {n : Int} (h : Fits64 n) :
    Numeric.toJson? ⟨decide (n < 0), Numeral.write 10 n.natAbs, [], false, []⟩ = some (.int n) := by
  obtain ⟨hlow, hhigh⟩ := h
  have hfits : fittingDigits 0 (Numeral.write 10 n.natAbs) =
      (n.natAbs, (Numeral.write 10 n.natAbs).length, 0) := by
    refine fittingDigits_of_foldlM (Numeral.foldlM_extend_toDigits 10 n.natAbs (by decide)
      (by decide)) ?_
    show n.natAbs < 18446744073709551616
    omega
  have hwhole : Numeric.wholeValue? ⟨decide (n < 0), Numeral.write 10 n.natAbs, [], false, []⟩ =
      some n := by
    simp only [Numeric.wholeValue?, hfits]
    by_cases hn : n < 0
    · have hsize : 0 < n.natAbs ∧ n.natAbs ≤ Nat.pow 2 63 := by
        constructor
        · omega
        · show n.natAbs ≤ 9223372036854775808
          omega
      rw [if_pos (decide_eq_true hn), if_pos hsize]
      exact congrArg some (by omega)
    · rw [if_neg (by simpa using hn)]
      exact congrArg some (by omega)
  rw [Numeric.toJson?, hwhole]

/-- The signs that a number begins with stand at the beginning of nothing else. -/
theorem not_mem_of_number {c : Char} (h : c = '-' ∨ c.isDigit = true) :
    c ∉ ['[', ']', '\x7b', '\x7d', ',', ':', '"', ' ', '\n', '\t', '\r'] := by
  have hall : ∀ mark ∈ ['[', ']', '\x7b', '\x7d', ',', ':', '"', ' ', '\n', '\t', '\r'],
      (!(decide (mark = '-') || mark.isDigit)) = true := List.all_eq_true.1 (by decide)
  intro hmem
  have hmark := hall c hmem
  rcases h with rfl | hc
  · exact absurd hmark (by decide)
  · simp [hc] at hmark

theorem cutToken_number {c : Char} {text : List Char} (h : c = '-' ∨ c.isDigit = true) :
    cutToken (c :: text) = (cutNumber (c :: text)).bind fun cut =>
      cut.1.toJson?.map fun value => (.value value, cut.2) := by
  have hmark := not_mem_of_number h
  simp only [List.mem_cons, not_or] at hmark
  obtain ⟨harr, harr', hobj, hobj', hcomma, hcolon, hquote, -⟩ := hmark
  rw [cutToken, if_neg harr, if_neg harr', if_neg hobj, if_neg hobj', if_neg hcomma, if_neg hcolon,
    if_neg hquote, if_pos h]
  simp only [Option.bind_eq_bind, Option.map_eq_bind, Function.comp_def]

theorem isGap_number {c : Char} (h : c = '-' ∨ c.isDigit = true) : isGap c = false := by
  have hmark := not_mem_of_number h
  simp only [List.mem_cons, not_or] at hmark
  simp [isGap, hmark]

theorem signed_eq_cons (n : Int) : ∃ c others, Numeral.signed n = c :: others ∧
    (c = '-' ∨ c.isDigit = true) := by
  obtain ⟨c, others, hdigits⟩ := List.exists_cons_of_ne_nil (Numeral.write_ne_nil 10 n.natAbs)
  rw [Numeral.signed, hdigits]
  split
  · exact ⟨'-', _, rfl, .inl rfl⟩
  · exact ⟨c, others, rfl, .inr (isDigit_of_mem_write (hdigits ▸ List.mem_cons_self))⟩

/-- A whole number that fits in 64 bits is read back. -/
theorem scansTo_signed {n : Int} (hfits : Fits64 n) {rest : List Char} {tokens : List Token}
    (h : ScansTo rest tokens) (hclosed : Closed rest) :
    ScansTo (Numeral.signed n ++ rest) (.value (.int n) :: tokens) := by
  obtain ⟨c, others, hchars, hfirst⟩ := signed_eq_cons n
  have hcut : cutToken (c :: (others ++ rest)) = some (.value (.int n), rest) := by
    rw [cutToken_number hfirst, ← List.cons_append, ← hchars, cutNumber_signed n hclosed,
      Option.bind_some, toJson?_signed hfits, Option.map_some]
  rw [hchars, List.cons_append]
  refine h.cons (isGap_number hfirst) hcut ?_
  rw [List.length_append]
  omega

end Numbers

end FloodGuard.Json
