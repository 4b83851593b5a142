import FloodGuard.Api

/-!
Texts in a path. A sign that has a meaning in a target can be escaped: it is given as a percent sign
and the two digits of its octet. A path is read in two steps, of which the first one leaves the
signs of a path escaped. So every list of segments can be asked for, whatever is in them, and every
segment arrives as it was.
-/
namespace FloodGuard.Api

open Text

/-- A percent sign and the digits of a sign. -/
def escaped (c : Char) : List Char := ['%', (c.toNat / 16).digitChar, (c.toNat % 16).digitChar]

/-- The text with each of some signs escaped. -/
def escape (signs text : List Char) : List Char :=
  text.flatMap fun c => if c ∈ signs then escaped c else [c]

/-- The signs that have a meaning in a target. -/
def targetSigns : List Char := ['%', '/', '+', '?', '#']

/-- What stands before, between and behind the slashes of a path of segments. -/
def parts (segments : List String) : List (List Char) :=
  [] :: segments.map fun segment => escape targetSigns segment.toList

/-- The target of a path of segments. -/
def targetOf (segments : List String) : String :=
  String.ofList (joinWith ['/'] (parts segments))

theorem toNat_targetSigns : ∀ c ∈ targetSigns, c.toNat < 128 := by
  simp [targetSigns]

theorem toNat_pathSigns : ∀ c ∈ pathSigns, c.toNat < 128 := by
  simp [pathSigns]

theorem escape_cons (signs : List Char) (c : Char) (rest : List Char) :
    escape signs (c :: rest) = (if c ∈ signs then escaped c else [c]) ++ escape signs rest :=
  List.flatMap_cons

theorem escape_nil_signs (text : List Char) : escape [] text = text := by
  induction text with
  | nil => rfl
  | cons c rest ih => rw [escape_cons, if_neg List.not_mem_nil, ih, List.singleton_append]

theorem toUtf8_of_lt {c : Char} (h : c.toNat < 128) : toUtf8 [c] = [c.toNat] := by
  rw [toUtf8_eq, List.flatMap_singleton, octetsOf_eq, if_pos h]

/-- The digits of an octet are read back, and are no percent signs. -/
theorem digits_of_octet : ∀ n < 128,
    Numeral.value? 16 [(n / 16).digitChar, (n % 16).digitChar] = some n ∧
      (n / 16).digitChar ≠ '%' ∧ (n % 16).digitChar ≠ '%' := by decide

section

variable (kept : List Char) {c : Char} (rest : List Char)

theorem unescape_plain (hc : c ≠ '%') :
    unescape kept (c :: rest) = toUtf8 [c] ++ unescape kept rest := by
  rw [unescape]
  intro a b others hpercent
  exact absurd hpercent hc

theorem unescape_escaped (hc : c.toNat < 128) (hkept : c ∉ kept) :
    unescape kept (escaped c ++ rest) = toUtf8 [c] ++ unescape kept rest := by
  obtain ⟨hvalue, -, -⟩ := digits_of_octet c.toNat hc
  have hoctet : c.toNat ∉ kept.map Char.toNat := by
    intro hmem
    obtain ⟨sign, hsign, heq⟩ := List.mem_map.1 hmem
    exact hkept (Char.toNat_inj.1 heq ▸ hsign)
  rw [toUtf8_of_lt hc, escaped, List.cons_append, List.cons_append, List.singleton_append, unescape,
    hvalue, Option.filter_some, if_pos (by simpa using hoctet), List.singleton_append]

theorem unescape_kept (hc : c.toNat < 128) (hkept : c ∈ kept) :
    unescape kept (escaped c ++ rest) = toUtf8 (escaped c) ++ unescape kept rest := by
  obtain ⟨hvalue, hfirst, hsecond⟩ := digits_of_octet c.toNat hc
  have hoctet : c.toNat ∈ kept.map Char.toNat := List.mem_map_of_mem hkept
  have hsigns : toUtf8 (escaped c) = toUtf8 ['%'] ++ (toUtf8 [(c.toNat / 16).digitChar] ++
      toUtf8 [(c.toNat % 16).digitChar]) := by
    rw [← toUtf8_append, ← toUtf8_append]
    rfl
  rw [hsigns, escaped, List.cons_append, List.cons_append, List.singleton_append, unescape, hvalue,
    Option.filter_some, if_neg (by simpa using hoctet), toUtf8_of_lt (by decide)]
  rw [unescape_plain kept _ hfirst, unescape_plain kept _ hsecond]
  simp only [List.cons_append, List.nil_append, List.append_assoc]

end

/-- Reading decodes the signs that are escaped, but for the kept ones. -/
theorem unescape_escape (kept : List Char) {signs : List Char} (hpercent : '%' ∈ signs)
    (hoctets : ∀ c ∈ signs, c.toNat < 128) (text : List Char) :
    unescape kept (escape signs text) = toUtf8 (escape (signs.filter (· ∈ kept)) text) := by
  induction text with
  | nil =>
    show unescape kept [] = toUtf8 []
    rw [unescape, toUtf8_eq, List.flatMap_nil]
  | cons c rest ih =>
    rw [escape_cons, escape_cons, toUtf8_append]
    by_cases hsign : c ∈ signs
    · rw [if_pos hsign]
      by_cases hkept : c ∈ kept
      · rw [unescape_kept kept _ (hoctets c hsign) hkept, ih, if_pos (by simp [hsign, hkept])]
      · rw [unescape_escaped kept _ (hoctets c hsign) hkept, ih, if_neg (by simp [hkept])]
    · have hplain : c ≠ '%' := fun heq => hsign (heq ▸ hpercent)
      rw [if_neg hsign, List.singleton_append, unescape_plain kept _ hplain, ih,
        if_neg (by simp [hsign])]

theorem decodeExcept_escape (kept : List Char) {signs : List Char} (hpercent : '%' ∈ signs)
    (hoctets : ∀ c ∈ signs, c.toNat < 128) (text : List Char) :
    decodeExcept kept (escape signs text) =
      String.ofList (escape (signs.filter (· ∈ kept)) text) := by
  rw [decodeExcept, unescape_escape kept hpercent hoctets, ofUtf8_toUtf8]

/-- A segment arrives with the signs of a path escaped. -/
theorem decodeExcept_pathSigns (text : List Char) :
    decodeExcept pathSigns (escape targetSigns text) = String.ofList (escape pathSigns text) :=
  decodeExcept_escape pathSigns (by decide) toNat_targetSigns text

/-- What is asked for is what was to be given. -/
theorem given_escape (text : String) :
    Service.given (String.ofList (escape pathSigns text.toList)) = text := by
  rw [Service.given, String.toList_ofList, decode,
    decodeExcept_escape [] (by decide) toNat_pathSigns]
  show String.ofList (escape [] text.toList) = text
  rw [escape_nil_signs, String.ofList_toList]

/-- A sign that is escaped is not in the text any more, if it is none of those for escaping. -/
theorem not_mem_escape {signs : List Char} {c : Char} (hc : c ∈ signs)
    (hescapes : c ∉ signs.flatMap escaped) (text : List Char) : c ∉ escape signs text := by
  intro hmem
  obtain ⟨sign, -, hsign⟩ := List.mem_flatMap.1 hmem
  by_cases hescaped : sign ∈ signs
  · rw [if_pos hescaped] at hsign
    exact hescapes (List.mem_flatMap.2 ⟨sign, hescaped, hsign⟩)
  · rw [if_neg hescaped, List.mem_singleton] at hsign
    exact hescaped (hsign ▸ hc)

theorem not_mem_part {segments : List String} {part : List Char} (hpart : part ∈ parts segments) :
    '/' ∉ part ∧ '#' ∉ part ∧ '?' ∉ part := by
  rcases List.mem_cons.1 hpart with rfl | hsegment
  · exact ⟨List.not_mem_nil, List.not_mem_nil, List.not_mem_nil⟩
  · obtain ⟨segment, -, rfl⟩ := List.mem_map.1 hsegment
    exact ⟨not_mem_escape (by decide) (by decide) _, not_mem_escape (by decide) (by decide) _,
      not_mem_escape (by decide) (by decide) _⟩

/-- What is documented of a reader of targets: the segments of a path stand between its slashes and
are decoded but for the signs that have a meaning in a path. -/
structure Target.Documented (parse : String → Target) : Prop where
  path : ∀ text : String, '?' ∉ text.toList → '#' ∉ text.toList →
    (parse text).path = (pieces '/' text.toList).tail.map (decodeExcept pathSigns)

theorem Target.parse_documented : Target.Documented Target.parse where
  path := by
    intro text hquery hhash
    rw [Target.parse, cut_of_not_mem '#' _ hhash, cut_of_not_mem '?' _ hquery]

/-- Every list of segments can be asked for. -/
theorem path_targetOf {parse : String → Target} (hparse : Target.Documented parse)
    (segments : List String) :
    (parse (targetOf segments)).path =
      segments.map fun segment => String.ofList (escape pathSigns segment.toList) := by
  have hslash : pieces '/' (joinWith ['/'] (parts segments)) = parts segments :=
    pieces_joinWith '/' _ (List.cons_ne_nil _ _) fun part hpart => (not_mem_part hpart).1
  have hhash : '#' ∉ joinWith ['/'] (parts segments) :=
    not_mem_joinWith (by decide) fun part hpart => (not_mem_part hpart).2.1
  have hquery : '?' ∉ joinWith ['/'] (parts segments) :=
    not_mem_joinWith (by decide) fun part hpart => (not_mem_part hpart).2.2
  have hpath := hparse.path (targetOf segments)
  rw [targetOf, String.toList_ofList] at hpath
  rw [targetOf, hpath hquery hhash, hslash, parts, List.tail_cons, List.map_map]
  exact List.map_congr_left fun segment _ => decodeExcept_pathSigns segment.toList

end FloodGuard.Api
