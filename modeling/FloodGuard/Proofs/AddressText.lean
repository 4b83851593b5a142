import FloodGuard.Address.Text
import Mathlib.Data.List.Basic

/-!
Every address is read back from its text. A version 4 address is never taken for one of version 6
and the other way round, because only the text of the latter holds colons. The two colons of a
shortened text are the first ones in a row, since no group between the others is empty; what they
stand for are the groups of the longest run, all of them zero.
-/
namespace FloodGuard.Address

open Numeral Text Positional

theorem mapM_map_eq_some {α β : Type} {write : α → β} {read : β → Option α} {xs : List α}
    (h : ∀ x ∈ xs, read (write x) = some x) : (xs.map write).mapM read = some xs := by
  induction xs with
  | nil => rfl
  | cons x rest ih =>
    have hrest := ih fun y hy => h y (List.mem_cons_of_mem x hy)
    rw [List.map_cons, List.mapM_cons, h x List.mem_cons_self, hrest]
    rfl

theorem mapM_eq_none {α β : Type} {f : α → Option β} {xs : List α} {x : α} (hx : x ∈ xs)
    (h : f x = none) : xs.mapM f = none := by
  induction xs with
  | nil => simp at hx
  | cons y rest ih =>
    rw [List.mapM_cons]
    rcases List.mem_cons.1 hx with rfl | hrest
    · rw [h]
      rfl
    · rw [ih hrest]
      cases f y <;> rfl

theorem octet?_write {n : Nat} (h : n < 256) : octet? (write 10 n) = some n := by
  have hplain : ¬ ((write 10 n).head? = some '0' ∧ (write 10 n).length ≠ 1) := by
    rintro ⟨hzero, hlength⟩
    rw [head?_write 10 n (by decide) (by decide) hzero] at hlength
    exact hlength rfl
  rw [octet?, if_neg hplain, value?_write 10 n (by decide) (by decide)]
  simp [h]

theorem group?_write {n : Nat} (h : n < 65536) : group? (write 16 n) = some n := by
  rw [group?, if_pos (length_write_le 16 n 4 (by decide) (by decide) h),
    value?_write 16 n (by decide) (by decide)]

theorem pieces_joinWith_write {base : Nat} {separator : Char} {numbers : List Nat}
    (hone : 1 < base) (hb : base ≤ 16) (hc : digitValue separator = none) (hne : numbers ≠ []) :
    pieces separator (joinWith [separator] (numbers.map (write base))) =
      numbers.map (write base) := by
  refine pieces_joinWith separator _ (by simpa using hne) ?_
  simp only [List.forall_mem_map]
  exact fun n _ => not_mem_write hone hb hc

theorem mem_joinWith_write {base : Nat} {separator c : Char} {numbers : List Nat}
    (hone : 1 < base) (h : c ∈ joinWith [separator] (numbers.map (write base))) :
    c = separator ∨ ∃ d < base, c = d.digitChar := by
  rcases mem_joinWith h with hseparator | ⟨part, hpart, hc⟩
  · exact .inl (List.mem_singleton.1 hseparator)
  · obtain ⟨n, -, rfl⟩ := List.mem_map.1 hpart
    exact .inr (exists_digit_of_mem_write base n hone c hc)

theorem octets?_charsOfOctets {octets : List Nat} (hlength : octets.length = 4)
    (h : ∀ n ∈ octets, n < 256) : octets? (charsOfOctets octets) = some octets := by
  have hne : octets ≠ [] := by
    rintro rfl
    simp at hlength
  rw [octets?, charsOfOctets, pieces_joinWith_write (by decide) (by decide) (by decide) hne,
    mapM_map_eq_some fun n hn => octet?_write (h n hn)]
  simp [hlength]

/-- What holds a colon is no version 4 address. -/
theorem octets?_of_mem {text : List Char} (h : ':' ∈ text) : octets? text = none := by
  obtain ⟨piece, hpiece, hcolon⟩ := exists_piece_of_mem '.' h (by decide)
  have hnone : octet? piece = none := by
    rw [octet?, value?_of_mem hcolon (by decide)]
    split <;> rfl
  rw [octets?, mapM_eq_none hpiece hnone]
  rfl

theorem groups?_write {groups : List Nat} (h : ∀ n ∈ groups, n < 65536) :
    groups? (groups.map (write 16)) = some groups := by
  induction groups with
  | nil => rfl
  | cons n rest ih =>
    have hn := group?_write (h n List.mem_cons_self)
    have hrest := ih fun k hk => h k (List.mem_cons_of_mem n hk)
    cases rest with
    | nil => simp only [List.map_cons, List.map_nil, groups?, hn]
    | cons k more =>
      rw [List.map_cons] at hrest
      simp only [List.map_cons, groups?, hn, hrest, Option.bind_eq_bind, Option.bind_some]

/-- A text that follows one without colons is cut where it is cut itself. -/
theorem cutDouble_append {text : List Char} (h : ':' ∉ text) (rest : List Char) :
    cutDouble (text ++ rest) =
      (cutDouble rest).map fun halves => (text ++ halves.1, halves.2) := by
  induction text with
  | nil => simp
  | cons c more ih =>
    simp only [List.mem_cons, not_or] at h
    rw [List.cons_append, cutDouble, if_neg (fun hc => h.1 hc.1.symm), ih h.2, Option.map_map]
    rfl

/-- A colon in front of something else is not one of two. -/
theorem cutDouble_colon {rest : List Char} (h : rest.head? ≠ some ':') :
    cutDouble (':' :: rest) = (cutDouble rest).map fun halves => (':' :: halves.1, halves.2) := by
  rw [cutDouble, if_neg fun hc => h hc.2]

/-- Whether a text can stand between colons. -/
def IsPart (part : List Char) : Prop := part ≠ [] ∧ ':' ∉ part

theorem isPart_write (n : Nat) : IsPart (write 16 n) :=
  ⟨write_ne_nil 16 n, not_mem_write (by decide) (by decide) (by decide)⟩

theorem head?_joinWith_append (separator : List Char) {first : List Char} (hne : first ≠ [])
    (others : List (List Char)) (rest : List Char) :
    (joinWith separator (first :: others) ++ rest).head? = first.head? := by
  cases first with
  | nil => exact absurd rfl hne
  | cons c more => cases others <;> rfl

/-- Between parts there are no two colons in a row. -/
theorem cutDouble_joinWith_append {parts : List (List Char)} (h : ∀ part ∈ parts, IsPart part)
    (hne : parts ≠ []) (rest : List Char) :
    cutDouble (joinWith [':'] parts ++ rest) =
      (cutDouble rest).map fun halves => (joinWith [':'] parts ++ halves.1, halves.2) := by
  induction parts with
  | nil => exact absurd rfl hne
  | cons first others ih =>
    have hfirst := (h first List.mem_cons_self).2
    cases others with
    | nil => exact cutDouble_append hfirst rest
    | cons second more =>
      have hothers := ih (fun part hpart => h part (List.mem_cons_of_mem first hpart)) (by simp)
      have hsecond : IsPart second := h second (by simp)
      -- What follows the colon behind the first part is the second part, which does not start with
      -- another colon.
      have hhead : (joinWith [':'] (second :: more) ++ rest).head? ≠ some ':' := by
        rw [head?_joinWith_append [':'] hsecond.1]
        exact fun hcolon => hsecond.2 (List.mem_of_head? hcolon)
      rw [joinWith, List.append_assoc, List.append_assoc, cutDouble_append hfirst,
        List.singleton_append, cutDouble_colon hhead, hothers, Option.map_map, Option.map_map]
      cases cutDouble rest <;> simp

section

variable {groups : List Nat}

theorem forall_isPart_write (groups : List Nat) :
    ∀ part ∈ groups.map (write 16), IsPart part := by
  simp only [List.forall_mem_map]
  exact fun n _ => isPart_write n

/-- Groups that stand on their own are not cut. -/
theorem cutDouble_charsOfGroups (groups : List Nat) : cutDouble (charsOfGroups groups) = none := by
  cases groups with
  | nil => rfl
  | cons n rest =>
    have hcut := cutDouble_joinWith_append (forall_isPart_write (n :: rest)) (by simp) []
    rw [List.append_nil] at hcut
    exact hcut

/-- Groups in front of two colons are cut off there. -/
theorem cutDouble_double (groups : List Nat) (back : List Char) :
    cutDouble (charsOfGroups groups ++ ':' :: ':' :: back) =
      some (charsOfGroups groups, back) := by
  have hdouble : cutDouble (':' :: ':' :: back) = some ([], back) := by simp [cutDouble]
  cases groups with
  | nil => exact hdouble
  | cons n rest =>
    rw [charsOfGroups, cutDouble_joinWith_append (forall_isPart_write (n :: rest)) (by simp),
      hdouble]
    simp

theorem charsOfGroups_isEmpty (hne : groups ≠ []) : (charsOfGroups groups).isEmpty = false := by
  cases groups with
  | nil => exact absurd rfl hne
  | cons n rest =>
    have hhead := head?_joinWith_append [':'] (write_ne_nil 16 n) (rest.map (write 16)) []
    rw [List.append_nil] at hhead
    rw [charsOfGroups, List.map_cons, List.isEmpty_eq_false_iff]
    intro hnil
    rw [hnil] at hhead
    exact write_ne_nil 16 n (List.head?_eq_none_iff.1 hhead.symm)

theorem pieces_charsOfGroups (hne : groups ≠ []) :
    pieces ':' (charsOfGroups groups) = groups.map (write 16) :=
  pieces_joinWith_write (by decide) (by decide) (by decide) hne

/-- What a reader of the groups on one side of two colons gets. -/
theorem side_charsOfGroups (read : List (List Char) → Option (List Nat))
    (hread : read (groups.map (write 16)) = some groups) :
    (if (charsOfGroups groups).isEmpty then some []
      else read (pieces ':' (charsOfGroups groups))) = some groups := by
  by_cases hnil : groups = []
  · subst hnil
    rfl
  · rw [charsOfGroups_isEmpty hnil, pieces_charsOfGroups hnil, hread]
    rfl

end

theorem replicate_leadingZeros (groups : List Nat) :
    List.replicate (leadingZeros groups) 0 ++ groups.drop (leadingZeros groups) = groups := by
  induction groups with
  | nil => rfl
  | cons n rest ih =>
    by_cases hn : n = 0
    · subst hn
      exact congrArg (0 :: ·) ih
    · simp [leadingZeros, hn]

/-- The longest run is one of zeros. -/
theorem longestRun_eq (groups : List Nat) :
    groups.take (longestRun groups).1 ++ List.replicate (longestRun groups).2 0 ++
      groups.drop ((longestRun groups).1 + (longestRun groups).2) = groups := by
  induction groups with
  | nil => rfl
  | cons n rest ih =>
    simp only [longestRun]
    split
    · rw [List.take_zero, List.nil_append, Nat.zero_add]
      exact replicate_leadingZeros (n :: rest)
    · rw [Nat.add_right_comm]
      exact congrArg (n :: ·) ih

/-- What two colons stand for, from the groups on both sides of them. -/
theorem allGroups?_of_cutDouble {text front back : List Char} {head tail : List Nat}
    (hcut : cutDouble text = some (front, back))
    (hhead : (if front.isEmpty then some [] else (pieces ':' front).mapM group?) = some head)
    (htail : (if back.isEmpty then some [] else groups? (pieces ':' back)) = some tail) :
    allGroups? text =
      if head.length + tail.length < 8 then
        some (head ++ List.replicate (8 - head.length - tail.length) 0 ++ tail)
      else none := by
  rw [allGroups?, hcut]
  by_cases hfront : front.isEmpty <;> by_cases hback : back.isEmpty
  all_goals simp only [hfront, hback, if_true, if_false, Bool.false_eq_true] at hhead htail ⊢
  · cases hhead
    cases htail
    rfl
  · cases hhead
    simp only [htail, Option.bind_eq_bind, Option.bind_some]
  · cases htail
    simp only [hhead, Option.bind_eq_bind, Option.bind_some]
  · simp only [hhead, htail, Option.bind_eq_bind, Option.bind_some]

/-- Two colons stand for the zeros that are missing. -/
theorem allGroups?_double (back : List Char) {front tail : List Nat} {zeros : Nat}
    (hfront : ∀ n ∈ front, n < 65536)
    (hback : (if back.isEmpty then some [] else groups? (pieces ':' back)) = some tail)
    (hlength : front.length + zeros + tail.length = 8) (hzeros : 0 < zeros) :
    allGroups? (charsOfGroups front ++ ':' :: ':' :: back) =
      some (front ++ List.replicate zeros 0 ++ tail) := by
  have hread := side_charsOfGroups (fun parts => parts.mapM group?)
    (mapM_map_eq_some fun n hn => group?_write (hfront n hn))
  have hmissing : 8 - front.length - tail.length = zeros := by omega
  rw [allGroups?_of_cutDouble (cutDouble_double front back) hread hback, if_pos (by omega),
    hmissing]

/-- Eight groups are read back from their text. -/
theorem allGroups?_shortened {groups : List Nat} (hlength : groups.length = 8)
    (h : ∀ n ∈ groups, n < 65536) : allGroups? (shortened groups) = some groups := by
  have hrun := longestRun_eq groups
  have hparts := congrArg List.length hrun
  rw [List.length_append, List.length_append, List.length_replicate, hlength] at hparts
  rw [shortened]
  split
  · rename_i hlong
    rw [List.append_assoc, List.cons_append, List.singleton_append,
      allGroups?_double _ (fun n hn => h n (List.mem_of_mem_take hn))
        (side_charsOfGroups groups? (groups?_write fun n hn => h n (List.mem_of_mem_drop hn)))
        hparts (by omega), hrun]
  · have hne : groups ≠ [] := by
      rintro rfl
      simp at hlength
    rw [allGroups?, cutDouble_charsOfGroups, pieces_charsOfGroups hne, groups?_write h]
    simp [hlength]

theorem not_mem_charsOfOctets (octets : List Nat) : ':' ∉ charsOfOctets octets := by
  intro h
  have hdigit : ∀ d < 10, ':' ≠ d.digitChar := by decide
  obtain hdot | ⟨d, hd, hc⟩ := mem_joinWith_write (by decide) h
  · exact absurd hdot (by decide)
  · exact hdigit d hd hc

/-- Four octets are no group, since they hold dots. -/
theorem group?_charsOfOctets {octets : List Nat} (hlength : octets.length = 4) :
    group? (charsOfOctets octets) = none := by
  have hdot : '.' ∈ charsOfOctets octets := by
    match octets, hlength with
    | [_, _, _, _], _ => simp [charsOfOctets, joinWith]
  rw [group?, value?_of_mem hdot (by decide)]
  split <;> rfl

/-- The text of an address that carries a version 4 address is read back. -/
theorem allGroups?_mapped {octets : List Nat} (hlength : octets.length = 4)
    (h : ∀ n ∈ octets, n < 256) :
    allGroups? (':' :: ':' :: 'f' :: 'f' :: 'f' :: 'f' :: ':' :: charsOfOctets octets) =
      some (List.replicate 5 0 ++ 0xFFFF :: split 65536 2 (join 256 octets)) := by
  have hpieces : pieces ':' ('f' :: 'f' :: 'f' :: 'f' :: ':' :: charsOfOctets octets) =
      [['f', 'f', 'f', 'f'], charsOfOctets octets] := by
    have hcut := pieces_append ':' ['f', 'f', 'f', 'f'] (charsOfOctets octets) (by decide)
    rw [pieces_of_not_mem ':' _ (not_mem_charsOfOctets octets)] at hcut
    exact hcut
  have hmark : group? ['f', 'f', 'f', 'f'] = some 0xFFFF := by decide
  have hback : groups? (pieces ':' ('f' :: 'f' :: 'f' :: 'f' :: ':' :: charsOfOctets octets)) =
      some (0xFFFF :: split 65536 2 (join 256 octets)) := by
    simp only [hpieces, groups?, hmark, group?_charsOfOctets hlength,
      octets?_charsOfOctets hlength h, Option.map_some, Option.bind_eq_bind, Option.bind_some]
  have htail : (0xFFFF :: split 65536 2 (join 256 octets)).length = 3 := by simp
  exact allGroups?_double ('f' :: 'f' :: 'f' :: 'f' :: ':' :: charsOfOctets octets)
    (List.forall_mem_nil _) hback (by rw [htail]; rfl) (Nat.succ_pos 4)

theorem bits_of_groups (a : BitVec 128) : BitVec.ofNat 128 (join 65536 (groups a)) = a := by
  rw [groups, join_split, Nat.mod_eq_of_lt a.isLt, BitVec.ofNat_toNat, BitVec.setWidth_eq]

theorem bits_of_octets (a : BitVec 32) : BitVec.ofNat 32 (join 256 (octets a)) = a := by
  rw [octets, join_split, Nat.mod_eq_of_lt a.isLt, BitVec.ofNat_toNat, BitVec.setWidth_eq]

/-- The version 4 address that groups carry, and the groups that it comes from. -/
theorem of_mapped?_eq_some {gs tail : List Nat} (hlength : gs.length = 8)
    (h : ∀ n ∈ gs, n < 65536) (hmapped : mapped? gs = some tail) :
    tail.length = 4 ∧ (∀ n ∈ tail, n < 256) ∧
      List.replicate 5 0 ++ 0xFFFF :: split 65536 2 (join 256 tail) = gs := by
  rw [mapped?] at hmapped
  split at hmapped
  · rename_i hfront
    cases hmapped
    refine ⟨length_split _ _ _, split_lt _ _ _ (by decide), ?_⟩
    have hlast : ∀ n ∈ gs.drop 6, n < 65536 := fun n hn => h n (List.mem_of_mem_drop hn)
    have hcount : (gs.drop 6).length = 2 := by rw [List.length_drop, hlength]
    have hbound := join_lt 65536 (gs.drop 6) (by decide) hlast
    have hsplit := split_join 65536 (gs.drop 6) hlast
    have hwhole := List.take_append_drop 6 gs
    rw [hcount] at hbound hsplit
    rw [hfront] at hwhole
    -- Two groups are as many bits as four octets, so nothing is cut off.
    rw [join_split, Nat.mod_eq_of_lt hbound, hsplit]
    exact hwhole
  · cases hmapped

theorem allGroups?_chars (a : BitVec 128) : allGroups? (chars (.v6 a)) = some (groups a) := by
  have hlength : (groups a).length = 8 := length_split 65536 8 a.toNat
  have hlt : ∀ n ∈ groups a, n < 65536 := split_lt 65536 8 a.toNat (by decide)
  rw [chars]
  split
  · rename_i tail hmapped
    obtain ⟨hcount, hoctets, hgroups⟩ := of_mapped?_eq_some hlength hlt hmapped
    rw [allGroups?_mapped hcount hoctets, hgroups]
  · exact allGroups?_shortened hlength hlt

/-- Groups are at least two, or some of them are shortened, so there is a colon. -/
theorem mem_shortened {gs : List Nat} (hlength : gs.length = 8) : ':' ∈ shortened gs := by
  rw [shortened]
  split
  · simp
  · match gs, hlength with
    | _ :: _ :: _, _ => simp [charsOfGroups, joinWith]

theorem mem_chars_v6 (a : BitVec 128) : ':' ∈ chars (.v6 a) := by
  rw [chars]
  split
  · exact List.mem_cons_self
  · exact mem_shortened (length_split 65536 8 a.toNat)

/-- An address is read back from its text. -/
theorem ofChars?_chars (a : Address) : ofChars? a.chars = some a := by
  cases a with
  | v4 a =>
    have hread : octets? (chars (.v4 a)) = some (octets a) :=
      octets?_charsOfOctets (length_split 256 4 a.toNat) (split_lt 256 4 a.toNat (by decide))
    rw [ofChars?, v4?, hread, Option.map_some, bits_of_octets, Option.some_or]
  | v6 a =>
    rw [ofChars?, v4?, octets?_of_mem (mem_chars_v6 a), v6?, allGroups?_chars, Option.map_some,
      bits_of_groups, Option.map_none, Option.none_or]

/-- The signs that the text of an address is made of. -/
def IsSign (c : Char) : Prop := c = '.' ∨ c = ':' ∨ ∃ d < 16, c = d.digitChar

/-- What holds of the separators and of every digit holds of every sign. -/
theorem IsSign.imp {p : Char → Prop} {c : Char} (h : IsSign c) (hdot : p '.') (hcolon : p ':')
    (hdigit : ∀ d < 16, p d.digitChar) : p c := by
  obtain rfl | rfl | ⟨d, hd, rfl⟩ := h
  · exact hdot
  · exact hcolon
  · exact hdigit d hd

theorem isSign_of_mem_charsOfOctets {octets : List Nat} {c : Char} (h : c ∈ charsOfOctets octets) :
    IsSign c := by
  obtain hdot | ⟨d, hd, hc⟩ := mem_joinWith_write (by decide) h
  · exact .inl hdot
  · exact .inr (.inr ⟨d, by omega, hc⟩)

theorem isSign_of_mem_charsOfGroups {groups : List Nat} {c : Char} (h : c ∈ charsOfGroups groups) :
    IsSign c := .inr (mem_joinWith_write (by decide) h)

theorem isSign_of_mem_chars {a : Address} {c : Char} (h : c ∈ a.chars) : IsSign c := by
  cases a with
  | v4 a => exact isSign_of_mem_charsOfOctets h
  | v6 a =>
    rw [chars] at h
    split at h
    · rename_i tail _
      have hcolon : IsSign ':' := .inr (.inl rfl)
      have hdigit : IsSign 'f' := .inr (.inr ⟨15, by decide, rfl⟩)
      have hmark : ∀ d ∈ [':', ':', 'f', 'f', 'f', 'f', ':'], IsSign d := by
        simp [hcolon, hdigit]
      have hparts : c ∈ [':', ':', 'f', 'f', 'f', 'f', ':'] ++ charsOfOctets tail := h
      rcases List.mem_append.1 hparts with hfront | hback
      · exact hmark c hfront
      · exact isSign_of_mem_charsOfOctets hback
    · rw [shortened] at h
      split at h
      · simp only [List.mem_append] at h
        rcases h with (hfront | hcolons) | hback
        · exact isSign_of_mem_charsOfGroups hfront
        · exact .inr (.inl (by simpa using hcolons))
        · exact isSign_of_mem_charsOfGroups hback
      · exact isSign_of_mem_charsOfGroups h

theorem chars_ne_nil (a : Address) : a.chars ≠ [] := by
  intro hnil
  have hempty : ofChars? [] = none := by decide
  have hread := ofChars?_chars a
  rw [hnil, hempty] at hread
  cases hread

theorem parse?_text (a : Address) : parse? a.text = some a := by
  rw [parse?, text, String.toList_ofList, ofChars?_chars]

end FloodGuard.Address
