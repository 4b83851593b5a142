/-!
Blank characters, as the Unicode property White_Space lists them, and the removal of blanks around a
text.
-/
namespace FloodGuard.Text

/-- The ranges of code points that are blank. -/
def blankRanges : List (Nat × Nat) :=
  [(0x09, 0x0D), (0x20, 0x20), (0x85, 0x85), (0xA0, 0xA0), (0x1680, 0x1680), (0x2000, 0x200A),
    (0x2028, 0x2029), (0x202F, 0x202F), (0x205F, 0x205F), (0x3000, 0x3000)]

def isBlank (c : Char) : Bool :=
  blankRanges.any fun range => range.1 ≤ c.toNat && c.toNat ≤ range.2

/-- The text without the blanks at its two ends. -/
def trim (text : List Char) : List Char :=
  ((text.dropWhile isBlank).reverse.dropWhile isBlank).reverse

theorem dropWhile_isBlank_append {blanks text : List Char} (h : ∀ c ∈ blanks, isBlank c = true)
    (hne : text ≠ []) (htext : ∀ c ∈ text, isBlank c = false) (rest : List Char) :
    (blanks ++ (text ++ rest)).dropWhile isBlank = text ++ rest := by
  rw [List.dropWhile_append_of_pos h]
  cases text with
  | nil => exact absurd rfl hne
  | cons c more =>
    rw [List.cons_append, List.dropWhile_cons_of_neg]
    simp [htext c List.mem_cons_self]

/-- Blanks around a text without blanks are removed. -/
theorem trim_append {before text after : List Char} (hbefore : ∀ c ∈ before, isBlank c = true)
    (hafter : ∀ c ∈ after, isBlank c = true) (hne : text ≠ [])
    (htext : ∀ c ∈ text, isBlank c = false) : trim (before ++ text ++ after) = text := by
  have hreversed : (after.reverse ++ (text.reverse ++ [])).dropWhile isBlank = text.reverse ++ [] :=
    dropWhile_isBlank_append (by simpa using hafter) (by simpa using hne) (by simpa using htext) []
  rw [List.append_nil] at hreversed
  rw [trim, List.append_assoc, dropWhile_isBlank_append hbefore hne htext, List.reverse_append,
    hreversed, List.reverse_reverse]

end FloodGuard.Text
