/-!
Cutting a text at a separating character, once or at every occurrence. The main statements say that
putting the pieces back together gives the text, and that pieces without the separator survive the
trip.
-/
namespace FloodGuard.Text

/-- The text before the first separator and, if there is a separator, the text after it. -/
def cut (separator : Char) : List Char → List Char × Option (List Char)
  | [] => ([], none)
  | c :: rest =>
    if c = separator then ([], some rest)
    else ((c :: (cut separator rest).1), (cut separator rest).2)

/-- The pieces between the separators, one more than there are separators. -/
def pieces (separator : Char) : List Char → List (List Char)
  | [] => [[]]
  | c :: rest =>
    if c = separator then [] :: pieces separator rest
    else match pieces separator rest with
      | [] => [[c]]
      | first :: others => (c :: first) :: others

/-- The texts with the separator between any two of them. -/
def joinWith (separator : List Char) : List (List Char) → List Char
  | [] => []
  | [only] => only
  | first :: second :: rest => first ++ separator ++ joinWith separator (second :: rest)

theorem joinWith_cons (separator first : List Char) (rest : List (List Char)) :
    joinWith separator (first :: rest) = first ++ rest.flatMap (separator ++ ·) := by
  induction rest generalizing first with
  | nil => exact (List.append_nil first).symm
  | cons second others ih =>
    rw [joinWith, ih, List.flatMap_cons, List.append_assoc, List.append_assoc]

theorem cut_append (separator : Char) (before after : List Char) (h : separator ∉ before) :
    cut separator (before ++ separator :: after) = (before, some after) := by
  induction before with
  | nil => simp [cut]
  | cons c rest ih =>
    simp only [List.mem_cons, not_or] at h
    simp [cut, Ne.symm h.1, ih h.2]

theorem cut_of_not_mem (separator : Char) (text : List Char) (h : separator ∉ text) :
    cut separator text = (text, none) := by
  induction text with
  | nil => rfl
  | cons c rest ih =>
    simp only [List.mem_cons, not_or] at h
    simp [cut, Ne.symm h.1, ih h.2]

theorem pieces_ne_nil (separator : Char) (text : List Char) : pieces separator text ≠ [] := by
  cases text with
  | nil => simp [pieces]
  | cons c rest =>
    simp only [pieces]
    split
    · simp
    · split <;> simp

theorem pieces_of_not_mem (separator : Char) (text : List Char) (h : separator ∉ text) :
    pieces separator text = [text] := by
  induction text with
  | nil => rfl
  | cons c rest ih =>
    simp only [List.mem_cons, not_or] at h
    simp [pieces, Ne.symm h.1, ih h.2]

theorem pieces_append (separator : Char) (first rest : List Char) (h : separator ∉ first) :
    pieces separator (first ++ separator :: rest) = first :: pieces separator rest := by
  induction first with
  | nil => simp [pieces]
  | cons c tail ih =>
    simp only [List.mem_cons, not_or] at h
    simp [pieces, Ne.symm h.1, ih h.2]

/-- Cutting what was joined gives the parts, when no part holds the separator. -/
theorem pieces_joinWith (separator : Char) (parts : List (List Char)) (hne : parts ≠ [])
    (h : ∀ part ∈ parts, separator ∉ part) :
    pieces separator (joinWith [separator] parts) = parts := by
  induction parts with
  | nil => exact absurd rfl hne
  | cons first rest ih =>
    cases rest with
    | nil => exact pieces_of_not_mem separator first (h first (List.mem_singleton_self first))
    | cons second others =>
      have htail := ih (by simp) (fun part hpart => h part (List.mem_cons_of_mem first hpart))
      rw [joinWith, List.append_assoc, List.singleton_append,
        pieces_append separator first _ (h first List.mem_cons_self), htail]

theorem joinWith_concat (separator : List Char) {parts : List (List Char)} (hne : parts ≠ [])
    (last : List Char) :
    joinWith separator (parts ++ [last]) = joinWith separator parts ++ (separator ++ last) := by
  induction parts with
  | nil => exact absurd rfl hne
  | cons first rest ih =>
    cases rest with
    | nil => exact List.append_assoc first separator last
    | cons second others =>
      have htail := ih (by simp)
      rw [List.cons_append] at htail
      simp only [List.cons_append, joinWith, htail, List.append_assoc]

theorem mem_joinWith {separator : List Char} {parts : List (List Char)} {c : Char} :
    c ∈ joinWith separator parts → c ∈ separator ∨ ∃ part ∈ parts, c ∈ part := by
  induction parts with
  | nil => simp [joinWith]
  | cons first rest ih =>
    intro h
    cases rest with
    | nil => exact .inr ⟨first, List.mem_cons_self, h⟩
    | cons second others =>
      rw [joinWith, List.mem_append, List.mem_append] at h
      rcases h with (hfirst | hseparator) | hrest
      · exact .inr ⟨first, List.mem_cons_self, hfirst⟩
      · exact .inl hseparator
      · obtain hseparator | ⟨part, hpart, hc⟩ := ih hrest
        · exact .inl hseparator
        · exact .inr ⟨part, List.mem_cons_of_mem first hpart, hc⟩

theorem not_mem_joinWith {separator : List Char} {parts : List (List Char)} {c : Char}
    (hseparator : c ∉ separator) (hparts : ∀ part ∈ parts, c ∉ part) :
    c ∉ joinWith separator parts := by
  intro h
  rcases mem_joinWith h with hmem | ⟨part, hpart, hmem⟩
  · exact hseparator hmem
  · exact hparts part hpart hmem

/-- Every sign of a text is a separator or in one of the pieces. -/
theorem exists_piece_of_mem (separator : Char) {text : List Char} {c : Char} (hc : c ∈ text)
    (hne : c ≠ separator) : ∃ piece ∈ pieces separator text, c ∈ piece := by
  induction text with
  | nil => simp at hc
  | cons d rest ih =>
    rw [pieces]
    split
    · rename_i hd
      obtain ⟨piece, hpiece, hmem⟩ := ih ((List.mem_cons.1 hc).resolve_left (hd ▸ hne))
      exact ⟨piece, List.mem_cons_of_mem [] hpiece, hmem⟩
    · split
      · rename_i hnil
        exact absurd hnil (pieces_ne_nil separator rest)
      · rename_i first others hcons
        rcases List.mem_cons.1 hc with rfl | hrest
        · exact ⟨c :: first, List.mem_cons_self, List.mem_cons_self⟩
        · obtain ⟨piece, hpiece, hmem⟩ := ih hrest
          rw [hcons] at hpiece
          rcases List.mem_cons.1 hpiece with rfl | hother
          · exact ⟨d :: piece, List.mem_cons_self, List.mem_cons_of_mem d hmem⟩
          · exact ⟨piece, List.mem_cons_of_mem _ hother, hmem⟩

section Runs

variable {p : Char → Bool} {run rest : List Char} (hrun : ∀ c ∈ run, p c = true)
  (hrest : ∀ c, rest.head? = some c → p c = false)

include hrun hrest

/-- A run ends where a sign comes that is not of its kind. -/
theorem takeWhile_run : (run ++ rest).takeWhile p = run := by
  rw [List.takeWhile_append_of_pos hrun]
  cases rest with
  | nil => exact List.append_nil run
  | cons c rest => rw [List.takeWhile_cons_of_neg (by simp [hrest c rfl]), List.append_nil]

theorem dropWhile_run : (run ++ rest).dropWhile p = rest := by
  rw [List.dropWhile_append_of_pos hrun]
  cases rest with
  | nil => rfl
  | cons c rest => exact List.dropWhile_cons_of_neg (by simp [hrest c rfl])

end Runs

end FloodGuard.Text
