import FloodGuard.Proofs.DistinctNames
import FloodGuard.Proofs.JsonTokens

/-!
Writing a value and reading it again. A value can be written if its numbers are whole and fit in 64
bits, the names in its objects differ and its nesting stays within the limit. The main statement is
that the text of such a value is read as the value. This is also what is relied on of any other way
to write values and to read them.
-/
namespace FloodGuard.Json

/-- Whether a value of at most so many levels of arrays and objects is given back by its text. -/
inductive Writable : Nat → Json → Prop
  | null (levels : Nat) : Writable levels .null
  | bool (levels : Nat) (b : Bool) : Writable levels (.bool b)
  | int (levels : Nat) {n : Int} (hfits : Fits64 n) : Writable levels (.int n)
  | str (levels : Nat) (s : String) : Writable levels (.str s)
  | arr {levels : Nat} {items : List Json} (hitems : ∀ item ∈ items, Writable levels item) :
      Writable (levels + 1) (.arr items)
  | obj {levels : Nat} {members : List (String × Json)} (hnames : (members.map Prod.fst).Nodup)
      (hmembers : ∀ member ∈ members, Writable levels member.2) :
      Writable (levels + 1) (.obj members)

/-- Whether a text in front of another is cut into some tokens. -/
def CutsInto (chars : List Char) (tokens : List Token) : Prop :=
  ∀ rest more, Closed rest → ScansTo rest more → ScansTo (chars ++ rest) (tokens ++ more)

/-- Whether tokens give a value wherever one may come, with room for so many levels. -/
def Gives (levels : Nat) (tokens : List Token) (value : Json) : Prop :=
  ∀ r : Reading, (r.expected = .value ∨ r.expected = .firstItem) →
    r.stack.length + levels ≤ nestingLimit → tokens.foldlM Reading.step r = r.finish value

/-- Whether a value is read where it is written. -/
def ReadBack (levels : Nat) (value : Json) : Prop :=
  ∃ tokens, CutsInto value.chars tokens ∧ Gives levels tokens value

section Leaves

theorem gives_leaf (levels : Nat) (leaf : Json) : Gives levels [.value leaf] leaf := by
  intro r hexpected _
  have hstep : r.step (.value leaf) = r.finish leaf := by
    rcases hexpected with h | h <;> simp only [Reading.step, h]
  rw [List.foldlM_cons, hstep]
  cases r.finish leaf <;> rfl

theorem readBack_word {value : Json} (hmem : (value.chars, value) ∈ words) (levels : Nat) :
    ReadBack levels value :=
  ⟨[.value value], fun _ _ _ h => scansTo_word hmem h, gives_leaf levels value⟩

theorem readBack_string (s : String) (levels : Nat) : ReadBack levels (.str s) := by
  refine ⟨[.value (.str s)], ?_, gives_leaf levels (.str s)⟩
  intro rest more _ h
  rw [chars]
  exact scansTo_string s h

theorem readBack_int {n : Int} (hfits : Fits64 n) (levels : Nat) :
    ReadBack levels (.int n) := by
  refine ⟨[.value (.int n)], ?_, gives_leaf levels (.int n)⟩
  intro rest more hclosed h
  rw [chars]
  exact scansTo_signed hfits h hclosed

end Leaves

theorem charsOfItems_eq (items : List Json) : charsOfItems items = items.map chars := by
  induction items with
  | nil => rfl
  | cons item rest ih => rw [charsOfItems, ih, List.map_cons]

/-- A member as it is written. -/
def charsOfMember (member : String × Json) : List Char :=
  charsOfString member.1 ++ ':' :: member.2.chars

theorem charsOfMembers_eq (members : List (String × Json)) :
    charsOfMembers members = members.map charsOfMember := by
  induction members with
  | nil => rfl
  | cons member rest ih => rw [charsOfMembers, ih, List.map_cons, charsOfMember]

theorem closed_arr (rest : List Char) : Closed (']' :: rest) := by
  rintro c ⟨⟩
  decide

theorem closed_obj (rest : List Char) : Closed ('\x7d' :: rest) := by
  rintro c ⟨⟩
  decide

theorem CutsInto.nil : CutsInto [] [] := fun _ _ _ h => h

/-- Texts one after another are cut one after another, where the first one ends. -/
theorem CutsInto.append {first second : List Char} {firsts seconds : List Token}
    (h : CutsInto first firsts) (hsecond : CutsInto second seconds)
    (hclosed : ∀ rest, Closed rest → Closed (second ++ rest)) :
    CutsInto (first ++ second) (firsts ++ seconds) := by
  intro rest more hrest hmore
  rw [List.append_assoc, List.append_assoc]
  exact h _ _ (hclosed rest hrest) (hsecond rest more hrest hmore)

theorem CutsInto.cons {c : Char} {token : Token} (hmem : (c, token) ∈ punctuation)
    {chars : List Char} {tokens : List Token} (h : CutsInto chars tokens) :
    CutsInto (c :: chars) (token :: tokens) :=
  fun rest more hrest hmore => scansTo_punctuation hmem (h rest more hrest hmore)

theorem closed_flatMap_comma {α : Type} (write : α → List Char) (entries : List α)
    {rest : List Char} (h : Closed rest) :
    Closed (entries.flatMap (fun entry => [','] ++ write entry) ++ rest) := by
  cases entries with
  | nil => exact h
  | cons entry others =>
    rintro c ⟨⟩
    decide

/-- A reading inside a container, behind one of its entries. -/
def Reading.within (r : Reading) (container : Open) : Reading :=
  { r with stack := container :: r.stack, expected := .separator }

/-- A value is finished alike whatever else might have come. -/
theorem Reading.finish_expected (r : Reading) (expected : Expected) (value : Json) :
    ({ r with expected } : Reading).finish value = r.finish value := by
  unfold Reading.finish
  cases r.stack with
  | nil => rfl
  | cons container rest =>
    cases container with
    | arr items => rfl
    | obj members name => cases name <;> rfl

section Items

variable {levels : Nat}

/-- Items behind an item of an array. -/
theorem readBack_items {items : List Json} (h : ∀ item ∈ items, ReadBack levels item) :
    ∃ tokens, CutsInto (items.flatMap fun item => [','] ++ item.chars) tokens ∧
      ∀ (r : Reading) (before : List Json), r.stack.length + (levels + 1) ≤ nestingLimit →
        tokens.foldlM Reading.step (r.within (.arr before)) =
          some (r.within (.arr (before ++ items))) := by
  induction items with
  | nil =>
    refine ⟨[], CutsInto.nil, ?_⟩
    intro r before _
    rw [List.append_nil]
    rfl
  | cons item rest ih =>
    obtain ⟨hitem, hrest⟩ := List.forall_mem_cons.1 h
    obtain ⟨tokens, hcut, hgives⟩ := hitem
    obtain ⟨others, hcuts, hothers⟩ := ih hrest
    refine ⟨.comma :: (tokens ++ others), ?_, ?_⟩
    · rw [List.flatMap_cons, List.append_assoc]
      exact .cons (by simp [punctuation])
        (hcut.append hcuts fun _ hclosed => closed_flatMap_comma chars rest hclosed)
    · intro r before hroom
      have hcomma : (r.within (.arr before)).step .comma =
          some { r.within (.arr before) with expected := .value } := rfl
      have hfirst := hgives { r.within (.arr before) with expected := .value } (.inl rfl)
        (by simp only [Reading.within, List.length_cons]; omega)
      rw [List.foldlM_cons, hcomma, Option.bind_eq_bind, Option.bind_some, List.foldlM_append,
        hfirst]
      show others.foldlM Reading.step (r.within (.arr (before ++ [item]))) = _
      rw [hothers r _ hroom, List.append_assoc, List.singleton_append]

theorem step_openArr {r : Reading} (hexpected : r.expected = .value ∨ r.expected = .firstItem)
    (hroom : r.stack.length < nestingLimit) :
    r.step .openArr = some { r with stack := .arr [] :: r.stack, expected := .firstItem } := by
  have hdescend : r.step .openArr = r.descend (.arr []) .firstItem := by
    rcases hexpected with h | h <;> simp only [Reading.step, h]
  rw [hdescend, Reading.descend, if_pos hroom]

theorem readBack_arr {items : List Json} (h : ∀ item ∈ items, ReadBack levels item) :
    ReadBack (levels + 1) (.arr items) := by
  cases items with
  | nil =>
    refine ⟨[.openArr, .closeArr], ?_, ?_⟩
    · exact .cons (by simp [punctuation]) (.cons (by simp [punctuation]) .nil)
    · intro r hexpected hroom
      rw [List.foldlM_cons, step_openArr hexpected (by omega), Option.bind_eq_bind,
        Option.bind_some, List.foldlM_cons]
      show (({ r with expected := .firstItem } : Reading).finish (.arr [])).bind some = _
      rw [Reading.finish_expected, Option.bind_fun_some]
  | cons first rest =>
    obtain ⟨hfirst, hrest⟩ := List.forall_mem_cons.1 h
    obtain ⟨tokens, hcut, hgives⟩ := hfirst
    obtain ⟨others, hcuts, hothers⟩ := readBack_items hrest
    refine ⟨.openArr :: (tokens ++ others ++ [.closeArr]), ?_, ?_⟩
    · rw [chars, charsOfItems_eq, List.map_cons, Text.joinWith_cons, List.flatMap_map]
      refine .cons (by simp [punctuation]) (.append (hcut.append hcuts ?_) ?_ ?_)
      · exact fun _ hclosed => closed_flatMap_comma chars rest hclosed
      · exact .cons (by simp [punctuation]) .nil
      · exact fun rest _ => closed_arr rest
    · intro r hexpected hroom
      have hinside := hgives { r with stack := .arr [] :: r.stack, expected := .firstItem }
        (.inr rfl) (by simp only [List.length_cons]; omega)
      rw [List.foldlM_cons, step_openArr hexpected (by omega), Option.bind_eq_bind,
        Option.bind_some, List.foldlM_append, List.foldlM_append, hinside]
      show ((others.foldlM Reading.step (r.within (.arr [first]))).bind _) = _
      rw [hothers r _ hroom, Option.bind_some, List.foldlM_cons]
      show (({ r with expected := .separator } : Reading).finish (.arr (first :: rest))).bind
        some = _
      rw [Reading.finish_expected, Option.bind_fun_some]

end Items

section Members

variable {levels : Nat}

theorem put_new {name : String} {value : Json} {members : List (String × Json)}
    (h : name ∉ members.map Prod.fst) : put name value members = members ++ [(name, value)] := by
  have hkept : members.filter (fun member => member.1 ≠ name) = members := by
    refine List.filter_eq_self.2 fun member hmember => decide_eq_true ?_
    rintro rfl
    exact h (List.mem_map_of_mem hmember)
  rw [put, hkept]

/-- A member of an object, where a name may come. -/
theorem readBack_member {member : String × Json} (h : ReadBack levels member.2) :
    ∃ tokens, CutsInto (charsOfMember member) tokens ∧
      ∀ (r : Reading) (before : List (String × Json)) (expected : Expected),
        (expected = .name ∨ expected = .firstName) → member.1 ∉ before.map Prod.fst →
        r.stack.length + (levels + 1) ≤ nestingLimit →
          tokens.foldlM Reading.step { r with stack := .obj before none :: r.stack, expected } =
            some (r.within (.obj (before ++ [member]) none)) := by
  obtain ⟨name, value⟩ := member
  obtain ⟨tokens, hcut, hgives⟩ := h
  refine ⟨.value (.str name) :: .colon :: tokens, ?_, ?_⟩
  · intro rest more hrest hmore
    rw [charsOfMember, List.append_assoc, List.cons_append]
    exact scansTo_string name (CutsInto.cons (by simp [punctuation]) hcut rest more hrest hmore)
  · intro r before expected hexpected hnew hroom
    have hname : ({ r with stack := .obj before none :: r.stack, expected } : Reading).step
        (.value (.str name)) =
          some { r with stack := .obj before (some name) :: r.stack, expected := .colon } := by
      rcases hexpected with rfl | rfl <;> rfl
    have hinside := hgives
      { r with stack := .obj before (some name) :: r.stack, expected := .value } (.inl rfl)
      (by simp only [List.length_cons]; omega)
    rw [List.foldlM_cons, hname, Option.bind_eq_bind, Option.bind_some]
    show tokens.foldlM Reading.step
      { r with stack := .obj before (some name) :: r.stack, expected := .value } = _
    rw [hinside, ← put_new hnew]
    rfl

/-- Members behind a member of an object. -/
theorem readBack_members {members : List (String × Json)}
    (h : ∀ member ∈ members, ReadBack levels member.2) :
    ∃ tokens, CutsInto (members.flatMap fun member => [','] ++ charsOfMember member) tokens ∧
      ∀ (r : Reading) (before : List (String × Json)),
        ((before ++ members).map Prod.fst).Nodup → r.stack.length + (levels + 1) ≤ nestingLimit →
          tokens.foldlM Reading.step (r.within (.obj before none)) =
            some (r.within (.obj (before ++ members) none)) := by
  induction members with
  | nil =>
    refine ⟨[], CutsInto.nil, ?_⟩
    intro r before _ _
    rw [List.append_nil]
    rfl
  | cons member rest ih =>
    obtain ⟨hmember, hrest⟩ := List.forall_mem_cons.1 h
    obtain ⟨tokens, hcut, hreads⟩ := readBack_member hmember
    obtain ⟨others, hcuts, hothers⟩ := ih hrest
    refine ⟨.comma :: (tokens ++ others), ?_, ?_⟩
    · rw [List.flatMap_cons, List.append_assoc]
      exact .cons (by simp [punctuation])
        (hcut.append hcuts fun _ hclosed => closed_flatMap_comma charsOfMember rest hclosed)
    · intro r before hnames hroom
      have hnew : member.1 ∉ before.map Prod.fst := by
        intro hmem
        rw [List.map_append, List.nodup_append] at hnames
        exact hnames.2.2 _ hmem _ List.mem_cons_self rfl
      have hfirst := hreads r before .name (.inl rfl) hnew hroom
      rw [List.foldlM_cons]
      show (tokens ++ others).foldlM Reading.step
        { r with stack := .obj before none :: r.stack, expected := .name } = _
      rw [List.foldlM_append, hfirst]
      show others.foldlM Reading.step (r.within (.obj (before ++ [member]) none)) = _
      rw [hothers r _ (by rwa [List.append_assoc, List.singleton_append]) hroom,
        List.append_assoc, List.singleton_append]

theorem step_openObj {r : Reading} (hexpected : r.expected = .value ∨ r.expected = .firstItem)
    (hroom : r.stack.length < nestingLimit) :
    r.step .openObj = some { r with stack := .obj [] none :: r.stack, expected := .firstName } := by
  have hdescend : r.step .openObj = r.descend (.obj [] none) .firstName := by
    rcases hexpected with h | h <;> simp only [Reading.step, h]
  rw [hdescend, Reading.descend, if_pos hroom]

theorem readBack_obj {members : List (String × Json)} (hnames : (members.map Prod.fst).Nodup)
    (h : ∀ member ∈ members, ReadBack levels member.2) : ReadBack (levels + 1) (.obj members) := by
  cases members with
  | nil =>
    refine ⟨[.openObj, .closeObj], ?_, ?_⟩
    · exact .cons (by simp [punctuation]) (.cons (by simp [punctuation]) .nil)
    · intro r hexpected hroom
      rw [List.foldlM_cons, step_openObj hexpected (by omega), Option.bind_eq_bind,
        Option.bind_some, List.foldlM_cons]
      show (({ r with expected := .firstName } : Reading).finish (.obj [])).bind some = _
      rw [Reading.finish_expected, Option.bind_fun_some]
  | cons first rest =>
    obtain ⟨hfirst, hrest⟩ := List.forall_mem_cons.1 h
    obtain ⟨tokens, hcut, hreads⟩ := readBack_member hfirst
    obtain ⟨others, hcuts, hothers⟩ := readBack_members hrest
    refine ⟨.openObj :: (tokens ++ others ++ [.closeObj]), ?_, ?_⟩
    · rw [chars, charsOfMembers_eq, List.map_cons, Text.joinWith_cons, List.flatMap_map]
      refine .cons (by simp [punctuation]) (.append (hcut.append hcuts ?_) ?_ ?_)
      · exact fun _ hclosed => closed_flatMap_comma charsOfMember rest hclosed
      · exact .cons (by simp [punctuation]) .nil
      · exact fun rest _ => closed_obj rest
    · intro r hexpected hroom
      have hinside := hreads r [] .firstName (.inr rfl) List.not_mem_nil hroom
      rw [List.foldlM_cons, step_openObj hexpected (by omega), Option.bind_eq_bind,
        Option.bind_some, List.foldlM_append, List.foldlM_append, hinside]
      show ((others.foldlM Reading.step (r.within (.obj [first] none))).bind _) = _
      rw [hothers r [first] hnames hroom, Option.bind_some, List.foldlM_cons]
      show (({ r with expected := .separator } : Reading).finish (.obj (first :: rest))).bind
        some = _
      rw [Reading.finish_expected, Option.bind_fun_some]

end Members

theorem readBack_of_writable {levels : Nat} {value : Json} (h : Writable levels value) :
    ReadBack levels value := by
  induction h with
  | null levels => exact readBack_word (by simp [words, chars]) levels
  | bool levels b => cases b <;> exact readBack_word (by simp [words, chars]) levels
  | int levels hfits => exact readBack_int hfits levels
  | str levels s => exact readBack_string s levels
  | arr _ ih => exact readBack_arr ih
  | obj hnames _ ih => exact readBack_obj hnames ih

/-- The text of a value gives the value back. -/
theorem parse?_text {value : Json} (h : Writable nestingLimit value) :
    parse? value.text = some value := by
  obtain ⟨tokens, hcut, hgives⟩ := readBack_of_writable h
  have hscan : scan? value.chars = some tokens := by
    have hend : ScansTo (value.chars ++ []) (tokens ++ []) := hcut [] [] nofun scansTo_nil
    rw [List.append_nil, List.append_nil] at hend
    exact scan?_of_scansTo hend
  have hread : tokens.foldlM Reading.step {} =
      some { stack := [], expected := .nothing, result := some value } :=
    hgives {} (.inl rfl) (Nat.le_of_eq (Nat.zero_add nestingLimit))
  rw [parse?, text, String.toList_ofList, ofChars?, hscan]
  show ofTokens? tokens = some value
  rw [ofTokens?, hread]
  rfl

theorem Writable.mono {levels more : Nat} {value : Json} (h : Writable levels value)
    (hle : levels ≤ more) : Writable more value := by
  induction h generalizing more with
  | null => exact .null more
  | bool _ b => exact .bool more b
  | int _ hfits => exact .int more hfits
  | str _ s => exact .str more s
  | arr _ ih =>
    obtain ⟨n, rfl⟩ := Nat.exists_eq_succ_of_ne_zero (Nat.ne_of_gt (Nat.lt_of_lt_of_le
      (Nat.succ_pos _) hle))
    exact .arr fun item hitem => ih item hitem (Nat.le_of_succ_le_succ hle)
  | obj hnames _ ih =>
    obtain ⟨n, rfl⟩ := Nat.exists_eq_succ_of_ne_zero (Nat.ne_of_gt (Nat.lt_of_lt_of_le
      (Nat.succ_pos _) hle))
    exact .obj hnames fun member hmember => ih member hmember (Nat.le_of_succ_le_succ hle)

/-- A way to write values as texts and to read texts. -/
structure TextFormat where
  write : Json → String
  read? : String → Option Json

namespace TextFormat

/-- What is documented of a way to write values: what is written is read as it was, and of several
members with one name only one is read. -/
structure Documented (format : TextFormat) : Prop where
  read_write : ∀ value, value.Writable nestingLimit → format.read? (format.write value) = some value
  distinct : ∀ text value, format.read? text = some value → value.Distinct

/-- Texts without blanks, which are read sign by sign. -/
def plain : TextFormat := ⟨text, parse?⟩

theorem plain_documented : plain.Documented where
  read_write := fun _ => parse?_text
  distinct := fun _ _ => distinct_of_parse?

end TextFormat

end FloodGuard.Json
