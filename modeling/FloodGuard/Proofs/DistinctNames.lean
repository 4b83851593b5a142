import FloodGuard.Json.Text

/-!
Values in which no object has two members of one name. A text gives only such values: of the members
with one name that it has, the last replaces the others as it is read.
-/
namespace FloodGuard.Json

/-- Whether the names in every object of a value differ. -/
inductive Distinct : Json → Prop
  | null : Distinct .null
  | bool (b : Bool) : Distinct (.bool b)
  | int (n : Int) : Distinct (.int n)
  | float (x : Double) : Distinct (.float x)
  | str (s : String) : Distinct (.str s)
  | arr {items : List Json} (hitems : ∀ item ∈ items, Distinct item) : Distinct (.arr items)
  | obj {members : List (String × Json)} (hnames : (members.map Prod.fst).Nodup)
      (hmembers : ∀ member ∈ members, Distinct member.2) : Distinct (.obj members)

theorem distinct_arr_iff {items : List Json} :
    Distinct (.arr items) ↔ ∀ item ∈ items, item.Distinct := by
  constructor
  · rintro (_ | _)
    assumption
  · exact .arr

theorem distinct_obj_iff {members : List (String × Json)} :
    Distinct (.obj members) ↔
      (members.map Prod.fst).Nodup ∧ ∀ member ∈ members, member.2.Distinct := by
  constructor
  · rintro (_ | _)
    exact ⟨by assumption, by assumption⟩
  · rintro ⟨hnames, hmembers⟩
    exact .obj hnames hmembers

/-- A member that is put replaces the one of its name. -/
theorem Distinct.put {members : List (String × Json)} {name : String} {value : Json}
    (h : Distinct (.obj members)) (hvalue : value.Distinct) :
    Distinct (.obj (put name value members)) := by
  obtain ⟨hnames, hmembers⟩ := distinct_obj_iff.1 h
  refine .obj ?_ ?_
  · have hkept : ((members.filter fun member => member.1 ≠ name).map Prod.fst).Nodup :=
      hnames.sublist ((List.filter_sublist).map Prod.fst)
    rw [Json.put, List.map_append, List.nodup_append]
    refine ⟨hkept, by simp, ?_⟩
    intro other hother new hnew heq
    obtain ⟨member, hmember, rfl⟩ := List.mem_map.1 hother
    have hname : member.1 ≠ name := by simpa using (List.mem_filter.1 hmember).2
    exact hname (heq.trans (by simpa using hnew))
  · intro member hmember
    rcases List.mem_append.1 hmember with hold | hnew
    · exact hmembers member (List.mem_filter.1 hold).1
    · rw [List.mem_singleton.1 hnew]
      exact hvalue

section Tokens

theorem distinct_of_toJson? {n : Numeric} {leaf : Json} (h : n.toJson? = some leaf) :
    leaf.Distinct := by
  rw [Numeric.toJson?] at h
  split at h
  · obtain rfl := Option.some.inj h
    exact .int _
  · obtain ⟨x, -, rfl⟩ := Option.map_eq_some_iff.1 h
    exact .float x

theorem distinct_of_cutWord {text behind : List Char} {leaf : Json}
    (h : cutWord text = some (leaf, behind)) : leaf.Distinct := by
  obtain ⟨⟨word, value⟩, hentry, hfound⟩ := List.exists_of_findSome?_eq_some h
  have hall : ∀ entry ∈ words, entry.2.Distinct := by
    simp only [words, List.mem_cons, List.not_mem_nil, or_false]
    rintro entry (rfl | rfl | rfl)
    · exact .null
    · exact .bool true
    · exact .bool false
  obtain ⟨-, heq⟩ := Option.ite_none_right_eq_some.1 hfound
  obtain rfl : value = leaf := (Prod.mk.inj (Option.some.inj heq)).1
  exact hall _ hentry

/-- A value that is a token is a string, a number or a word. -/
theorem leaf_of_cutToken {text behind : List Char} {leaf : Json}
    (h : cutToken text = some (.value leaf, behind)) :
    (∃ s, leaf = .str s) ∨ (∃ n : Numeric, n.toJson? = some leaf) ∨
      ∃ rest, cutWord text = some (leaf, rest) := by
  cases text with
  | nil => simp [cutToken] at h
  | cons c rest =>
    simp only [cutToken] at h
    repeat' split at h
    any_goals simp only [Option.some.injEq, Prod.mk.injEq, reduceCtorEq, false_and] at h
    · obtain ⟨⟨body, rest⟩, -, heq⟩ := Option.map_eq_some_iff.1 h
      exact .inl ⟨_, (Token.value.inj (Prod.mk.inj heq).1).symm⟩
    · obtain ⟨⟨number, rest⟩, -, h⟩ := Option.bind_eq_some_iff.1 h
      obtain ⟨value, hvalue, heq⟩ := Option.bind_eq_some_iff.1 h
      obtain rfl := Token.value.inj (Prod.mk.inj (Option.some.inj heq)).1
      exact .inr (.inl ⟨number, hvalue⟩)
    · obtain ⟨⟨value, rest⟩, hcut, heq⟩ := Option.map_eq_some_iff.1 h
      obtain rfl := Token.value.inj (Prod.mk.inj heq).1
      exact .inr (.inr ⟨rest, hcut⟩)

theorem distinct_of_cutToken {text behind : List Char} {leaf : Json}
    (h : cutToken text = some (.value leaf, behind)) : leaf.Distinct := by
  obtain ⟨s, rfl⟩ | ⟨n, hnumber⟩ | ⟨rest, hword⟩ := leaf_of_cutToken h
  · exact .str s
  · exact distinct_of_toJson? hnumber
  · exact distinct_of_cutWord hword

theorem distinct_of_scanWithin {fuel : Nat} {text : List Char} {tokens : List Token}
    (h : scanWithin text fuel = some tokens) {leaf : Json} (hleaf : .value leaf ∈ tokens) :
    leaf.Distinct := by
  induction fuel generalizing text tokens with
  | zero =>
    obtain rfl := Option.some.inj h
    simp at hleaf
  | succ fuel ih =>
    rw [scanWithin] at h
    split at h
    · obtain rfl := Option.some.inj h
      simp at hleaf
    · obtain ⟨⟨token, behind⟩, hcut, h⟩ := Option.bind_eq_some_iff.1 h
      obtain ⟨others, hothers, heq⟩ := Option.bind_eq_some_iff.1 h
      obtain rfl := Option.some.inj heq
      rcases List.mem_cons.1 hleaf with rfl | hrest
      · exact distinct_of_cutToken hcut
      · exact ih hothers hrest

end Tokens

/-- Whether what is read of an array or an object has distinct names. -/
def Open.Distinct : Open → Prop
  | .arr items => (Json.arr items).Distinct
  | .obj members _ => (Json.obj members).Distinct

theorem Open.distinct_arr_nil : (Open.arr []).Distinct := Json.Distinct.arr (by simp)

theorem Open.distinct_obj_nil (name : Option String) : (Open.obj [] name).Distinct :=
  Json.Distinct.obj (by simp) (by simp)

/-- Whether all that is read so far has distinct names. -/
structure Reading.Distinct (r : Reading) : Prop where
  stack : ∀ container ∈ r.stack, container.Distinct
  result : ∀ value, r.result = some value → value.Distinct

/-- What a step can do: begin a container, finish a value, end a container, take the name of a
member, or only change what may come next. -/
theorem Reading.step_cases {r next : Reading} {token : Token} (h : r.step token = some next) :
    (∃ expected, r.descend (.arr []) expected = some next) ∨
      (∃ expected, r.descend (.obj [] none) expected = some next) ∨
      (∃ leaf, token = .value leaf ∧ r.finish leaf = some next) ∨
      r.ascend = some next ∨
      (∃ members name rest, r.stack = .obj members none :: rest ∧
        next = { r with stack := .obj members (some name) :: rest, expected := .colon }) ∨
      (∃ expected, next = { r with expected }) := by
  unfold Reading.step at h
  split at h
  case h_1 | h_2 => exact .inl ⟨_, h⟩
  case h_3 | h_4 => exact .inr (.inl ⟨_, h⟩)
  case h_5 | h_6 => exact .inr (.inr (.inl ⟨_, rfl, h⟩))
  case h_7 | h_8 => exact .inr (.inr (.inr (.inl h)))
  case h_9 | h_10 =>
    split at h
    · rename_i hstack
      exact .inr (.inr (.inr (.inr (.inl ⟨_, _, _, hstack, (Option.some.inj h).symm⟩))))
    · exact absurd h nofun
  case h_11 => exact .inr (.inr (.inr (.inr (.inr ⟨_, (Option.some.inj h).symm⟩))))
  case h_12 =>
    split at h
    · exact .inr (.inr (.inr (.inr (.inr ⟨_, (Option.some.inj h).symm⟩))))
    · exact .inr (.inr (.inr (.inr (.inr ⟨_, (Option.some.inj h).symm⟩))))
    · exact absurd h nofun
  case h_13 | h_14 =>
    split at h
    · exact .inr (.inr (.inr (.inl h)))
    · exact absurd h nofun
  case h_15 => exact absurd h nofun

namespace Reading.Distinct

variable {r next : Reading} (h : r.Distinct)

include h

theorem finish {value : Json} (hvalue : value.Distinct) (hfinish : r.finish value = some next) :
    next.Distinct := by
  unfold Reading.finish at hfinish
  split at hfinish
  · obtain rfl := Option.some.inj hfinish
    refine ⟨by simp, ?_⟩
    intro result hresult
    obtain rfl := Option.some.inj hresult
    exact hvalue
  · rename_i items rest hstack
    obtain rfl := Option.some.inj hfinish
    obtain ⟨hfirst, hrest⟩ := List.forall_mem_cons.1 (hstack ▸ h.stack)
    refine ⟨List.forall_mem_cons.2 ⟨.arr ?_, hrest⟩, h.result⟩
    intro item hitem
    rcases List.mem_append.1 hitem with hold | hnew
    · exact distinct_arr_iff.1 hfirst item hold
    · rw [List.mem_singleton.1 hnew]
      exact hvalue
  · rename_i members name rest hstack
    obtain rfl := Option.some.inj hfinish
    obtain ⟨hfirst, hrest⟩ := List.forall_mem_cons.1 (hstack ▸ h.stack)
    exact ⟨List.forall_mem_cons.2 ⟨Json.Distinct.put hfirst hvalue, hrest⟩, h.result⟩
  · exact absurd hfinish nofun

theorem descend {container : Open} {expected : Expected} (hcontainer : container.Distinct)
    (hdescend : r.descend container expected = some next) : next.Distinct := by
  obtain ⟨-, heq⟩ := Option.ite_none_right_eq_some.1 hdescend
  obtain rfl := Option.some.inj heq
  exact ⟨List.forall_mem_cons.2 ⟨hcontainer, h.stack⟩, h.result⟩

theorem ascend (hascend : r.ascend = some next) : next.Distinct := by
  unfold Reading.ascend at hascend
  split at hascend
  · rename_i items rest hstack
    obtain ⟨hfirst, hrest⟩ := List.forall_mem_cons.1 (hstack ▸ h.stack)
    have hbelow : ({ r with stack := rest } : Reading).Distinct := ⟨hrest, h.result⟩
    exact hbelow.finish hfirst hascend
  · rename_i members rest hstack
    obtain ⟨hfirst, hrest⟩ := List.forall_mem_cons.1 (hstack ▸ h.stack)
    have hbelow : ({ r with stack := rest } : Reading).Distinct := ⟨hrest, h.result⟩
    exact hbelow.finish hfirst hascend
  · exact absurd hascend nofun

theorem step {token : Token} (htoken : ∀ leaf, token = .value leaf → leaf.Distinct)
    (hstep : r.step token = some next) : next.Distinct := by
  obtain ⟨_, harr⟩ | ⟨_, hobj⟩ | ⟨leaf, hleaf, hfinish⟩ | hascend |
    ⟨members, name, rest, hstack, rfl⟩ | ⟨expected, rfl⟩ := step_cases hstep
  · exact h.descend Open.distinct_arr_nil harr
  · exact h.descend (Open.distinct_obj_nil none) hobj
  · exact h.finish (htoken leaf hleaf) hfinish
  · exact h.ascend hascend
  · obtain ⟨hfirst, hrest⟩ := List.forall_mem_cons.1 (hstack ▸ h.stack)
    exact ⟨List.forall_mem_cons.2 ⟨hfirst, hrest⟩, h.result⟩
  · exact ⟨h.stack, h.result⟩

theorem run {tokens : List Token} (htokens : ∀ leaf, .value leaf ∈ tokens → leaf.Distinct)
    (hrun : tokens.foldlM Reading.step r = some next) : next.Distinct := by
  induction tokens generalizing r with
  | nil =>
    obtain rfl := Option.some.inj hrun
    exact h
  | cons token rest ih =>
    rw [List.foldlM_cons, Option.bind_eq_bind] at hrun
    obtain ⟨between, hstep, hrest⟩ := Option.bind_eq_some_iff.1 hrun
    obtain ⟨hfirst, hothers⟩ : (∀ leaf, token = .value leaf → leaf.Distinct) ∧
        ∀ leaf, .value leaf ∈ rest → leaf.Distinct := by
      refine ⟨?_, fun leaf hleaf => htokens leaf (List.mem_cons_of_mem token hleaf)⟩
      rintro leaf rfl
      exact htokens leaf List.mem_cons_self
    exact ih (h.step hfirst hstep) hothers hrest

end Reading.Distinct

/-- What is read from a text has distinct names. -/
theorem distinct_of_parse? {text : String} {value : Json} (h : parse? text = some value) :
    value.Distinct := by
  obtain ⟨tokens, hscan, hread⟩ := Option.bind_eq_some_iff.1 h
  obtain ⟨r, hrun, hresult⟩ := Option.bind_eq_some_iff.1 hread
  have hstart : ({} : Reading).Distinct := ⟨by simp, by simp⟩
  have hend := hstart.run (fun leaf => distinct_of_scanWithin hscan) hrun
  obtain ⟨-, hvalue⟩ := Option.ite_none_right_eq_some.1 hresult
  exact hend.result value hvalue

end FloodGuard.Json
