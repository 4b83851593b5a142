import FloodGuard.Config.Tree
import FloodGuard.Proofs.RecordReading

/-!
Tables put over tables, said by what is found in them and not by how they come about. A table that
is put over another replaces the members that it has, table by table, and keeps the others; anything
else replaces what is below. Layers are put over each other one after the other.
-/
namespace FloodGuard.Json

open Config (membersOf)

theorem lookup_cons (name : String) (member : String × Json) (rest : List (String × Json)) :
    lookup name (member :: rest) =
      (lookup name rest).or (if member.1 = name then some member.2 else none) := by
  rw [lookup, lookup, List.reverse_cons, List.find?_append, Option.map_or]
  by_cases h : member.1 = name <;> simp [h]

theorem lookup_singleton (name other : String) (value : Json) :
    lookup other [(name, value)] = if name = other then some value else none := by
  rw [lookup_cons]
  rfl

theorem lookup_eq_none_of_not_mem {name : String} {members : List (String × Json)}
    (h : name ∉ members.map Prod.fst) : lookup name members = none :=
  Option.eq_none_iff_forall_ne_some.2 fun _ hvalue =>
    h (List.mem_map_of_mem (mem_of_lookup hvalue))

/-- The members of a table that may be missing. -/
def tableOf (value : Option Json) : List (String × Json) := membersOf (value.getD .null)

/-- Whether something results from a value put over another one, if there is one. -/
inductive PutOver : Json → Option Json → Json → Prop
  | alone (value : Json) : PutOver value none value
  | leaf {value : Json} (hleaf : ∀ members, value ≠ .obj members) (under : Json) :
      PutOver value (some under) value
  | empty (under : Json) : PutOver (.obj []) (some under) under
  | table {upper result : List (String × Json)} {under : Json} (merged : String → Json)
      (hkept : ∀ name, lookup name upper = none →
        lookup name result = lookup name (membersOf under))
      (hput : ∀ name value, lookup name upper = some value →
        lookup name result = some (merged name))
      (hmerged : ∀ name value, lookup name upper = some value →
        PutOver value (lookup name (membersOf under)) (merged name)) :
      PutOver (.obj upper) (some under) (.obj result)

/-- Whether a table has the members of one table put over those of another. -/
structure Merges (upper base result : List (String × Json)) : Prop where
  kept : ∀ name, lookup name upper = none → lookup name result = lookup name base
  put : ∀ name value, lookup name upper = some value →
    ∃ merged, lookup name result = some merged ∧ PutOver value (lookup name base) merged

/-- Whether a table has a value as one of its members, and the others of another table. -/
def Replaces (name : String) (value : Json) (base result : List (String × Json)) : Prop :=
  ∀ other, lookup other result = if name = other then some value else lookup other base

/-- The tables that are met on the way to a value. -/
def nested : List String → Json → Json
  | [], value => value
  | name :: rest, value => .obj [(name, nested rest value)]

/-- Whether something results from layers put over a tree, the first layer first. -/
inductive Layers : Json → List Json → Json → Prop
  | nil (base : Json) : Layers base [] base
  | cons {base layer tree result : Json} {rest : List Json}
      (hfirst : PutOver layer (some base) tree)
      (hrest : Layers tree rest result) : Layers base (layer :: rest) result

namespace PutOver

theorem eq_of_leaf {value result : Json} {under : Option Json} (h : PutOver value under result)
    (hleaf : ∀ members, value ≠ .obj members) : result = value := by
  cases h with
  | alone => rfl
  | leaf => rfl
  | empty => exact absurd rfl (hleaf [])
  | table => exact absurd rfl (hleaf _)

theorem eq_of_none {value result : Json} (h : PutOver value none result) : result = value := by
  cases h
  rfl

/-- A table with one member replaces this member, put over what it was before. -/
theorem of_single {name : String} {inner result : Json} {under : Option Json}
    (h : PutOver (.obj [(name, inner)]) under result) :
    ∃ members value, result = .obj members ∧ Replaces name value (tableOf under) members ∧
      PutOver inner (lookup name (tableOf under)) value := by
  cases h with
  | alone => exact ⟨_, inner, rfl, fun other => lookup_singleton name other inner, .alone inner⟩
  | leaf hleaf => exact absurd rfl (hleaf _)
  | table merged hkept hput hmerged =>
    have hfound : lookup name [(name, inner)] = some inner := by
      rw [lookup_singleton, if_pos rfl]
    refine ⟨_, merged name, rfl, ?_, hmerged name inner hfound⟩
    intro other
    by_cases heq : name = other
    · subst heq
      rw [if_pos rfl, hput name inner hfound]
    · rw [if_neg heq]
      exact hkept other (by rw [lookup_singleton, if_neg heq])

/-- A single value that is put into a part of a table replaces one field of the part. -/
theorem of_pair {part name : String} {value result : Json} {under : Option Json}
    (hleaf : ∀ members, value ≠ .obj members)
    (h : PutOver (nested [part, name] value) under result) :
    ∃ members table, result = .obj members ∧
      Replaces part (.obj table) (tableOf under) members ∧
      Replaces name value (tableOf (lookup part (tableOf under))) table := by
  obtain ⟨members, _, rfl, hpart, hinner⟩ := h.of_single
  obtain ⟨table, _, rfl, hfield, hvalue⟩ := hinner.of_single
  obtain rfl := hvalue.eq_of_leaf hleaf
  exact ⟨members, table, rfl, hpart, hfield⟩

end PutOver

namespace Layers

theorem of_append {base result : Json} {first second : List Json}
    (h : Layers base (first ++ second) result) :
    ∃ tree, Layers base first tree ∧ Layers tree second result := by
  induction first generalizing base with
  | nil => exact ⟨base, .nil base, h⟩
  | cons layer rest ih =>
    cases h with
    | cons hfirst hrest =>
      obtain ⟨tree, hlower, hupper⟩ := ih hrest
      exact ⟨tree, .cons hfirst hlower, hupper⟩

/-- Members of different names, put over a table one by one, are put over it as one table. -/
theorem of_members {members base : List (String × Json)} {result : Json}
    (hnames : (members.map Prod.fst).Nodup)
    (h : Layers (.obj base) (members.map fun member => .obj [member]) result) :
    ∃ table, result = .obj table ∧ Merges members base table := by
  induction members generalizing base with
  | nil =>
    cases h
    exact ⟨base, rfl, fun _ _ => rfl, fun name value h => absurd h nofun⟩
  | cons member rest ih =>
    rw [List.map_cons, List.nodup_cons] at hnames
    cases h with
    | cons hfirst hrest =>
      obtain ⟨middle, value, rfl, hreplaces, hvalue⟩ := hfirst.of_single
      obtain ⟨table, rfl, hkept, hput⟩ := ih hnames.2 hrest
      have hmissing := lookup_eq_none_of_not_mem hnames.1
      refine ⟨table, rfl, ?_, ?_⟩
      · intro name hname
        obtain ⟨hlater, hfirst⟩ := Option.or_eq_none_iff.1 (lookup_cons name member rest ▸ hname)
        have hne : member.1 ≠ name := fun heq => by simp [heq] at hfirst
        rw [hkept name hlater, hreplaces, if_neg hne]
        rfl
      · intro name found hname
        rw [lookup_cons] at hname
        by_cases heq : member.1 = name
        · subst heq
          rw [hmissing, if_pos rfl, Option.none_or] at hname
          obtain rfl := Option.some.inj hname
          exact ⟨value, by rw [hkept _ hmissing, hreplaces, if_pos rfl], hvalue⟩
        · rw [if_neg heq, Option.or_none] at hname
          obtain ⟨merged, hfound, hmerged⟩ := hput name found hname
          rw [hreplaces, if_neg heq] at hmerged
          exact ⟨merged, hfound, hmerged⟩

/-- Single values that are put into parts of a table, one by one, are found there, the last one of
its name; where none was put, all is as before. -/
theorem of_parts {settings : List (String × String × Json)} {base : List (String × Json)}
    {result : Json}
    (hleaf : ∀ setting ∈ settings, ∀ members, setting.2.2 ≠ .obj members)
    (h : Layers (.obj base)
      (settings.map fun setting => nested [setting.1, setting.2.1] setting.2.2) result) :
    ∃ members, result = .obj members ∧
      (∀ part ∉ settings.map Prod.fst, lookup part members = lookup part base) ∧
      (∀ part ∈ settings.map Prod.fst, ∃ table, lookup part members = some (.obj table)) ∧
      ∀ part name, lookup name (tableOf (lookup part members)) =
        (lookup name ((settings.filter (·.1 = part)).map Prod.snd)).or
          (lookup name (tableOf (lookup part base))) := by
  induction settings generalizing base with
  | nil =>
    cases h
    exact ⟨base, rfl, fun _ _ => rfl, by simp, fun _ _ => rfl⟩
  | cons setting rest ih =>
    obtain ⟨hvalue, hothers⟩ := List.forall_mem_cons.1 hleaf
    cases h with
    | cons hfirst hrest =>
      obtain ⟨middle, table, rfl, hreplaces, hfields⟩ := hfirst.of_pair hvalue
      obtain ⟨members, rfl, hkept, htables, hfound⟩ := ih hothers hrest
      refine ⟨members, rfl, ?_, ?_, ?_⟩
      · intro part hpart
        rw [List.map_cons, List.mem_cons, not_or] at hpart
        rw [hkept part hpart.2, hreplaces, if_neg (Ne.symm hpart.1)]
        rfl
      · intro part hpart
        by_cases hlater : part ∈ rest.map Prod.fst
        · exact htables part hlater
        · obtain rfl : part = setting.1 := by simpa [hlater] using hpart
          exact ⟨table, by rw [hkept _ hlater, hreplaces, if_pos rfl]⟩
      · intro part name
        rw [hfound, hreplaces]
        by_cases heq : setting.1 = part
        · subst heq
          have hset : lookup name (tableOf (some (.obj table))) = _ := hfields name
          rw [if_pos rfl, hset, List.filter_cons_of_pos (by simp), List.map_cons, lookup_cons,
            Option.or_assoc]
          split <;> rfl
        · rw [if_neg heq, List.filter_cons_of_neg (by simpa using heq)]
          rfl

end Layers

end FloodGuard.Json
