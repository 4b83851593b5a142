import FloodGuard.Proofs.OverDefaults
import FloodGuard.Proofs.SingleSettings

/-!
Putting the text of a value over a tree, at the place of a setting. What changes in what is read of
the tree is this setting and nothing else: a field that is put leaves the other fields of its
record, and a record that is put leaves the other records.
-/
namespace FloodGuard

namespace Json.Replaces

open Reader

variable {α : Type} {name : String} {value : Json} {members result : List (String × Json)}
  (h : Replaces name value members result) (read : Json → Option α) (absent : α) (other : String)

include h

end Json.Replaces

namespace Dimension

@[simp]
theorem flagField_inj {d other : Dimension} : d.flagField = other.flagField ↔ d = other := by
  have hall : ∀ d ∈ priority, ∀ other ∈ priority, d.flagField = other.flagField → d = other := by
    decide
  exact ⟨hall d d.mem_priority other other.mem_priority, congrArg flagField⟩

@[simp]
theorem thresholdField_inj {d other : Dimension} :
    d.thresholdField = other.thresholdField ↔ d = other := by
  have hall : ∀ d ∈ priority, ∀ other ∈ priority,
      d.thresholdField = other.thresholdField → d = other := by decide
  exact ⟨hall d d.mem_priority other other.mem_priority, congrArg thresholdField⟩

end Dimension

/-! A record with one field put is read as before but for that field. -/

section Fields

variable {r : Reader} {members result : List (String × Json)} {value : Json}

section Server

variable {c : ServerConfig} (h : c.ReadFrom r members)

include h

end Server

section Action

variable {c : ActionConfig} (h : c.ReadFrom r members)

include h

end Action

section Detection

variable {c : DetectionConfig} (h : c.ReadFrom r members)

include h

end Detection

section Settings

variable {s : Settings} (h : s.ReadFrom r members)

include h

end Settings

section Whole

variable {c : Config} (h : c.ReadFrom r members)

include h

end Whole

end Fields

/-! The tables of a tree that has the form of a configuration as far as tables go. -/

/-- Whether a value has tables where a form has tables. -/
inductive Form.Shaped : Form → Json → Prop
  | other {form : Form} (hform : ∀ fields, form ≠ .table fields) (value : Json) : Shaped form value
  | table {fields : List (String × Form)} {members : List (String × Json)}
      (hfields : ∀ field ∈ fields, ∀ value, Json.lookup field.1 members = some value →
        Shaped field.2 value) : Shaped (.table fields) (.obj members)

namespace Form

theorem Shaped.leaf (value : Json) : Form.leaf.Shaped value := .other (by simp) value

theorem Shaped.list (item : Form) (value : Json) : (Form.list item).Shaped value :=
  .other (by simp) value

theorem Shaped.of_lookup {fields : List (String × Form)} {members : List (String × Json)}
    (h : (Form.table fields).Shaped (.obj members)) {field : String × Form}
    (hfield : field ∈ fields)
    {value : Json} (hlookup : Json.lookup field.1 members = some value) :
    field.2.Shaped value := by
  cases h with
  | other hform => exact absurd rfl (hform fields)
  | table hfields => exact hfields field hfield value hlookup

theorem Shaped.eq_obj {fields : List (String × Form)} {value : Json}
    (h : (Form.table fields).Shaped value) : ∃ members, value = .obj members := by
  cases h with
  | other hform => exact absurd rfl (hform fields)
  | table => exact ⟨_, rfl⟩

end Form

namespace Config

open Json (PutOver Replaces tableOf)

section Tables

variable {fields inner : List (String × Form)} {members : List (String × Json)} {name : String}
  (hshaped : (Form.table fields).Shaped (.obj members))
  (hfield : (name, Form.table inner) ∈ fields)

include hshaped hfield

end Tables

section Sections

variable {r : Reader} {c : Config} {members : List (String × Json)}
  (hshaped : form.Shaped (.obj members)) (h : c.ReadFrom r members)

include hshaped h

end Sections

/-! A text that is put into a section changes what is read of this section and nothing else. -/

section Texts

variable {r : Reader} {c : Config} {members : List (String × Json)} {name text : String}
  {result : Json} (h : c.ReadFrom r members)

include h

end Texts

end Config

end FloodGuard
