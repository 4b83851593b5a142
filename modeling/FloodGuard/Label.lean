/-!
Enumerations whose values are known by a text. Reading a text finds the value that it labels. A
value that may be missing is labelled `unknown` where it is.
-/
namespace FloodGuard

class Labelled (α : Type) where
  /-- All values, each once. -/
  all : List α
  label : α → String

export Labelled (label)

/-- The first value with the given label. -/
def ofLabel? {α : Type} [Labelled α] (text : String) : Option α :=
  Labelled.all.find? fun x => label x = text

instance {α : Type} [Labelled α] : Labelled (Option α) where
  all := none :: Labelled.all.map some
  label
    | none => "unknown"
    | some x => label x

theorem label_of_ofLabel? {α : Type} [Labelled α] {text : String} {x : α}
    (h : ofLabel? text = some x) : label x = text := by
  simpa using List.find?_some h

/-- Where all values are listed and no two share a label, reading a label gives its value. -/
theorem ofLabel?_label {α : Type} [Labelled α] (x : α) (hall : x ∈ (Labelled.all : List α))
    (hlabel : ∀ y : α, label y = label x → y = x) : ofLabel? (label x) = some x := by
  obtain ⟨y, hy⟩ : ∃ y : α, ofLabel? (label x) = some y := by
    rw [← Option.isSome_iff_exists, ofLabel?, List.find?_isSome]
    exact ⟨x, hall, by simp⟩
  rw [hy, hlabel y (label_of_ofLabel? hy)]

end FloodGuard
