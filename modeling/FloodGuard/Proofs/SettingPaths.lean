import FloodGuard.Config.Load

/-!
Paths of names. Names that hold neither a dot nor two underscores in a row can be joined by dots or
by two underscores: a path reads the first as the names, and the name of a variable reads the second
as the first.
-/
namespace FloodGuard.Config

open Text

/-- Whether two underscores in a row, or one at the end, would be taken for a separator. -/
def isUnbroken : List Char → Bool
  | [] => true
  | ['_'] => false
  | '_' :: '_' :: _ => false
  | _ :: rest => isUnbroken rest

/-- Whether a name can be told from what separates the names of a path. -/
structure IsName (name : String) : Prop where
  ne_nil : name.toList ≠ []
  signs : ∀ c ∈ name.toList, isNameChar c = true
  unbroken : isUnbroken name.toList = true

instance (name : String) : Decidable (IsName name) :=
  decidable_of_iff
    (name.toList ≠ [] ∧ name.toList.all isNameChar = true ∧ isUnbroken name.toList = true)
    ⟨fun ⟨hne, hsigns, hunbroken⟩ => ⟨hne, List.all_eq_true.1 hsigns, hunbroken⟩,
      fun h => ⟨h.ne_nil, List.all_eq_true.2 h.signs, h.unbroken⟩⟩

section Names

variable {names : List String}

variable (h : ∀ name ∈ names, IsName name)

include h

end Names

end FloodGuard.Config
