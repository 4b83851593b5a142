import FloodGuard.Number.Double

/-!
JSON values. Whole numbers are kept apart from all others, and the members of an object keep their
order.
-/
namespace FloodGuard

inductive Json where
  | null
  | bool (value : Bool)
  | int (value : Int)
  | float (value : Double)
  | str (value : String)
  | arr (items : List Json)
  | obj (members : List (String × Json))
deriving Repr

namespace Json

/-- A member of an object by its name; of several with one name, the last. -/
def lookup (name : String) (members : List (String × Json)) : Option Json :=
  (members.reverse.find? fun member => member.1 = name).map Prod.snd

/-- The members with one more at the end, in place of an earlier one of that name. -/
def put (name : String) (value : Json) (members : List (String × Json)) : List (String × Json) :=
  members.filter (fun member => member.1 ≠ name) ++ [(name, value)]

/-- The member of a value that is an object. -/
def member? (name : String) : Json → Option Json
  | obj members => lookup name members
  | _ => none

def ofNat (n : Nat) : Json := int n

/-- A missing value is written as null. -/
def ofOption {α : Type} (write : α → Json) : Option α → Json
  | some x => write x
  | none => null

def ofList {α : Type} (write : α → Json) (items : List α) : Json := arr (items.map write)

end Json

/-- Types whose values are written as JSON in one way. -/
class ToJson (α : Type) where
  toJson : α → Json

export ToJson (toJson)

instance : ToJson UInt64 := ⟨fun n => .ofNat n.toNat⟩
instance : ToJson UInt32 := ⟨fun n => .ofNat n.toNat⟩
instance : ToJson UInt16 := ⟨fun n => .ofNat n.toNat⟩
instance : ToJson UInt8 := ⟨fun n => .ofNat n.toNat⟩
instance : ToJson Nat := ⟨.ofNat⟩
instance : ToJson Bool := ⟨.bool⟩
instance : ToJson String := ⟨.str⟩
instance : ToJson Json := ⟨id⟩
instance {α : Type} [ToJson α] : ToJson (Option α) := ⟨.ofOption toJson⟩
instance {α : Type} [ToJson α] : ToJson (List α) := ⟨.ofList toJson⟩

end FloodGuard
