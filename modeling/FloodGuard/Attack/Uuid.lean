import FloodGuard.Number.Positional
import FloodGuard.Text.Numeral
import FloodGuard.Text.Pieces

/-!
Universally unique identifiers of attacks. The identifier of zero bits is the one of an attack that
has none yet.
-/
namespace FloodGuard

structure Uuid where
  bits : BitVec 128
deriving DecidableEq, Repr

/-- Why an attack got no identifier. -/
inductive UuidError where
  | entropyUnavailable (reason : String)
  | alreadySet (uuid : Uuid)
deriving DecidableEq, Repr

namespace Uuid

def nil : Uuid := ⟨0⟩

def isNil (u : Uuid) : Bool := u = nil

/-- The number of hexadecimal digits in each group of the text. -/
def groupSizes : List Nat := [8, 4, 4, 4, 12]

/-- The groups of the given sizes at the front of a list. -/
def splitSizes {α : Type} : List Nat → List α → List (List α)
  | [], _ => []
  | size :: sizes, items => items.take size :: splitSizes sizes (items.drop size)

def digits (u : Uuid) : List Char := (Positional.split 16 32 u.bits.toNat).map Nat.digitChar

/-- Groups of lower-case hexadecimal digits between dashes. -/
def text (u : Uuid) : String :=
  String.ofList (Text.joinWith ['-'] (splitSizes groupSizes u.digits))

/-- Reads groups of digits of either case. -/
def parse? (text : String) : Option Uuid :=
  let groups := Text.pieces '-' text.toList
  if groups.map List.length = groupSizes then
    (Numeral.value? 16 groups.flatten).map fun n => ⟨BitVec.ofNat 128 n⟩
  else none

end Uuid

def UuidError.message : UuidError → String
  | .entropyUnavailable reason => "entropy source unavailable: " ++ reason
  | .alreadySet uuid => "attack already has UUID " ++ uuid.text

end FloodGuard
