import FloodGuard.Json
import FloodGuard.Label
import FloodGuard.Number.Shortest
import FloodGuard.Number.Saturating
import FloodGuard.Text.Numeral

/-!
Readers of JSON values as data. A reader says how the leaves of a value are understood; everything
built from them is read in one way for every reader. The strict reader takes every value for what it
is. The lenient reader also takes words and other numbers for numbers and flags, as values from the
environment need it.
-/
namespace FloodGuard

/-- A way to read the leaves of a value. -/
structure Reader where
  /-- A natural number of at most so many bits. -/
  natural : Nat → Json → Option Nat
  flag : Json → Option Bool
  text : Json → Option String
  /-- The name of one of several alternatives. -/
  variant : Json → Option String
  /-- Whether a record given by position must not have more values than the record has fields. -/
  exactLength : Bool

namespace Reader

variable {α : Type}

/-- The members of a record with the given fields. A list gives the fields by position. -/
def record (r : Reader) (fields : List String) : Json → Option (List (String × Json))
  | .obj members => some members
  | .arr items =>
    if r.exactLength && fields.length < items.length then none else some (fields.zip items)
  | _ => none

/-- A field that must be there. -/
def required (read : Json → Option α) (members : List (String × Json)) (name : String) :
    Option α := do
  read (← Json.lookup name members)

/-- A field that has a value of its own when it is missing. -/
def optional (read : Json → Option α) (absent : α) (members : List (String × Json))
    (name : String) : Option α :=
  match Json.lookup name members with
  | some value => read value
  | none => some absent

/-- A value that may be null. -/
def nullable (read : Json → Option α) : Json → Option (Option α)
  | .null => some none
  | value => (read value).map some

def list (read : Json → Option α) : Json → Option (List α)
  | .arr items => items.mapM read
  | _ => none

def enumeration [Labelled α] (r : Reader) (value : Json) : Option α := do
  ofLabel? (← r.variant value)

def word64 (r : Reader) (value : Json) : Option UInt64 := (r.natural 64 value).map UInt64.ofNat

def word32 (r : Reader) (value : Json) : Option UInt32 := (r.natural 32 value).map UInt32.ofNat

def word16 (r : Reader) (value : Json) : Option UInt16 := (r.natural 16 value).map UInt16.ofNat

def word8 (r : Reader) (value : Json) : Option UInt8 := (r.natural 8 value).map UInt8.ofNat

def strictNatural (bits : Nat) : Json → Option Nat
  | .int n => if 0 ≤ n ∧ n.toNat < Nat.pow 2 bits then some n.toNat else none
  | _ => none

def strictFlag : Json → Option Bool
  | .bool b => some b
  | _ => none

def strictText : Json → Option String
  | .str s => some s
  | _ => none

/-- An alternative is named by a string, or by an object whose only member is null. -/
def strictVariant : Json → Option String
  | .str s => some s
  | .obj [(name, .null)] => some name
  | _ => none

def strict : Reader where
  natural := strictNatural
  flag := strictFlag
  text := strictText
  variant := strictVariant
  exactLength := true

/-- Words that say yes, in lower case. -/
def affirmative : List String := ["true", "on", "yes"]

/-- Words that say no, in lower case. -/
def negative : List String := ["false", "off", "no"]

/-- A whole number of more than 63 bits is taken for the nearest floating-point number. -/
def settle : Json → Json
  | .int n =>
    if n < Nat.pow 2 63 then .int n
    else match Double.ofNat? n.toNat with
      | some x => .float x
      | none => .int n
  | value => value

/-- A number as one 64-bit word: a word is one or zero, and a fraction is rounded. -/
def lenientWord (value : Json) : Option Nat :=
  match settle value with
  | .int n => if 0 ≤ n then some n.toNat else none
  | .bool b => some b.toNat
  | .float x => some (if x.negative then 0 else min x.roundMagnitude Saturating.largest)
  | .str s =>
    if s.toLower ∈ affirmative then some 1
    else if s.toLower ∈ negative then some 0
    else Numeral.bounded? Saturating.largest s.toList
  | _ => none

/-- Of a number that is too large the low bits are kept. -/
def lenientNatural (bits : Nat) (value : Json) : Option Nat :=
  (lenientWord value).map (· % Nat.pow 2 bits)

def lenientFlag : Json → Option Bool
  | .bool b => some b
  | .int n => some (n ≠ 0)
  | .float x => some (!x.isZero)
  | .str s =>
    if s.toLower ∈ "1" :: affirmative then some true
    else if s.toLower ∈ "0" :: negative then some false
    else none
  | _ => none

def lenientText (value : Json) : Option String :=
  match settle value with
  | .str s => some s
  | .bool b => some (if b then "true" else "false")
  | .int n => some (String.ofList (Numeral.signed n))
  | .float x => some (String.ofList x.chars)
  | _ => none

/-- An alternative is named by a string, or by the name of an object's only member. -/
def lenientVariant : Json → Option String
  | .str s => some s
  | .obj [(name, _)] => some name
  | _ => none

def lenient : Reader where
  natural := lenientNatural
  flag := lenientFlag
  text := lenientText
  variant := lenientVariant
  exactLength := false

end Reader

end FloodGuard
