import FloodGuard.Json
import FloodGuard.Text.Numeral
import FloodGuard.Text.Pieces

/-!
Places in a configuration tree and values put there. A place is named by a path of member names and
list positions. What is missing on the way is made, and what is in the way is replaced. A table put
where a table is keeps the members that it does not replace.
-/
namespace FloodGuard.Config

inductive Step where
  | member (name : String)
  /-- A position in a list; a negative one counts from its end. -/
  | item (position : Int)
deriving DecidableEq, Repr

/-- The members of a table; anything else has none. -/
def membersOf : Json → List (String × Json)
  | .obj members => members
  | _ => []

/-- The items of a list; anything else has none. -/
def itemsOf : Json → List Json
  | .arr items => items
  | _ => []

def setMember (name : String) (value tree : Json) : Json :=
  .obj (Json.put name value (membersOf tree))

mutual

/-- A value put over another. -/
def overlay (value : Json) (under : Option Json) : Json :=
  match value with
  | .obj members => overlayMembers members (under.getD (.obj []))
  | leaf => leaf

/-- A tree with the members of a table put over its own. -/
def overlayMembers (members : List (String × Json)) (tree : Json) : Json :=
  match members with
  | [] => tree
  | (name, value) :: rest =>
    overlayMembers rest (setMember name (overlay value (Json.lookup name (membersOf tree))) tree)

end

/-- The position of an item in a list of a given length. -/
def positionIn (length : Nat) (position : Int) : Nat :=
  if 0 ≤ position then position.toNat else length - position.natAbs

/-- Changes an item of a list, which is made longer where it is too short. -/
def changeItem (position : Int) (change : Json → Json) (tree : Json) : Json :=
  let items := itemsOf tree
  let index := positionIn items.length position
  let extended := items ++ List.replicate (index + 1 - items.length) .null
  .arr (extended.modify index change)

/-- Puts a value at a place. -/
def assign (value : Json) : List Step → Json → Json
  | [], tree => tree
  | [.member name], tree =>
    setMember name (overlay value (Json.lookup name (membersOf tree))) tree
  | [.item position], tree => changeItem position (fun _ => value) tree
  | .member name :: next :: rest, tree =>
    setMember name
      (assign value (next :: rest) ((Json.lookup name (membersOf tree)).getD .null)) tree
  | .item position :: next :: rest, tree =>
    changeItem position (assign value (next :: rest)) tree

/-- The value at a place. -/
def at? : List Step → Json → Option Json
  | [], tree => some tree
  | .member name :: rest, tree => do at? rest (← Json.lookup name (membersOf tree))
  | .item position :: rest, tree => do
    let items := itemsOf tree
    at? rest (← items[positionIn items.length position]?)

/-- The characters of a name in a written path. -/
def isNameChar (c : Char) : Bool := c.isAlphanum ∨ c = ' ' ∨ c = '_' ∨ c = '-'

def isSpace (c : Char) : Bool := c = ' ' ∨ c = '\t'

/-- A position between brackets, with blanks around it. -/
def position? (text : List Char) : Option Int :=
  let trimmed := ((text.dropWhile isSpace).reverse.dropWhile isSpace).reverse
  match trimmed with
  | '-' :: digits => (Numeral.value? 10 digits).filter (· ≤ Nat.pow 2 63) |>.map fun n => -(n : Int)
  | digits => (Numeral.value? 10 digits).filter (· < Nat.pow 2 63) |>.map Int.ofNat

/-- The steps behind the first name of a written path. -/
def steps? (text : List Char) : Nat → Option (List Step)
  | 0 => none
  | fuel + 1 =>
    match text with
    | [] => some []
    | '.' :: rest =>
      match rest.takeWhile isNameChar with
      | [] => none
      | name =>
        (steps? (rest.dropWhile isNameChar) fuel).map (.member (String.ofList name) :: ·)
    | '[' :: rest => do
      let (inside, behind) := Text.cut ']' rest
      let position ← position? inside
      (steps? (← behind) fuel).map (.item position :: ·)
    | _ => none

/-- Reads a path of names between dots and positions in brackets. A text that is no path is a single
name. -/
def path (text : String) : List Step :=
  let chars := text.toList
  let single := [Step.member text]
  match chars.takeWhile isNameChar with
  | [] => single
  | name =>
    match steps? (chars.dropWhile isNameChar) (chars.length + 1) with
    | some steps => .member (String.ofList name) :: steps
    | none => single

end FloodGuard.Config
