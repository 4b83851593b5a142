import FloodGuard.Json.Token
import FloodGuard.Number.Shortest
import FloodGuard.Text.Pieces

/-!
The text of a JSON value. Reading takes the tokens one by one and keeps the arrays and objects that
are open on a stack; of several members with one name the last is kept, and nesting has a limit.
Writing leaves no blanks and escapes only what has to be escaped.
-/
namespace FloodGuard.Json

/-- The number of arrays and objects that may be open at once. -/
def nestingLimit : Nat := 127

/-- An array or an object of which a part is read. An object may be waiting for the value of a
member. -/
inductive Open where
  | arr (items : List Json)
  | obj (members : List (String × Json)) (name : Option String)
deriving Repr

/-- What may come next: a value, a value or the end of an empty container, a comma or the end of the
container, a colon, the name of a member, or nothing more. -/
inductive Expected where
  | value
  | firstItem
  | firstName
  | name
  | colon
  | separator
  | nothing
deriving DecidableEq, Repr

structure Reading where
  stack : List Open := []
  expected : Expected := .value
  result : Option Json := none
deriving Repr

namespace Reading

/-- Puts a finished value where it belongs. -/
def finish (r : Reading) (value : Json) : Option Reading :=
  match r.stack with
  | [] => some { stack := [], expected := .nothing, result := some value }
  | .arr items :: rest =>
    some { r with stack := .arr (items ++ [value]) :: rest, expected := .separator }
  | .obj members (some name) :: rest =>
    some { r with stack := .obj (put name value members) none :: rest, expected := .separator }
  | .obj _ none :: _ => none

def descend (r : Reading) (container : Open) (expected : Expected) : Option Reading :=
  if r.stack.length < nestingLimit then
    some { r with stack := container :: r.stack, expected }
  else none

def ascend (r : Reading) : Option Reading :=
  match r.stack with
  | .arr items :: rest => ({ r with stack := rest }).finish (.arr items)
  | .obj members none :: rest => ({ r with stack := rest }).finish (.obj members)
  | _ => none

def step (r : Reading) (token : Token) : Option Reading :=
  match r.expected, token with
  | .value, .openArr | .firstItem, .openArr => r.descend (.arr []) .firstItem
  | .value, .openObj | .firstItem, .openObj => r.descend (.obj [] none) .firstName
  | .value, .value leaf | .firstItem, .value leaf => r.finish leaf
  | .firstItem, .closeArr => r.ascend
  | .firstName, .closeObj => r.ascend
  | .firstName, .value (.str name) | .name, .value (.str name) =>
    match r.stack with
    | .obj members none :: rest =>
      some { r with stack := .obj members (some name) :: rest, expected := .colon }
    | _ => none
  | .colon, .colon => some { r with expected := .value }
  | .separator, .comma =>
    match r.stack with
    | .arr _ :: _ => some { r with expected := .value }
    | .obj _ _ :: _ => some { r with expected := .name }
    | [] => none
  | .separator, .closeArr =>
    match r.stack with
    | .arr _ :: _ => r.ascend
    | _ => none
  | .separator, .closeObj =>
    match r.stack with
    | .obj _ _ :: _ => r.ascend
    | _ => none
  | _, _ => none

end Reading

def ofTokens? (tokens : List Token) : Option Json := do
  let r ← tokens.foldlM Reading.step {}
  if r.stack.isEmpty then r.result else none

def ofChars? (text : List Char) : Option Json := do ofTokens? (← scan? text)

def parse? (text : String) : Option Json := ofChars? text.toList

/-- A character as it stands in a string. -/
def charsOfChar (c : Char) : List Char :=
  if c = '"' then ['\\', '"']
  else if c = '\\' then ['\\', '\\']
  else if c.toNat < 0x20 then
    '\\' :: 'u' :: '0' :: '0' :: (if c.toNat < 0x10 then ['0'] else []) ++
      Numeral.write 16 c.toNat
  else [c]

def charsOfString (text : String) : List Char :=
  '"' :: text.toList.flatMap charsOfChar ++ ['"']

mutual

def chars : Json → List Char
  | null => "null".toList
  | bool true => "true".toList
  | bool false => "false".toList
  | int n => Numeral.signed n
  | float x => x.chars
  | str text => charsOfString text
  | arr items => '[' :: Text.joinWith [','] (charsOfItems items) ++ [']']
  | obj members => '\x7b' :: Text.joinWith [','] (charsOfMembers members) ++ ['\x7d']

def charsOfItems : List Json → List (List Char)
  | [] => []
  | item :: rest => item.chars :: charsOfItems rest

def charsOfMembers : List (String × Json) → List (List Char)
  | [] => []
  | (name, value) :: rest => (charsOfString name ++ ':' :: value.chars) :: charsOfMembers rest

end

def text (value : Json) : String := String.ofList value.chars

end FloodGuard.Json
