import FloodGuard.Text.Numeral
import FloodGuard.Text.Pieces
import FloodGuard.Text.Utf8

/-!
The target of a request: the segments of its path and the parameters of its query. A percent sign in
front of two hexadecimal digits stands for an octet; the octets are a text in UTF-8. Resources are
told apart before the signs that have a meaning in a path are decoded, so that a segment can hold a
slash. In a query a plus sign stands for a blank.
-/
namespace FloodGuard.Api

/-- The octets of a text in which octets may be written with percent signs. Those of the kept signs
stay as they are written. -/
def unescape (kept : List Char) : List Char → List Nat
  | [] => []
  | '%' :: a :: b :: rest =>
    match (Numeral.value? 16 [a, b]).filter (· ∉ kept.map Char.toNat) with
    | some octet => octet :: unescape kept rest
    | none => '%'.toNat :: unescape kept (a :: b :: rest)
  | c :: rest => Text.toUtf8 [c] ++ unescape kept rest
termination_by text => text.length

/-- The text with its octets decoded, but for those of the kept signs. -/
def decodeExcept (kept : List Char) (text : List Char) : String :=
  String.ofList (Text.ofUtf8 (unescape kept text))

def decode (text : List Char) : String := decodeExcept [] text

/-- The signs that have a meaning in a path. -/
def pathSigns : List Char := ['%', '/', '+']

structure Target where
  /-- The segments of the path behind its first slash, with the signs that have a meaning in a path
  still encoded. -/
  path : List String
  /-- The parameters of the query in their order. -/
  query : List (String × String)
deriving DecidableEq, Repr

namespace Target

/-- A parameter; one without a value has an empty one. -/
def parameter (text : List Char) : String × String :=
  let spaced := text.map fun c => if c = '+' then ' ' else c
  let (name, value) := Text.cut '=' spaced
  (decode name, decode (value.getD []))

def parameters (text : List Char) : List (String × String) :=
  ((Text.pieces '&' text).filter fun part => !part.isEmpty).map parameter

/-- Reads a target. What follows a number sign is not part of it. -/
def parse (text : String) : Target :=
  let (path, query) := Text.cut '?' (Text.cut '#' text.toList).1
  { path := (Text.pieces '/' path).tail.map (decodeExcept pathSigns)
    query := parameters (query.getD []) }

end Target

end FloodGuard.Api
