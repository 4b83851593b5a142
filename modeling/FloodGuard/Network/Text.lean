import FloodGuard.Address.Text
import FloodGuard.Network
import FloodGuard.Text.Blank

/-!
The text of a network: an address, a slash and a length. Reading ignores blanks around the text and
takes an address without a length for the network of that address alone.
-/
namespace FloodGuard.Network

/-- The largest length that can be written; a longer number is not a length at all. -/
def largestLength : Nat := 255

def text (n : Network) : String := n.address.text ++ "/" ++ n.length.repr

/-- Reads trimmed text. The length is read before the address, and checked against the family
last. -/
def ofChars (chars : List Char) : Except NetworkError Network :=
  let malformed := NetworkError.malformed (String.ofList chars)
  match Text.cut '/' chars with
  | (address, none) =>
    match Address.ofChars? address with
    | some a => .ok (host a)
    | none => .error malformed
  | (address, some length) =>
    match Numeral.bounded? largestLength length, Address.ofChars? address with
    | some n, some a => around a n
    | _, _ => .error malformed

def parse (text : String) : Except NetworkError Network := ofChars (Text.trim text.toList)

end FloodGuard.Network
