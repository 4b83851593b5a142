import FloodGuard.Json
import FloodGuard.Text.Numeral

/-!
The tokens of a JSON text. A text is read character by character; a mode says what the characters
read so far begin. Numbers without a fraction or an exponent that fit in 64 bits are whole, and so
is no negative zero; of the digits of any other number only as many count as fit in 64 bits.
-/
namespace FloodGuard.Json

inductive Token where
  | openArr
  | closeArr
  | openObj
  | closeObj
  | comma
  | colon
  | value (leaf : Json)
deriving Repr

/-- Blanks between tokens. -/
def isGap (c : Char) : Bool := c = ' ' ∨ c = '\n' ∨ c = '\t' ∨ c = '\r'

/-- The digits that fit in 64 bits behind those of a given number, the number of digits taken, and
the number of digits left. -/
def fittingDigits (start : Nat) : List Char → Nat × Nat × Nat
  | [] => (start, 0, 0)
  | c :: rest =>
    let next := start * 10 + (c.toNat - 48)
    if next < UInt64.size then
      let (digits, taken, left) := fittingDigits next rest
      (digits, taken + 1, left)
    else (start, 0, rest.length + 1)

/-- The parts of a number. An empty fraction or exponent is a missing one. -/
structure Numeric where
  negative : Bool
  whole : List Char
  fraction : List Char
  exponentNegative : Bool
  exponent : List Char
deriving Repr

namespace Numeric

def wholeValue? (n : Numeric) : Option Int :=
  match n.fraction, n.exponent, fittingDigits 0 n.whole with
  | [], [], (digits, _, 0) =>
    if n.negative then
      if 0 < digits ∧ digits ≤ Nat.pow 2 63 then some (-digits) else none
    else some digits
  | _, _, _ => none

def floatValue? (n : Numeric) : Option Double :=
  let (whole, _, dropped) := fittingDigits 0 n.whole
  let (digits, taken, _) := fittingDigits whole n.fraction
  let power := (Numeral.value? 10 n.exponent).getD 0
  let exponent : Int := if n.exponentNegative then -power else power
  Double.ofDecimal? n.negative digits (exponent + dropped - taken)

def toJson? (n : Numeric) : Option Json :=
  match n.wholeValue? with
  | some value => some (int value)
  | none => n.floatValue?.map float

end Numeric

/-- Splits a number off the front of a text that begins with a sign or a digit. -/
def cutNumber (text : List Char) : Option (Numeric × List Char) := do
  let negative := text.head? = some '-'
  let unsigned := if negative then text.tail else text
  let whole ← match unsigned.takeWhile Char.isDigit with
    | [] => none
    | '0' :: _ :: _ => none
    | digits => some digits
  let afterWhole := unsigned.dropWhile Char.isDigit
  let (fraction, afterFraction) ← match afterWhole with
    | '.' :: rest =>
      match rest.takeWhile Char.isDigit with
      | [] => none
      | digits => some (digits, rest.dropWhile Char.isDigit)
    | _ => some ([], afterWhole)
  match afterFraction with
  | c :: rest =>
    if c = 'e' ∨ c = 'E' then
      let marked := rest.head? = some '+' ∨ rest.head? = some '-'
      let digits := if marked then rest.tail else rest
      match digits.takeWhile Char.isDigit with
      | [] => none
      | exponent =>
        some (⟨negative, whole, fraction, rest.head? = some '-', exponent⟩,
          digits.dropWhile Char.isDigit)
    else some (⟨negative, whole, fraction, false, []⟩, afterFraction)
  | [] => some (⟨negative, whole, fraction, false, []⟩, [])

/-- The character that an escape by a single letter stands for. -/
def escaped? : Char → Option Char
  | '"' => some '"'
  | '\\' => some '\\'
  | '/' => some '/'
  | 'b' => some '\x08'
  | 'f' => some '\x0c'
  | 'n' => some '\n'
  | 'r' => some '\r'
  | 't' => some '\t'
  | _ => none

def isHigh (unit : Nat) : Bool := 0xD800 ≤ unit ∧ unit ≤ 0xDBFF

def isLow (unit : Nat) : Bool := 0xDC00 ≤ unit ∧ unit ≤ 0xDFFF

/-- The body of a string and the text behind its closing quote. Half a surrogate pair is refused. -/
def cutString : List Char → Option (List Char × List Char)
  | [] => none
  | '"' :: rest => some ([], rest)
  | '\\' :: 'u' :: a :: b :: c :: d :: rest => do
    let unit ← Numeral.value? 16 [a, b, c, d]
    if isHigh unit then
      match rest with
      | '\\' :: 'u' :: e :: f :: g :: h :: others =>
        let low ← Numeral.value? 16 [e, f, g, h]
        if isLow low then
          let (body, behind) ← cutString others
          some (Char.ofNat (0x10000 + (unit - 0xD800) * 0x400 + (low - 0xDC00)) :: body, behind)
        else none
      | _ => none
    else if isLow unit then none
    else
      let (body, behind) ← cutString rest
      some (Char.ofNat unit :: body, behind)
  | '\\' :: c :: rest => do
    let escaped ← escaped? c
    let (body, behind) ← cutString rest
    some (escaped :: body, behind)
  | c :: rest =>
    if c.toNat < 0x20 ∨ c = '\\' then none
    else (cutString rest).map fun (body, behind) => (c :: body, behind)

/-- The words that are values. -/
def words : List (List Char × Json) :=
  [("null".toList, null), ("true".toList, bool true), ("false".toList, bool false)]

def cutWord (text : List Char) : Option (Json × List Char) :=
  words.findSome? fun (word, value) =>
    if word.isPrefixOf text then some (value, text.drop word.length) else none

/-- The first token of a text that does not begin with a blank, and the text behind it. -/
def cutToken (text : List Char) : Option (Token × List Char) :=
  match text with
  | [] => none
  | c :: rest =>
    if c = '[' then some (.openArr, rest)
    else if c = ']' then some (.closeArr, rest)
    else if c = '\x7b' then some (.openObj, rest)
    else if c = '\x7d' then some (.closeObj, rest)
    else if c = ',' then some (.comma, rest)
    else if c = ':' then some (.colon, rest)
    else if c = '"' then
      (cutString rest).map fun (body, behind) => (.value (str (String.ofList body)), behind)
    else if c = '-' ∨ c.isDigit then do
      let (number, behind) ← cutNumber text
      some (.value (← number.toJson?), behind)
    else (cutWord text).map fun (value, behind) => (.value value, behind)

/-- The tokens of a text. Every token takes at least one character, so the length of the text bounds
their number. -/
def scanWithin (text : List Char) : Nat → Option (List Token)
  | 0 => some []
  | fuel + 1 =>
    match text.dropWhile isGap with
    | [] => some []
    | first => do
      let (token, behind) ← cutToken first
      let tokens ← scanWithin behind fuel
      some (token :: tokens)

def scan? (text : List Char) : Option (List Token) := scanWithin text (text.length + 1)

end FloodGuard.Json
