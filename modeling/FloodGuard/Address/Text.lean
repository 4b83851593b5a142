import FloodGuard.Address
import FloodGuard.Number.Positional
import FloodGuard.Text.Numeral
import FloodGuard.Text.Pieces

/-!
The text of an address. A version 4 address is written as four decimal octets without leading zeros.
A version 6 address is written as eight hexadecimal groups, the longest run of at least two zero
groups (the first of them, if several are longest) shortened to two colons; an address that carries
a version 4 address behind the mark `ffff` shows it in decimal. Reading accepts every placement of
the two colons, leading zeros up to four digits, and a version 4 tail for the last two groups.
-/
namespace FloodGuard.Address

/-- One to three decimal digits without a leading zero, of value below 256. -/
def octet? (text : List Char) : Option Nat :=
  if text.head? = some '0' ∧ text.length ≠ 1 then none
  else (Numeral.value? 10 text).filter (· < 256)

/-- Four octets between dots. -/
def octets? (text : List Char) : Option (List Nat) := do
  let octets ← (Text.pieces '.' text).mapM octet?
  if octets.length = 4 then some octets else none

/-- One to four hexadecimal digits. -/
def group? (text : List Char) : Option Nat :=
  if text.length ≤ 4 then Numeral.value? 16 text else none

/-- Groups, of which the last two may be written as one version 4 address. -/
def groups? : List (List Char) → Option (List Nat)
  | [] => some []
  | [last] =>
    match group? last with
    | some group => some [group]
    | none => (octets? last).map fun octets => Positional.split 65536 2 (Positional.join 256 octets)
  | first :: second :: rest => do
    let group ← group? first
    let groups ← groups? (second :: rest)
    some (group :: groups)

/-- The text before and after the first two colons in a row. -/
def cutDouble : List Char → Option (List Char × List Char)
  | [] => none
  | c :: rest =>
    if c = ':' ∧ rest.head? = some ':' then some ([], rest.tail)
    else (cutDouble rest).map fun halves => (c :: halves.1, halves.2)

/-- The eight groups of a version 6 address. Two colons stand for at least one zero group. -/
def allGroups? (text : List Char) : Option (List Nat) :=
  match cutDouble text with
  | none => (groups? (Text.pieces ':' text)).filter (·.length = 8)
  | some (front, back) => do
    let head ← if front.isEmpty then some [] else (Text.pieces ':' front).mapM group?
    let tail ← if back.isEmpty then some [] else groups? (Text.pieces ':' back)
    if head.length + tail.length < 8 then
      some (head ++ List.replicate (8 - head.length - tail.length) 0 ++ tail)
    else none

def v4? (text : List Char) : Option Address :=
  (octets? text).map fun octets => .v4 (BitVec.ofNat 32 (Positional.join 256 octets))

def v6? (text : List Char) : Option Address :=
  (allGroups? text).map fun groups => .v6 (BitVec.ofNat 128 (Positional.join 65536 groups))

/-- Reads an address of either family. -/
def ofChars? (text : List Char) : Option Address := (v4? text).or (v6? text)

def parse? (text : String) : Option Address := ofChars? text.toList

/-- The octets of a version 4 address. -/
def octets (a : BitVec 32) : List Nat := Positional.split 256 4 a.toNat

/-- The groups of a version 6 address. -/
def groups (a : BitVec 128) : List Nat := Positional.split 65536 8 a.toNat

def charsOfOctets (octets : List Nat) : List Char :=
  Text.joinWith ['.'] (octets.map (Numeral.write 10))

def charsOfGroups (groups : List Nat) : List Char :=
  Text.joinWith [':'] (groups.map (Numeral.write 16))

/-- The number of zeros at the front of a list. -/
def leadingZeros (groups : List Nat) : Nat := (groups.takeWhile (· = 0)).length

/-- Where the longest run of zeros starts and how long it is; the first one, if several are
longest. -/
def longestRun : List Nat → Nat × Nat
  | [] => (0, 0)
  | group :: rest =>
    let here := leadingZeros (group :: rest)
    let later := longestRun rest
    if later.2 ≤ here then (0, here) else (later.1 + 1, later.2)

/-- The text of eight groups, with the longest run of at least two zeros shortened. -/
def shortened (groups : List Nat) : List Char :=
  let run := longestRun groups
  if 2 ≤ run.2 then
    charsOfGroups (groups.take run.1) ++ [':', ':'] ++ charsOfGroups (groups.drop (run.1 + run.2))
  else charsOfGroups groups

/-- The version 4 address that a version 6 address carries, if it is a mapped one. -/
def mapped? (groups : List Nat) : Option (List Nat) :=
  if groups.take 6 = [0, 0, 0, 0, 0, 0xFFFF] then
    some (Positional.split 256 4 (Positional.join 65536 (groups.drop 6)))
  else none

def chars : Address → List Char
  | .v4 a => charsOfOctets (octets a)
  | .v6 a =>
    match mapped? (groups a) with
    | some tail => ':' :: ':' :: 'f' :: 'f' :: 'f' :: 'f' :: ':' :: charsOfOctets tail
    | none => shortened (groups a)

def text (a : Address) : String := String.ofList a.chars

end FloodGuard.Address
