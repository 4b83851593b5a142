import FloodGuard.Number.Double
import FloodGuard.Text.Numeral

/-!
The shortest decimal text of a floating-point number. All reals between the two midpoints to the
neighbouring numbers round to the number, the midpoints themselves only if its significand is even.
Of the decimals in this interval the shortest one that is nearest to the number is chosen, and it is
written without an exponent.
-/
namespace FloodGuard.Double

/-- Whether the number is the smallest one with its exponent, so that its lower neighbour is
nearer. -/
def isNarrowBelow (x : Double) : Bool :=
  x.significand = Nat.pow 2 (Rounding.precision - 1) ∧ leastExponent < x.exponent

/-- Whether the decimal `digits * 10 ^ place` rounds to the magnitude of the number. -/
def covers (x : Double) (digits : Nat) (place : Int) : Bool :=
  let unit := Nat.pow 2 x.exponent.toNat * Nat.pow 10 (-place).toNat
  let decimal := 4 * digits * Nat.pow 10 place.toNat * Nat.pow 2 (-x.exponent).toNat
  let low := (4 * x.significand - if x.isNarrowBelow then 1 else 2) * unit
  let high := (4 * x.significand + 2) * unit
  if x.significand % 2 = 0 then low ≤ decimal ∧ decimal ≤ high
  else low < decimal ∧ decimal < high

/-- The decimals next to the magnitude with the given last place, below and above. -/
def neighbours (x : Double) (place : Int) : Nat × Nat :=
  let digits := x.quotient.1 * Nat.pow 10 (-place).toNat / (x.quotient.2 * Nat.pow 10 place.toNat)
  (digits, digits + 1)

/-- The nearest of the decimals with the given last place that round to the magnitude. -/
def decimalAt? (x : Double) (place : Int) : Option Nat :=
  let (below, above) := x.neighbours place
  let position := 2 * x.quotient.1 * Nat.pow 10 (-place).toNat
  let middle := (below + above) * x.quotient.2 * Nat.pow 10 place.toNat
  match x.covers below place, x.covers above place with
  | true, true => some (if position < middle then below else above)
  | true, false => some below
  | false, true => some above
  | false, false => none

/-- The first place, from the given one downwards, at which a decimal rounds to the magnitude. -/
def searchDown (x : Double) (place : Int) : Nat → Nat × Int
  | 0 => (x.significand, place)
  | fuel + 1 =>
    match x.decimalAt? place with
    | some digits => (digits, place)
    | none => x.searchDown (place - 1) fuel

/-- A place above the first digit of any number. -/
def topPlace : Int := 310

/-- The number of places between the top one and the last place of the smallest number. -/
def placeCount : Nat := 660

/-- The digits and the place of the last digit of the shortest decimal of a magnitude. -/
def shortest (x : Double) : Nat × Int :=
  if x.isZero then (0, 0) else x.searchDown topPlace placeCount

/-- Decimal digits with the point at a place and no exponent. -/
def positional (digits : Nat) (place : Int) : List Char :=
  if 0 ≤ place then Numeral.write 10 (digits * Nat.pow 10 place.toNat)
  else
    let places := (-place).toNat
    let fraction := Numeral.write 10 (digits % Nat.pow 10 places)
    Numeral.write 10 (digits / Nat.pow 10 places) ++ '.' ::
      (List.replicate (places - fraction.length) '0' ++ fraction)

/-- The shortest text; a whole number is written without a point. -/
def chars (x : Double) : List Char :=
  let (digits, place) := x.shortest
  (if x.negative then ['-'] else []) ++ positional digits place

end FloodGuard.Double
