import FloodGuard.Number.Rounding

/-!
Finite floating-point numbers of 64 bits. A number is a significand of at most 53 bits times a power
of two, with a sign. Results that are no such number are rounded to the nearest one, half way to the
even significand; a result beyond the largest number has no value.
-/
namespace FloodGuard

structure Double where
  negative : Bool
  significand : Nat
  exponent : Int
deriving DecidableEq, Repr

namespace Double

/-- The exponent of the smallest numbers. -/
def leastExponent : Int := -1074

/-- The exponent of the largest numbers. -/
def greatestExponent : Int := 971

def zero (negative : Bool) : Double := ⟨negative, 0, leastExponent⟩

def isZero (x : Double) : Bool := x.significand = 0

/-- The greatest power of two, given by its exponent, that is at most a positive quotient. -/
def log2Quotient (n d : Nat) : Int :=
  let guess : Int := (n.log2 : Int) - d.log2
  if d * Nat.pow 2 guess.toNat ≤ n * Nat.pow 2 (-guess).toNat then guess else guess - 1

/-- The number nearest to a quotient, if it is not beyond the largest number. -/
def ofQuotient? (negative : Bool) (n d : Nat) : Option Double :=
  if n = 0 then some (zero negative)
  else
    let exponent := max (log2Quotient n d - (Rounding.precision - 1)) leastExponent
    let significand :=
      Rounding.divNearest (n * Nat.pow 2 (-exponent).toNat) (d * Nat.pow 2 exponent.toNat)
    let rounded : Double :=
      if significand = Nat.pow 2 Rounding.precision then ⟨negative, significand / 2, exponent + 1⟩
      else ⟨negative, significand, exponent⟩
    if rounded.exponent ≤ greatestExponent then some rounded else none

/-- The magnitude of a number as a quotient. -/
def quotient (x : Double) : Nat × Nat :=
  (x.significand * Nat.pow 2 x.exponent.toNat, Nat.pow 2 (-x.exponent).toNat)

def mul? (x y : Double) : Option Double :=
  ofQuotient? (x.negative != y.negative) (x.quotient.1 * y.quotient.1) (x.quotient.2 * y.quotient.2)

/-- The rounded quotient of two numbers. There is none for a divisor of zero. -/
def div? (x y : Double) : Option Double :=
  if y.isZero then none
  else
    ofQuotient? (x.negative != y.negative) (x.quotient.1 * y.quotient.2)
      (x.quotient.2 * y.quotient.1)

def ofNat? (n : Nat) : Option Double := ofQuotient? false n 1

/-- Multiplies by the number nearest to a power of ten, or divides by it for a negative exponent. -/
def scale? (x : Double) (exponent : Int) : Option Double := do
  let power ← ofNat? (Nat.pow 10 exponent.natAbs)
  if 0 ≤ exponent then x.mul? power else x.div? power

/-- The greatest power of ten that is a number. -/
def greatestPower : Nat := 308

/-- Scales a magnitude by a power of ten, of which a very negative one is applied in steps. -/
def scaleFar? (x : Double) (exponent : Int) : Nat → Option Double
  | 0 => none
  | steps + 1 =>
    if exponent.natAbs ≤ greatestPower then x.scale? exponent
    else if x.isZero then some x
    else if 0 ≤ exponent then none
    else do (← x.scale? (-greatestPower)).scaleFar? (exponent + greatestPower) steps

/-- A decimal literal: the digits are rounded first, the power of ten is applied then. Three steps
of the greatest power turn any 64-bit digits into zero. -/
def ofDecimal? (negative : Bool) (digits : Nat) (exponent : Int) : Option Double := do
  let magnitude ← (← ofNat? digits).scaleFar? exponent 4
  some { magnitude with negative }

/-- The magnitude rounded to a whole number, a half away from zero. -/
def roundMagnitude (x : Double) : Nat :=
  (2 * x.quotient.1 + x.quotient.2) / (2 * x.quotient.2)

end Double

end FloodGuard
