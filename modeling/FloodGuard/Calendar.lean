import FloodGuard.Text.Numeral

/-!
Dates and times of day for seconds counted from the beginning of 1970, in the calendar that repeats
every four hundred years, and their text.
-/
namespace FloodGuard.Calendar

structure Date where
  year : Int
  month : Nat
  day : Nat
deriving DecidableEq, Repr

/-- The days in four hundred years. -/
def cycleDays : Nat := 146097

/-- The days from the first of March of the year 0 to the beginning of 1970. -/
def epochDays : Nat := 719468

/-- The year within a cycle, for a number of days since a first of March that begins one. -/
def yearOfCycle (day : Nat) : Nat := (day - day / 1460 + day / 36524 - day / 146096) / 365

/-- The days before a year of a cycle. -/
def daysBefore (year : Nat) : Nat := 365 * year + year / 4 - year / 100

/-- The date of a day, counted from the beginning of 1970. Years are counted from March first. -/
def date (days : Int) : Date :=
  let shifted := days + epochDays
  let cycle := shifted.fdiv cycleDays
  let dayOfCycle := (shifted.fmod cycleDays).toNat
  let year := yearOfCycle dayOfCycle
  let dayOfYear := dayOfCycle - daysBefore year
  let month := (5 * dayOfYear + 2) / 153
  let day := dayOfYear - (153 * month + 2) / 5 + 1
  if month < 10 then ⟨cycle * 400 + year, month + 3, day⟩
  else ⟨cycle * 400 + year + 1, month - 9, day⟩

/-- A number with at least `width` digits. -/
def padded (width n : Nat) : List Char :=
  let digits := Numeral.write 10 n
  List.replicate (width - digits.length) '0' ++ digits

/-- A year has four digits; one that cannot be written so has a sign. -/
def yearChars (year : Int) : List Char :=
  if year < 0 then '-' :: padded 4 year.natAbs
  else if 9999 < year then '+' :: padded 4 year.natAbs
  else padded 4 year.natAbs

/-- The years that have a text. -/
def firstYear : Int := -262143

def lastYear : Int := 262142

/-- Date and time of day in universal time, if the year has a text. -/
def text? (seconds : Int) : Option String :=
  let d := date (seconds.fdiv 86400)
  let second := (seconds.fmod 86400).toNat
  if firstYear ≤ d.year ∧ d.year ≤ lastYear then
    some (String.ofList (yearChars d.year ++ '-' :: padded 2 d.month ++ '-' :: padded 2 d.day ++
      'T' :: padded 2 (second / 3600) ++ ':' :: padded 2 (second / 60 % 60) ++
      ':' :: padded 2 (second % 60) ++ "+00:00".toList))
  else none

end FloodGuard.Calendar
