/-
Times as the log writes them: date and time of day in UTC.

A time is a number of nanoseconds since the start of 1970.  Years are counted
from March, so that a leap day ends its year, and in eras of 400 years, which
all have the same number of days.
-/

namespace AgentHooks.Log

/-- A point in time. -/
structure Timestamp where
  nanoseconds : Nat
deriving DecidableEq, Repr

/-- A day of the calendar. -/
structure Date where
  year : Nat
  month : Nat
  day : Nat
deriving DecidableEq, Repr

namespace Date

def daysPerEra : Nat := 146097

/-- The days from March 1 of the year 0 to the start of 1970. -/
def daysBeforeEpoch : Nat := 719468

/-- The year of a day within an era. -/
def yearOfEra (day : Nat) : Nat := (day - day / 1460 + day / 36524 - day / 146096) / 365

/-- The days of an era before a year of it. -/
def daysBeforeYear (year : Nat) : Nat := 365 * year + year / 4 - year / 100

/-- The day that is a number of days after the start of 1970. -/
def ofDays (days : Nat) : Date :=
  let era := (days + daysBeforeEpoch) / daysPerEra
  let dayOfEra := (days + daysBeforeEpoch) % daysPerEra
  let year := yearOfEra dayOfEra
  let dayOfYear := dayOfEra - daysBeforeYear year
  let march := (5 * dayOfYear + 2) / 153
  let month := if march < 10 then march + 3 else march - 9
  ⟨era * 400 + year + (if month ≤ 2 then 1 else 0), month, dayOfYear - (153 * march + 2) / 5 + 1⟩

end Date

namespace Timestamp

def padded (width n : Nat) : String :=
  let digits := toString n
  String.ofList (List.replicate (width - digits.length) '0') ++ digits

/-- The digits of a fraction of a second, without the zeros at its end. -/
def fraction (nanoseconds : Nat) : String :=
  let digits := ((padded 9 nanoseconds).toList.reverse.dropWhile (· == '0')).reverse
  if digits = [] then "" else String.ofList ('.' :: digits)

def toText (t : Timestamp) : String :=
  let seconds := t.nanoseconds / 1000000000
  let date := Date.ofDays (seconds / 86400)
  let day := padded 4 date.year ++ "-" ++ padded 2 date.month ++ "-" ++ padded 2 date.day
  let time := padded 2 (seconds / 3600 % 24) ++ ":" ++ padded 2 (seconds / 60 % 60) ++ ":" ++
    padded 2 (seconds % 60)
  day ++ "T" ++ time ++ fraction (t.nanoseconds % 1000000000) ++ "Z"

end Timestamp

end AgentHooks.Log
