import Clausal.Decimal.Shortest

/-!
Instants, and how they are written: as seconds, and by the calendar. The calendar is the Gregorian one,
extended to all times.
-/

set_option autoImplicit false

namespace Clausal

/-- A number of microseconds since the beginning of the year 1970. -/
structure Instant where
  microseconds : Nat
  deriving DecidableEq

namespace Instant

def seconds (instant : Instant) : Float := Float.ofScientific instant.microseconds true 6

structure Date where
  year : Nat
  month : Nat
  day : Nat
  deriving DecidableEq

/-- The date of a day, counted from the beginning of the year 1970. The count is moved to the first of
March of the year zero, so that the leap day is the last day of a year, and cut into eras of 400 years. -/
def dateOf (days : Nat) : Date :=
  let shifted := days + 719468
  let era := shifted / 146097
  let dayOfEra := shifted % 146097
  let yearOfEra := (dayOfEra - dayOfEra / 1460 + dayOfEra / 36524 - dayOfEra / 146096) / 365
  let dayOfYear := dayOfEra - (365 * yearOfEra + yearOfEra / 4 - yearOfEra / 100)
  let shiftedMonth := (5 * dayOfYear + 2) / 153
  let month := if shiftedMonth < 10 then shiftedMonth + 3 else shiftedMonth - 9
  { year := era * 400 + yearOfEra + if month ≤ 2 then 1 else 0
    month
    day := dayOfYear - (153 * shiftedMonth + 2) / 5 + 1 }

def padded (width value : Nat) : String :=
  String.ofList (Decimal.padLeft width (Nat.toDigits 10 value))

/-- Year, month and day, joined by hyphens. -/
def date (instant : Instant) : String :=
  let date := dateOf (instant.microseconds / 86400000000)
  padded 4 date.year ++ "-" ++ padded 2 date.month ++ "-" ++ padded 2 date.day

/-- Hours, minutes and seconds, joined by colons. -/
def time (instant : Instant) : String :=
  let seconds := instant.microseconds / 1000000 % 86400
  padded 2 (seconds / 3600) ++ ":" ++ padded 2 (seconds / 60 % 60) ++ ":" ++ padded 2 (seconds % 60)

/-- Date and time with milliseconds, as log lines show it. -/
def stamp (instant : Instant) : String :=
  instant.date ++ " " ++ instant.time ++ "," ++ padded 3 (instant.microseconds / 1000 % 1000)

/-- Date and time joined by the letter T, with microseconds unless there are none. -/
def iso (instant : Instant) : String :=
  let fraction := instant.microseconds % 1000000
  instant.date ++ "T" ++ instant.time
    ++ (if fraction = 0 then "" else "." ++ padded 6 fraction)

example : dateOf 0 = ⟨1970, 1, 1⟩ ∧ dateOf 19782 = ⟨2024, 2, 29⟩ ∧ dateOf 19783 = ⟨2024, 3, 1⟩ := by
  decide

end Instant

end Clausal
