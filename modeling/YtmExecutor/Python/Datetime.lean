/-
Instants and their UTC calendar.

An instant is a number of microseconds since 1970-01-01T00:00:00Z.  The calendar is the
proleptic Gregorian one, with years counted from March so that a leap day comes last.
-/
import YtmExecutor.Python.Text

namespace Python

/-- Microseconds since the epoch. -/
abbrev Instant := ℤ

def microsecondsPerSecond : ℤ := 1000000

def microsecondsPerDay : ℤ := 86400 * microsecondsPerSecond

structure CivilDate where
  (year month day : ℤ)

/-- The date of a day counted from the epoch. -/
def civilDate (days : ℤ) : CivilDate :=
  let shifted := days + 719468
  let era := shifted / 146097
  let dayOfEra := shifted % 146097
  let yearOfEra := (dayOfEra - dayOfEra / 1460 + dayOfEra / 36524 - dayOfEra / 146096) / 365
  let dayOfYear := dayOfEra - (365 * yearOfEra + yearOfEra / 4 - yearOfEra / 100)
  let marchMonth := (5 * dayOfYear + 2) / 153
  let month := if marchMonth < 10 then marchMonth + 3 else marchMonth - 9
  ⟨yearOfEra + era * 400 + (if month ≤ 2 then 1 else 0), month,
    dayOfYear - (153 * marchMonth + 2) / 5 + 1⟩

/-- A non-negative number in at least `width` digits. -/
def padNumber (width : ℕ) (n : ℤ) : String :=
  let ds := Nat.toDigits 10 n.toNat
  String.ofList (List.replicate (width - ds.length) '0' ++ ds)

/-- `timestamp.date().isoformat()`. -/
def utcDate (t : Instant) : String :=
  let date := civilDate (t / microsecondsPerDay)
  padNumber 4 date.year ++ "-" ++ padNumber 2 date.month ++ "-" ++ padNumber 2 date.day

/-- `timestamp.isoformat()` with the offset written as `Z`. -/
def utcTimestamp (t : Instant) : String :=
  let microseconds := t % microsecondsPerDay
  let seconds := microseconds / microsecondsPerSecond
  let fraction := microseconds % microsecondsPerSecond
  utcDate t ++ "T" ++ padNumber 2 (seconds / 3600) ++ ":" ++ padNumber 2 (seconds / 60 % 60)
    ++ ":" ++ padNumber 2 (seconds % 60)
    ++ (if fraction = 0 then "" else "." ++ padNumber 6 fraction) ++ "Z"

end Python
