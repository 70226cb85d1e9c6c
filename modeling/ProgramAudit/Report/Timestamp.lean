import ProgramAudit.Failure
import ProgramAudit.Number.Fixed

namespace ProgramAudit.Report.Timestamp

/-- A point of time in universal time: whole seconds since 1970 and microseconds. -/
structure Instant where
  seconds : Int
  microseconds : Nat

/-- Rounds a double to an integer; a half goes to the even neighbour. -/
def nearestInteger (x : Float) : Int :=
  match Number.binaryOf x with
  | .finite negative mantissa exponent =>
    let magnitude : Int := Number.scaledMagnitude 0 mantissa exponent
    if negative then -magnitude else magnitude
  | _ => 0

def ofWhole (whole micros : Int) : Instant :=
  if 1000000 ≤ micros then ⟨whole + 1, (micros - 1000000).toNat⟩
  else if micros < 0 then ⟨whole - 1, (micros + 1000000).toNat⟩
  else ⟨whole, micros.toNat⟩

def outOfRange : Failure := .fault .overflow "timestamp out of range for platform time_t"

def largestSecond : Int := Number.twoTo 63 - 1

/-- The instant of a number of seconds, to the nearest microsecond. -/
def instantOf : Number → Result Instant
  | .int seconds => .ok ⟨seconds, 0⟩
  | .real seconds =>
    match Number.integerPart? seconds with
    | some whole =>
      let fraction := seconds - Float.ofInt whole
      .ok (ofWhole whole (nearestInteger (fraction * 1000000.0)))
    | none =>
      if Number.isUndefined seconds then
        .error (.invalidValue "Invalid value NaN (not a number)")
      else .error outOfRange

/-- A day of the proleptic Gregorian calendar. -/
structure Date where
  year : Int
  month : Int
  day : Int
deriving DecidableEq

/-- The date of a number of days since 1970. Years are counted from March, in cycles of four
hundred years. -/
def dateOf (days : Int) : Date :=
  let shifted := days + 719468
  let cycle := Int.fdiv shifted 146097
  let inCycle := shifted - cycle * 146097
  let yearInCycle := (inCycle - inCycle / 1460 + inCycle / 36524 - inCycle / 146096) / 365
  let inYear := inCycle - (365 * yearInCycle + yearInCycle / 4 - yearInCycle / 100)
  let fromMarch := (5 * inYear + 2) / 153
  let month := if fromMarch < 10 then fromMarch + 3 else fromMarch - 9
  let year := yearInCycle + cycle * 400
  { year := if month ≤ 2 then year + 1 else year
    month
    day := inYear - (153 * fromMarch + 2) / 5 + 1 }

def checkRange (instant : Instant) (year : Int) : Result Unit :=
  if largestSecond < instant.seconds ∨ instant.seconds < -largestSecond - 1 then .error outOfRange
  else if year < 1900 - Number.twoTo 31 ∨ 1900 + Number.twoTo 31 ≤ year then
    .error (.fault .pastClock "[Errno 75] Value too large for defined data type")
  else if year < 1 ∨ 9999 < year then .error (.invalidValue s!"year {year} is out of range")
  else .ok ()

def padded (width : Nat) (value : Int) : String :=
  String.ofList (Number.padLeft width (Nat.toDigits 10 value.toNat))

def secondsPerDay : Int := 86400

/-- The text of an instant: date, time, microseconds if there are any, and the zone. -/
def text (instant : Instant) : Result String := do
  let days := Int.fdiv instant.seconds secondsPerDay
  let inDay := instant.seconds - days * secondsPerDay
  let date := dateOf days
  checkRange instant date.year
  let fraction :=
    if instant.microseconds = 0 then "" else "." ++ padded 6 instant.microseconds
  return padded 4 date.year ++ "-" ++ padded 2 date.month ++ "-" ++ padded 2 date.day ++ "T"
    ++ padded 2 (inDay / 3600) ++ ":" ++ padded 2 (inDay / 60 % 60) ++ ":" ++ padded 2 (inDay % 60)
    ++ fraction ++ "+00:00"

def ofSeconds (seconds : Number) : Result String := do
  text (← instantOf seconds)

end ProgramAudit.Report.Timestamp
