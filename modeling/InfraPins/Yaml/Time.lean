import InfraPins.Datum.Basic
import InfraPins.Text.Digit
import InfraPins.Yaml.Cursor
import InfraPins.Yaml.Resolution

namespace InfraPins.Yaml.Time

open Text Resolution

/-- A number as at least so many decimal digits. -/
def padded (width number : Nat) : String :=
  let digits := Nat.toDigits 10 number
  String.ofList (List.replicate (width - digits.length) '0' ++ digits)

/-- Whether a year has a day more than others. -/
def isLeap (year : Nat) : Bool :=
  year % 4 = 0 && (year % 100 ≠ 0 || year % 400 = 0)

def daysIn (year month : Nat) : Nat :=
  if month = 2 then if isLeap year then 29 else 28
  else if month = 4 || month = 6 || month = 9 || month = 11 then 30
  else 31

structure Date where
  year : Nat
  month : Nat
  day : Nat
  deriving DecidableEq, Repr

/-- A date whose parts are in range. -/
def Date.checked (date : Date) : Except Fault Date :=
  if date.year = 0 then .error (.noValue "year 0 is out of range")
  else if date.month = 0 ∨ 12 < date.month then .error (.noValue "month must be in 1..12")
  else if date.day = 0 ∨ daysIn date.year date.month < date.day then
    .error (.noValue "day is out of range for month")
  else .ok date

def Date.plain (date : Date) : String :=
  padded 4 date.year ++ "-" ++ padded 2 date.month ++ "-" ++ padded 2 date.day

/-- The parts of a date, named in order. -/
def Date.listed (date : Date) : List Nat :=
  [date.year, date.month, date.day]

structure Clock where
  hour : Nat
  minute : Nat
  second : Nat
  microsecond : Nat
  deriving DecidableEq, Repr

/-- A time of the day whose parts are in range. -/
def Clock.checked (clock : Clock) : Except Fault Clock :=
  if 23 < clock.hour then .error (.noValue "hour must be in 0..23")
  else if 59 < clock.minute then .error (.noValue "minute must be in 0..59")
  else if 59 < clock.second then .error (.noValue "second must be in 0..59")
  else .ok clock

/-- The plain text of a time of the day. -/
def Clock.plain (clock : Clock) : String :=
  padded 2 clock.hour ++ ":" ++ padded 2 clock.minute ++ ":" ++ padded 2 clock.second
    ++ (if clock.microsecond = 0 then "" else "." ++ padded 6 clock.microsecond)

/-- The parts of a time of the day in order; seconds and what is below them only as far as they are
not zero. -/
def Clock.listed (clock : Clock) : List Nat :=
  if clock.microsecond ≠ 0 then [clock.hour, clock.minute, clock.second, clock.microsecond]
  else if clock.second ≠ 0 then [clock.hour, clock.minute, clock.second]
  else [clock.hour, clock.minute]

/-- The minutes that a zone is ahead of universal time. -/
def offset : Option (Char × List Char × List Char) → Int
  | none => 0
  | some (sign, hours, minutes) =>
    let size : Int := decimalNumber hours * 60 + decimalNumber minutes
    if sign == '-' then -size else size

/-- The span of some minutes with its parts named. -/
def spanText (minutes : Int) : String :=
  let days := minutes.fdiv 1440
  let seconds := minutes.fmod 1440 * 60
  let parts := (if days = 0 then [] else ["days=" ++ toString days])
    ++ (if seconds = 0 then [] else ["seconds=" ++ toString seconds])
  "datetime.timedelta(" ++ (if parts.isEmpty then "0" else ", ".intercalate parts) ++ ")"

def zonePlain (minutes : Int) : String :=
  (if minutes < 0 then "-" else "+") ++ padded 2 (minutes.natAbs / 60) ++ ":"
    ++ padded 2 (minutes.natAbs % 60)

/-- A zone with its parts named. -/
def zoneText (minutes : Int) : String :=
  if minutes = 0 then "datetime.timezone.utc" else "datetime.timezone(" ++ spanText minutes ++ ")"

/-- A zone that is less than a day away from universal time. -/
def checkedZone (minutes : Int) : Except Fault Int :=
  if minutes.natAbs < 1440 then .ok minutes
  else .error (.noValue ("offset must be a timedelta strictly between -timedelta(hours=24) and "
    ++ "timedelta(hours=24), not " ++ spanText minutes ++ "."))

def commas (numbers : List Nat) : String :=
  ", ".intercalate (numbers.map toString)

/-- The first six digits of a fraction of a second, filled up with zeros. -/
def microseconds (fraction : List Char) : Nat :=
  let kept := fraction.take 6
  decimalNumber (kept ++ List.replicate (6 - kept.length) '0')

def ofParts (parts : TimeParts) : Except Fault Datum := do
  let date : Date :=
    ⟨decimalNumber parts.year, decimalNumber parts.month, decimalNumber parts.day⟩
  match parts.clock with
  | none =>
    let date ← date.checked
    return .stamp date.plain ("datetime.date(" ++ commas date.listed ++ ")")
  | some (hour, minute, second) =>
    let zone ← parts.zone.mapM fun zone => checkedZone (offset zone)
    let date ← date.checked
    let clock ← Clock.checked ⟨decimalNumber hour, decimalNumber minute, decimalNumber second,
      microseconds parts.fraction⟩
    let zonePart := match zone with
      | some minutes => ", tzinfo=" ++ zoneText minutes
      | none => ""
    return .stamp (date.plain ++ " " ++ clock.plain ++ (zone.map zonePlain).getD "")
      ("datetime.datetime(" ++ commas (date.listed ++ clock.listed) ++ zonePart ++ ")")

/-- The value of a text under the tag of times. -/
def ofText (text : String) : Except Fault Datum :=
  match timeParts? text.toList with
  | some parts => ofParts parts
  | none => .error .noTime

end InfraPins.Yaml.Time
