import TrafficKey.Text.Blank

/-!
# Dates and moments

Calendar values that a data file can hold, with their plain and their debug texts.
-/

namespace TrafficKey

/-- A day of the calendar. -/
structure Date where
  year : Nat
  month : Nat
  day : Nat
deriving DecidableEq, Repr

/-- A time of day on some day, perhaps with the distance from universal time in minutes. -/
structure Moment where
  date : Date
  hour : Nat
  minute : Nat
  second : Nat
  micro : Nat
  zone : Option Int
deriving DecidableEq, Repr

/-- A number with at least `width` digits. -/
def padded (width n : Nat) : String :=
  let digits := Nat.toDigits 10 n
  String.ofList (List.replicate (width - digits.length) '0' ++ digits)

namespace Date

/-- Whether a year has a 29 February. -/
def isLeap (year : Nat) : Bool :=
  year % 4 == 0 && (year % 100 != 0 || year % 400 == 0)

/-- The number of days of a month. -/
def daysIn (year month : Nat) : Nat :=
  if month == 2 then if isLeap year then 29 else 28
  else if month == 4 || month == 6 || month == 9 || month == 11 then 30
  else 31

/-- How many days there are up to a date, the first day of the first year being day 1. -/
def ordinal (d : Date) : Nat :=
  let years := d.year - 1
  365 * years + years / 4 - years / 100 + years / 400 +
    (List.range (d.month - 1)).foldl (fun days m => days + daysIn d.year (m + 1)) 0 + d.day

/-- What is wrong with a date, if anything. -/
def fault? (d : Date) : Option String :=
  if d.year < 1 || 9999 < d.year then some ("year " ++ toString d.year ++ " is out of range")
  else if d.month < 1 || 12 < d.month then some "month must be in 1..12"
  else if d.day < 1 || daysIn d.year d.month < d.day then some "day is out of range for month"
  else none

/-- A date as `2020-01-02`. -/
def text (d : Date) : String :=
  padded 4 d.year ++ "-" ++ padded 2 d.month ++ "-" ++ padded 2 d.day

/-- The fields of a date, separated by commas. -/
def fields (d : Date) : String :=
  Text.join ", " [toString d.year, toString d.month, toString d.day]

/-- A date as debug output shows it. -/
def debugText (d : Date) : String :=
  "datetime.date(" ++ d.fields ++ ")"

end Date

/-- A span of minutes as debug output shows it: days, which may be negative, and seconds. -/
def spanText (minutes : Int) : String :=
  let seconds := minutes * 60
  let days := seconds / 86400
  let rest := seconds % 86400
  let parts := (if days = 0 then [] else ["days=" ++ toString days]) ++
    (if rest = 0 then [] else ["seconds=" ++ toString rest])
  "datetime.timedelta(" ++ (if parts.isEmpty then "0" else Text.join ", " parts) ++ ")"

namespace Moment

/-- What is wrong with a moment, if anything. -/
def fault? (m : Moment) : Option String :=
  match m.date.fault? with
  | some fault => some fault
  | none =>
    if 23 < m.hour then some "hour must be in 0..23"
    else if 59 < m.minute then some "minute must be in 0..59"
    else if 59 < m.second then some "second must be in 0..59"
    else none

/-- What is wrong with a distance from universal time, if anything. -/
def zoneFault? (zone : Int) : Option String :=
  if 1440 ≤ zone.natAbs then
    some ("offset must be a timedelta strictly between -timedelta(hours=24) and " ++
      "timedelta(hours=24), not " ++ spanText zone ++ ".")
  else none

/-- How many microseconds there are up to a moment, in universal time if its zone is known. -/
def micros (m : Moment) : Int :=
  let minutes := ((m.date.ordinal * 24 + m.hour) * 60 + m.minute : Int) - m.zone.getD 0
  (minutes * 60 + m.second) * 1000000 + m.micro

/-- Whether two moments are the same point in time. A moment without a zone is never one with a zone. -/
def same (m n : Moment) : Bool :=
  m.zone.isSome == n.zone.isSome && m.micros == n.micros

/-- A moment as `2020-01-02 03:04:05`, with microseconds and zone if they are there. -/
def text (m : Moment) : String :=
  m.date.text ++ " " ++ padded 2 m.hour ++ ":" ++ padded 2 m.minute ++ ":" ++ padded 2 m.second ++
    (if m.micro = 0 then "" else "." ++ padded 6 m.micro) ++
    match m.zone with
    | none => ""
    | some zone =>
      (if zone < 0 then "-" else "+") ++ padded 2 (zone.natAbs / 60) ++ ":" ++
        padded 2 (zone.natAbs % 60)

/-- How many levels the zone of a moment adds to it where it is shown. -/
def zoneLevels (m : Moment) : Nat :=
  match m.zone with
  | none => 0
  | some zone => if zone = 0 then 1 else 2

/-- A moment as debug output shows it; trailing zero seconds and microseconds are left out. -/
def debugText (m : Moment) : String :=
  let clock := [toString m.hour, toString m.minute] ++
    (if m.second = 0 ∧ m.micro = 0 then [] else [toString m.second]) ++
    (if m.micro = 0 then [] else [toString m.micro])
  "datetime.datetime(" ++ m.date.fields ++ ", " ++ Text.join ", " clock ++
    (match m.zone with
    | none => ""
    | some zone =>
      ", tzinfo=datetime.timezone" ++ (if zone = 0 then ".utc" else "(" ++ spanText zone ++ ")")) ++
    ")"

end Moment

end TrafficKey
