import ComponentTags.Decimal.Number

/-!
# Dates and times

Days of the calendar and times of the day, with the offset from universal time where one is known.
Every day and every time is checked when it is made.
-/

namespace ComponentTags

/-- A day. -/
structure Date where
  year : Nat
  month : Nat
  day : Nat
  deriving DecidableEq, Repr

/-- A time of the day, and its offset from universal time in minutes. -/
structure Clock where
  hour : Nat
  minute : Nat
  second : Nat
  microsecond : Nat
  zone : Option Int
  deriving DecidableEq, Repr

/-- A day, with or without a time. -/
structure Moment where
  date : Date
  clock : Option Clock
  deriving DecidableEq, Repr

namespace Moment

/-- Why something is no day or no time of the day. -/
inductive Error where
  | zone (minutes : Int)
  | year (n : Nat)
  | month
  | day
  | hour
  | minute
  | second
  deriving DecidableEq, Repr

def isLeapYear (year : Nat) : Bool :=
  year % 4 = 0 && (year % 100 != 0 || year % 400 = 0)

def daysInMonth (year month : Nat) : Nat :=
  if month = 2 then if isLeapYear year then 29 else 28
  else if month = 4 || month = 6 || month = 9 || month = 11 then 30
  else 31

/-- What is wrong with a date, if anything is. -/
def dateError? (d : Date) : Option Error :=
  if d.year = 0 then some (.year d.year)
  else if d.month = 0 || 12 < d.month then some .month
  else if d.day = 0 || daysInMonth d.year d.month < d.day then some .day
  else none

/-- What is wrong with an offset, if anything is: it must be shorter than a day. -/
def zoneError? (c : Clock) : Option Error :=
  match c.zone with
  | some minutes => if 1440 ≤ minutes.natAbs then some (.zone minutes) else none
  | none => none

/-- What is wrong with a time, if anything is. -/
def timeError? (c : Clock) : Option Error :=
  if 23 < c.hour then some .hour
  else if 59 < c.minute then some .minute
  else if 59 < c.second then some .second
  else none

/-- What is wrong with a moment, if anything is. The offset is looked at first. -/
def error? (m : Moment) : Option Error :=
  match m.clock with
  | none => dateError? m.date
  | some c => ((zoneError? c).or (dateError? m.date)).or (timeError? c)

/-- An offset as the constructor expression that messages show. -/
def offsetDisplay (minutes : Int) : String :=
  let days := Int.fdiv minutes 1440
  let seconds := (minutes - days * 1440) * 60
  let parts := (if days = 0 then [] else ["days=" ++ Decimal.intText days]) ++
    (if seconds = 0 then [] else ["seconds=" ++ Decimal.intText seconds])
  "datetime.timedelta(" ++ (if parts.isEmpty then "0" else ", ".intercalate parts) ++ ")"

def Error.message : Error → String
  | zone minutes =>
    "offset must be a timedelta strictly between -timedelta(hours=24) and timedelta(hours=24), not " ++
      offsetDisplay minutes ++ "."
  | year n => "year " ++ Decimal.natText n ++ " is out of range"
  | month => "month must be in 1..12"
  | day => "day is out of range for month"
  | hour => "hour must be in 0..23"
  | minute => "minute must be in 0..59"
  | second => "second must be in 0..59"

/-- A number in at least so many digits. -/
def padded (width n : Nat) : String :=
  let digits := Decimal.natText n
  String.ofList (List.replicate (width - digits.length) '0') ++ digits

/-- An offset as a sign, hours and minutes. -/
def zoneText (minutes : Int) : String :=
  let sign := if minutes < 0 then "-" else "+"
  sign ++ padded 2 (minutes.natAbs / 60) ++ ":" ++ padded 2 (minutes.natAbs % 60)

def dateText (d : Date) : String :=
  padded 4 d.year ++ "-" ++ padded 2 d.month ++ "-" ++ padded 2 d.day

/-- A moment as text: the day, then the time and the offset if they are known. Microseconds are written
if there are any. -/
def text (m : Moment) : String :=
  match m.clock with
  | none => dateText m.date
  | some c =>
    let fraction := if c.microsecond = 0 then "" else "." ++ padded 6 c.microsecond
    dateText m.date ++ " " ++ padded 2 c.hour ++ ":" ++ padded 2 c.minute ++ ":" ++
      padded 2 c.second ++ fraction ++ (c.zone.map zoneText).getD ""

/-- The parts of a time that messages show: seconds and microseconds only as far as they are not zero. -/
def clockParts (c : Clock) : List Nat :=
  if c.microsecond != 0 then [c.hour, c.minute, c.second, c.microsecond]
  else if c.second != 0 then [c.hour, c.minute, c.second]
  else [c.hour, c.minute]

def zoneDisplay (minutes : Int) : String :=
  if minutes = 0 then "datetime.timezone.utc"
  else "datetime.timezone(" ++ offsetDisplay minutes ++ ")"

/-- The form in which messages show a moment. -/
def display (m : Moment) : String :=
  let day := [m.date.year, m.date.month, m.date.day].map Decimal.natText
  match m.clock with
  | none => "datetime.date(" ++ ", ".intercalate day ++ ")"
  | some c =>
    let zone := (c.zone.map fun minutes => "tzinfo=" ++ zoneDisplay minutes).toList
    "datetime.datetime(" ++
      ", ".intercalate (day ++ (clockParts c).map Decimal.natText ++ zone) ++ ")"

/-- The days from the first day of the first year on. -/
def dayNumber (d : Date) : Int :=
  let before := d.year - 1
  let months := (List.range (d.month - 1)).foldl (fun n k => n + daysInMonth d.year (k + 1)) 0
  (before * 365 + before / 4 - before / 100 + before / 400 + months + d.day : Nat)

/-- The microseconds of universal time that a moment with a known offset is. -/
def instant? (m : Moment) : Option Int :=
  match m.clock with
  | none => none
  | some c =>
    c.zone.map fun minutes =>
      let minute : Int := dayNumber m.date * 1440 + c.hour * 60 + c.minute - minutes
      (minute * 60 + c.second) * 1000000 + c.microsecond

/-- Whether two moments are the same: those with known offsets are compared in universal time. -/
def same (a b : Moment) : Bool :=
  a = b || (a.instant?.isSome && a.instant? = b.instant?)

end Moment

end ComponentTags
