import PercentTemplate.Text.Quoted

/-!
# Dates and points in time

Dates of the proleptic Gregorian calendar and points in time with an optional offset from universal
time, in the form that text shows and in the constructor form that nested values show.

## Main definitions

- `Calendar.Date`, `Calendar.Moment` — a date and a point in time
- `Calendar.Date.check`, `Calendar.Moment.check` — the first field that is out of range
- `Calendar.Date.text`, `Calendar.Moment.text` — the plain form
- `Calendar.Date.literal`, `Calendar.Moment.literal` — the constructor form
-/

namespace PercentTemplate.Calendar

/-- A date, possibly one that does not exist. -/
structure Date where
  year : Nat
  month : Nat
  day : Nat
  deriving DecidableEq, Repr

/-- A point in time, possibly one that does not exist. -/
structure Moment where
  date : Date
  hour : Nat
  minute : Nat
  second : Nat
  micros : Nat
  /-- The offset from universal time in seconds, if one is known. -/
  offset : Option Int
  deriving DecidableEq, Repr

/-- The field that is out of range. -/
inductive Fault
  | year (n : Nat)
  | month
  | day
  | hour
  | minute
  | second
  | offset (seconds : Int)
  deriving DecidableEq, Repr

def isLeap (year : Nat) : Bool :=
  year % 4 = 0 && (year % 100 != 0 || year % 400 = 0)

def monthDays (year month : Nat) : Nat :=
  if month = 2 then if isLeap year then 29 else 28
  else if month = 4 || month = 6 || month = 9 || month = 11 then 30
  else 31

/-- The number `n` in decimal with at least `width` digits. -/
def padded (width n : Nat) : String :=
  let digits := Nat.toDigits 10 n
  String.ofList (List.replicate (width - digits.length) '0' ++ digits)

def arguments (ns : List Nat) : String :=
  String.intercalate ", " (ns.map toString)

/-- The constructor form of a span of whole seconds: days, which take the sign, and seconds. -/
def spanLiteral (seconds : Int) : String :=
  let days := seconds.fdiv 86400
  let rest := seconds.fmod 86400
  let fields := (if days = 0 then [] else ["days=" ++ toString days])
    ++ (if rest = 0 then [] else ["seconds=" ++ toString rest])
  "datetime.timedelta(" ++ (if fields.isEmpty then "0" else String.intercalate ", " fields) ++ ")"

def Fault.message : Fault → String
  | year n => "year " ++ toString n ++ " is out of range"
  | month => "month must be in 1..12"
  | day => "day is out of range for month"
  | hour => "hour must be in 0..23"
  | minute => "minute must be in 0..59"
  | second => "second must be in 0..59"
  | offset s =>
    "offset must be a timedelta strictly between -timedelta(hours=24) and timedelta(hours=24), not "
      ++ spanLiteral s ++ "."

namespace Date

def check (d : Date) : Option Fault :=
  if d.year < 1 ∨ 9999 < d.year then some (.year d.year)
  else if d.month < 1 ∨ 12 < d.month then some .month
  else if d.day < 1 ∨ monthDays d.year d.month < d.day then some .day
  else none

def text (d : Date) : String :=
  padded 4 d.year ++ "-" ++ padded 2 d.month ++ "-" ++ padded 2 d.day

def literal (d : Date) : String :=
  "datetime.date(" ++ arguments [d.year, d.month, d.day] ++ ")"

end Date

namespace Moment

/-- The first field that is out of range: the offset, the date, the time of day. -/
def check (m : Moment) : Option Fault :=
  match m.offset.filter fun s => 86400 ≤ s.natAbs with
  | some s => some (.offset s)
  | none =>
    match m.date.check with
    | some f => some f
    | none =>
      if 23 < m.hour then some .hour
      else if 59 < m.minute then some .minute
      else if 59 < m.second then some .second
      else none

/-- The plain form of an offset: hours, minutes and, if there are any, seconds. -/
def offsetText (seconds : Int) : String :=
  let n := seconds.natAbs
  (if seconds < 0 then "-" else "+") ++ padded 2 (n / 3600) ++ ":" ++ padded 2 (n / 60 % 60)
    ++ if n % 60 = 0 then "" else ":" ++ padded 2 (n % 60)

/-- The plain form; the fraction has six digits and is left out if it is zero. -/
def text (m : Moment) : String :=
  m.date.text ++ " " ++ padded 2 m.hour ++ ":" ++ padded 2 m.minute ++ ":" ++ padded 2 m.second
    ++ (if m.micros = 0 then "" else "." ++ padded 6 m.micros)
    ++ m.offset.elim "" offsetText

def offsetLiteral (seconds : Int) : String :=
  if seconds = 0 then "datetime.timezone.utc"
  else "datetime.timezone(" ++ spanLiteral seconds ++ ")"

/-- The constructor form; seconds and fraction are left out if they are zero. -/
def literal (m : Moment) : String :=
  let tail :=
    if m.micros != 0 then [m.second, m.micros] else if m.second != 0 then [m.second] else []
  "datetime.datetime("
    ++ arguments ([m.date.year, m.date.month, m.date.day, m.hour, m.minute] ++ tail)
    ++ m.offset.elim "" (fun s => ", tzinfo=" ++ offsetLiteral s) ++ ")"

end Moment

end PercentTemplate.Calendar
