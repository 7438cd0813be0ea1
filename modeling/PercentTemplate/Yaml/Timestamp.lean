import PercentTemplate.Calendar
import PercentTemplate.Number.Integer

/-!
# Timestamps

The written form of a date, optionally with a time of day, a fraction and an offset.

## Main definitions

- `Yaml.Timestamp` — the fields of a timestamp as written
- `Yaml.Timestamp.parse?` — the fields of a text
- `Yaml.Timestamp.moment`, `Yaml.Timestamp.date` — the point in time and the date that they name
-/

namespace PercentTemplate.Yaml

/-- The time of day of a timestamp as written. -/
structure TimeOfDay where
  hour : List Char
  minute : List Char
  second : List Char
  fraction : List Char
  offset : Option Int
  deriving DecidableEq, Repr

/-- The fields of a timestamp as written. -/
structure Timestamp where
  year : List Char
  month : List Char
  day : List Char
  time : Option TimeOfDay
  deriving DecidableEq, Repr

namespace Timestamp

/-- At least `least` and at most `most` digits at the front of a text, as many as there are. -/
def digits? (least most : Nat) (cs : List Char) : Option (List Char × List Char) :=
  let run := (cs.take most).takeWhile Char.isDigit
  if run.length < least then none else some (run, cs.drop run.length)

def expect? (c : Char) : List Char → Option (List Char)
  | d :: rest => if d = c then some rest else none
  | [] => none

/-- Whether `c` may stand between date, time and offset. -/
def isSpace (c : Char) : Bool := c = ' ' || c = '\t'

/-- The rest after what separates date and time: one letter, or spaces. -/
def dropSeparator? : List Char → Option (List Char)
  | [] => none
  | c :: rest =>
    if c = 'T' ∨ c = 't' then some rest
    else if isSpace c then some (rest.dropWhile isSpace)
    else none

/-- The offset that a whole text names, in seconds: a letter for universal time, or a sign, hours
and optionally minutes. -/
def offset? : List Char → Option Int
  | ['Z'] => some 0
  | c :: rest =>
    if c = '+' ∨ c = '-' then do
      let (hour, rest) ← digits? 1 2 rest
      let minute ←
        match rest with
        | [] => some []
        | rest => do
          let (minute, rest) ← (expect? ':' rest).bind (digits? 2 2)
          if rest.isEmpty then some minute else none
      let seconds : Int := Integer.ofDigits hour * 3600 + Integer.ofDigits minute * 60
      some (if c = '-' then -seconds else seconds)
    else none
  | [] => none

/-- The fraction at the front of a text, if there is one. -/
def takeFraction : List Char → List Char × List Char
  | '.' :: rest => (rest.takeWhile Char.isDigit, rest.dropWhile Char.isDigit)
  | cs => ([], cs)

def time? (cs : List Char) : Option TimeOfDay := do
  let (hour, cs) ← digits? 1 2 cs
  let (minute, cs) ← (expect? ':' cs).bind (digits? 2 2)
  let (second, cs) ← (expect? ':' cs).bind (digits? 2 2)
  let (fraction, cs) := takeFraction cs
  let offset ← if cs.isEmpty then some none else (offset? (cs.dropWhile isSpace)).map some
  some ⟨hour, minute, second, fraction, offset⟩

def parse? (cs : List Char) : Option Timestamp := do
  let (year, cs) ← digits? 4 4 cs
  let (month, cs) ← (expect? '-' cs).bind (digits? 1 2)
  let (day, cs) ← (expect? '-' cs).bind (digits? 1 2)
  let time ← if cs.isEmpty then some none else ((dropSeparator? cs).bind time?).map some
  some ⟨year, month, day, time⟩

/-- Whether the form is one that needs no tag: a date alone has two digits for month and day. -/
def isRecognised (t : Timestamp) : Bool :=
  t.time.isSome || (t.month.length = 2 && t.day.length = 2)

def date (t : Timestamp) : Calendar.Date :=
  ⟨Integer.ofDigits t.year, Integer.ofDigits t.month, Integer.ofDigits t.day⟩

/-- Millionths of a second from the digits of a fraction, of which six count. -/
def micros (fraction : List Char) : Nat :=
  let shown := fraction.take 6
  Integer.ofDigits (shown ++ List.replicate (6 - shown.length) '0')

/-- The point in time that a timestamp with a time of day names. -/
def moment (t : Timestamp) (time : TimeOfDay) : Calendar.Moment where
  date := t.date
  hour := Integer.ofDigits time.hour
  minute := Integer.ofDigits time.minute
  second := Integer.ofDigits time.second
  micros := micros time.fraction
  offset := time.offset

end Timestamp

end PercentTemplate.Yaml
