import Orchestrator.Text.Digit

namespace Orchestrator

structure Date where
  year : Nat
  month : Nat
  day : Nat
  deriving Repr, DecidableEq

/-- A time on a day. The offset from universal time is in minutes, where one is given. -/
structure Moment where
  date : Date
  hour : Nat
  minute : Nat
  second : Nat
  micro : Nat
  offset : Option Int
  deriving Repr, DecidableEq

namespace Date

def isLeap (year : Nat) : Bool := (year % 4 == 0 && year % 100 != 0) || year % 400 == 0

def daysIn (year month : Nat) : Nat :=
  if month = 2 then (if isLeap year then 29 else 28)
  else if month = 4 ∨ month = 6 ∨ month = 9 ∨ month = 11 then 30
  else 31

def isValid (d : Date) : Bool :=
  1 ≤ d.year && d.year ≤ 9999 && 1 ≤ d.month && d.month ≤ 12 && 1 ≤ d.day &&
    d.day ≤ daysIn d.year d.month

def dayNumber (d : Date) : Nat :=
  let y := d.year - 1
  let before := y * 365 + y / 4 - y / 100 + y / 400
  (List.range (d.month - 1)).foldl (fun n m ↦ n + daysIn d.year (m + 1)) before + (d.day - 1)

def text (d : Date) : String :=
  .ofList (Text.padded 10 4 d.year ++ '-' :: Text.padded 10 2 d.month ++ '-' ::
    Text.padded 10 2 d.day)

def literal (d : Date) : String := s!"datetime.date({d.year}, {d.month}, {d.day})"

end Date

namespace Moment

/-- The times that exist; an offset is less than a day. -/
def isValid (t : Moment) : Bool :=
  t.date.isValid && t.hour < 24 && t.minute < 60 && t.second < 60 && t.micro < 1000000 &&
    (t.offset.all fun o ↦ o.natAbs < 1440)

def localMicros (t : Moment) : Nat :=
  (((t.date.dayNumber * 24 + t.hour) * 60 + t.minute) * 60 + t.second) * 1000000 + t.micro

/-- Microseconds since the start of the calendar in universal time, for a known offset. -/
def instant? (t : Moment) : Option Int :=
  t.offset.map fun o ↦ (t.localMicros : Int) - o * 60000000

/-- Whether two moments are one: by the instant if both have an offset, by their fields if neither
has one. -/
def sameInstant (s t : Moment) : Bool :=
  s.instant? == t.instant? && (s.offset.isSome || s.localMicros == t.localMicros)

def offsetText (o : Int) : List Char :=
  (if o < 0 then '-' else '+') :: Text.padded 10 2 (o.natAbs / 60) ++ ':' ::
    Text.padded 10 2 (o.natAbs % 60)

def text (t : Moment) : String :=
  .ofList (t.date.text.toList ++ ' ' :: Text.padded 10 2 t.hour ++ ':' ::
    Text.padded 10 2 t.minute ++ ':' :: Text.padded 10 2 t.second ++
    (if t.micro = 0 then [] else '.' :: Text.padded 10 6 t.micro) ++
    (match t.offset with | none => [] | some o => offsetText o))

/-- An offset as a day count and a rest of seconds that is never negative. -/
def offsetLiteral (o : Int) : String :=
  if o = 0 then "datetime.timezone.utc"
  else
    let days := o / 1440
    let seconds := o % 1440 * 60
    let parts := (if days = 0 then [] else [s!"days={days}"]) ++
      (if seconds = 0 then [] else [s!"seconds={seconds}"])
    "datetime.timezone(datetime.timedelta(" ++ String.intercalate ", " parts ++ "))"

def literal (t : Moment) : String :=
  let tail :=
    if t.micro ≠ 0 then [t.second, t.micro] else if t.second ≠ 0 then [t.second] else []
  let numbers := [t.date.year, t.date.month, t.date.day, t.hour, t.minute] ++ tail
  let zone := match t.offset with | none => [] | some o => ["tzinfo=" ++ offsetLiteral o]
  "datetime.datetime(" ++ String.intercalate ", " (numbers.map toString ++ zone) ++ ")"

end Moment

end Orchestrator
