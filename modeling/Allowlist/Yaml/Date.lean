import Allowlist.Number.Digits

/-!
# Dates and times of day

A date of the Gregorian calendar, and a moment: a date, a time of day and, if it is known, how far the
clock is ahead of universal time. Two moments are the same if they are so on their own clock, or at the
same instant if both say which clock that is.
-/
namespace Allowlist.Yaml

def isLeapYear (y : Nat) : Bool := y % 4 = 0 && (y % 100 ≠ 0 || y % 400 = 0)

def daysIn (y m : Nat) : Nat :=
  if m = 2 then (if isLeapYear y then 29 else 28)
  else if m = 4 || m = 6 || m = 9 || m = 11 then 30
  else 31

structure Date where
  year : Nat
  month : Nat
  day : Nat
  deriving DecidableEq, Repr

namespace Date

/-- Days since the last day before the first year. -/
def number (d : Date) : Nat :=
  let y := d.year - 1
  365 * y + y / 4 - y / 100 + y / 400 +
    (List.range (d.month - 1)).foldl (fun n m => n + daysIn d.year (m + 1)) d.day

def parts (d : Date) : List Text := [d.year, d.month, d.day].map Digits.text

def display (d : Date) : Text := "datetime.date(" ++ Text.join ", " d.parts ++ ")"

end Date

/-- A length of time in whole minutes. -/
structure Minutes where
  count : Int
  deriving DecidableEq, Repr

/-- As days and seconds, where days may be negative and parts that are zero are left out. -/
def Minutes.display (m : Minutes) : Text :=
  let part (name : Text) (n : Int) : List Text :=
    if n = 0 then [] else [name ++ .ofChars (Digits.integer n)]
  let parts := part "days=" (m.count.fdiv 1440) ++ part "seconds=" (m.count.fmod 1440 * 60)
  let inner : Text := if parts = [] then "0" else Text.join ", " parts
  "datetime.timedelta(" ++ inner ++ ")"

structure Moment where
  date : Date
  hour : Nat
  minute : Nat
  second : Nat
  microsecond : Nat
  /-- How far the clock is ahead of universal time. -/
  ahead : Option Minutes
  deriving DecidableEq, Repr

namespace Moment

/-- Microseconds on its own clock. -/
def reading (t : Moment) : Int :=
  (((t.date.number * 24 + t.hour) * 60 + t.minute) * 60 + t.second) * 1000000 + t.microsecond

def same (a b : Moment) : Bool :=
  match a.ahead, b.ahead with
  | none, none => a.reading = b.reading
  | some x, some y =>
    a.reading - x.count * 60000000 = b.reading - y.count * 60000000
  | _, _ => false

/-- Seconds and microseconds are left out if nothing but zeros would follow. -/
def display (t : Moment) : Text :=
  let fine : List Nat :=
    if t.microsecond ≠ 0 then [t.second, t.microsecond]
    else if t.second ≠ 0 then [t.second]
    else []
  let zone : List Text := match t.ahead with
    | none => []
    | some m =>
      if m.count = 0 then ["tzinfo=datetime.timezone.utc"]
      else ["tzinfo=datetime.timezone(" ++ m.display ++ ")"]
  "datetime.datetime(" ++
    Text.join ", " (t.date.parts ++ (t.hour :: t.minute :: fine).map Digits.text ++ zone) ++ ")"

end Moment

end Allowlist.Yaml
