import Allowlist.Yaml.Fault

/-!
# Dates in scalars

A date, or a date and a time of day. The spelling decides that a plain scalar is a date; one that the
calendar does not have is an error.
-/
namespace Allowlist.Yaml.Plain

def checkDate (d : Date) : Except Fault Unit :=
  if d.year = 0 then .error (.yearRange d.year)
  else if d.month < 1 ∨ 12 < d.month then .error .monthRange
  else if d.day < 1 ∨ daysIn d.year d.month < d.day then .error .dayRange
  else .ok ()

/-- A clock is less than a day ahead or behind. The zone is checked first, then date and time. -/
def checkMoment (t : Moment) : Except Fault Unit := do
  match t.ahead with
  | some m => if 1440 ≤ m.count.natAbs then throw (.zoneRange m)
  | none => pure ()
  checkDate t.date
  if 23 < t.hour then .error .hourRange
  else if 59 < t.minute then .error .minuteRange
  else if 59 < t.second then .error .secondRange
  else .ok ()

/-- The number of the next digits, between `least` and `most` of them, and what follows. -/
def takeDigits (least most : Nat) (cs : List Char) : Option (Nat × List Char) :=
  let ds := (cs.take most).takeWhile Digits.isDecimal
  if least ≤ ds.length then some (Digits.value 10 ds, cs.drop ds.length) else none

def takeChar (x : Char) : List Char → Option (List Char)
  | c :: cs => if c = x then some cs else none
  | [] => none

def dropBlanks (cs : List Char) : List Char := cs.dropWhile (fun c => c = ' ' || c = '\t')

/-- Hours, and minutes if there are any, as all that is left. -/
def offset? (cs : List Char) : Option Nat :=
  match takeDigits 1 2 cs with
  | some (h, []) => some (60 * h)
  | some (h, rest) => do
    match ← takeDigits 2 2 (← takeChar ':' rest) with
    | (m, []) => some (60 * h + m)
    | _ => none
  | none => none

/-- A time zone, or nothing, as all that is left. -/
def zone? (cs : List Char) : Option (Option Minutes) :=
  match dropBlanks cs with
  | [] => if cs = [] then some none else none
  | ['Z'] => some (some ⟨0⟩)
  | '+' :: rest => (offset? rest).map fun n => some ⟨n⟩
  | '-' :: rest => (offset? rest).map fun n => some ⟨-n⟩
  | _ => none

/-- A date of four digits, and one or two for month and day, and what follows. -/
def takeDate (cs : List Char) : Option (Date × List Char) := do
  let (y, cs) ← takeDigits 4 4 cs
  let (m, cs) ← takeDigits 1 2 (← takeChar '-' cs)
  let (d, cs) ← takeDigits 1 2 (← takeChar '-' cs)
  some (⟨y, m, d⟩, cs)

def date? (cs : List Char) : Option Date :=
  match takeDate cs with
  | some (d, []) => some d
  | _ => none

/-- The letter or the blanks between date and time. -/
def takeGap (cs : List Char) : Option (List Char) :=
  match cs with
  | c :: rest =>
    if c = 'T' ∨ c = 't' then some rest
    else if c = ' ' ∨ c = '\t' then some (dropBlanks cs)
    else none
  | [] => none

/-- A fraction of a second in microseconds, of which six digits count. -/
def takeFraction : List Char → Nat × List Char
  | '.' :: cs =>
    let ds := cs.takeWhile Digits.isDecimal
    let six := ds.take 6
    (Digits.value 10 (six ++ List.replicate (6 - six.length) '0'), cs.drop ds.length)
  | cs => (0, cs)

/-- A date and a time of day, with a fraction of a second and a zone or without. -/
def moment? (cs : List Char) : Option Moment := do
  let (date, cs) ← takeDate cs
  let (h, cs) ← takeDigits 1 2 (← takeGap cs)
  let (mi, cs) ← takeDigits 2 2 (← takeChar ':' cs)
  let (s, cs) ← takeDigits 2 2 (← takeChar ':' cs)
  let (fraction, cs) := takeFraction cs
  some ⟨date, h, mi, s, fraction, ← zone? cs⟩

/-- Whether a plain scalar is spelt like a date. One without a time has all its digits. -/
def isTimestamp (cs : List Char) : Bool :=
  ((date? cs).isSome && cs.length = 10) || (moment? cs).isSome

end Allowlist.Yaml.Plain
