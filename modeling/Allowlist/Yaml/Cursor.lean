import Allowlist.Yaml.Source

/-!
# Reading position

Where the scanner of settings files stands, and the steps that scans are made of. A step that needs a
character which the text does not give fails with the fault that is in its place; where the text ends
there is no character. Line breaks are the line feed, the next-line character and the two Unicode
separators; a byte order mark has no width.
-/
namespace Allowlist.Yaml

def isBreak (c : Char) : Bool := c = '\n' || c = '\x85' || c = '\u2028' || c = '\u2029'

def isSpaceOrBreak (c : Char) : Bool := c = ' ' || isBreak c

def isBlank (c : Char) : Bool := c = '\t' || isSpaceOrBreak c

structure Cursor where
  rest : List Char
  ending : Option Fault
  /-- How many characters are left. -/
  left : Nat
  index : Nat
  line : Nat
  column : Nat

namespace Cursor

def start (s : Source) : Cursor := ⟨s.chars, s.ending, s.chars.length, 0, 0, 0⟩

def next (c : Cursor) : Cursor :=
  match c.rest with
  | [] => c
  | x :: rest =>
    let c := { c with rest, left := c.left - 1, index := c.index + 1 }
    if isBreak x then { c with line := c.line + 1, column := 0 }
    else if x = '\ufeff' then c
    else { c with column := c.column + 1 }

def skip : Nat → Cursor → Cursor
  | 0, c => c
  | n + 1, c => skip n c.next

end Cursor

abbrev Scan := StateT Cursor (Except Fault)

namespace Scan

/-- Fails unless one of the characters `cs` is there, or the text ends. -/
def reach (cs : List Char) : Scan Unit := do
  match cs, (← get).ending with
  | [], some f => throw f
  | _, _ => pure ()

/-- The character at a distance, if the text goes that far. -/
def look (n : Nat) : Scan (Option Char) := do
  let cs := (← get).rest.drop n
  reach cs
  return cs.head?

def peek : Scan (Option Char) := look 0

/-- Goes on behind `n` characters, to one that is there or to the end. -/
def advance (n : Nat) : Scan Unit := do
  modify (·.skip n)
  reach (← get).rest

/-- More steps than any scan from here can take. -/
def bound : Scan Nat := return (← get).left + 1

/-- Takes characters as long as they satisfy `p`. -/
def span (p : Char → Bool) : Scan (List Char) := do
  let run := (← get).rest.takeWhile p
  advance run.length
  return run

def skipWhile (p : Char → Bool) : Scan Unit := do
  let _ ← span p

/-- Fails if a character that does not satisfy `p` comes next. -/
def expect (p : Char → Bool) : Scan Unit := do
  if (← peek).all p then pure () else throw .malformed

/-- Takes a line break. The separators stay what they are, other breaks become a line feed. -/
def takeBreak? : Scan (Option Char) := do
  match ← peek with
  | some x =>
    if isBreak x then
      advance 1
      return some (if x = '\u2028' ∨ x = '\u2029' then x else '\n')
    else return none
  | none => return none

/-- Takes what may stand at the end of a line, spaces and a comment, and the line break. -/
def endLine : Scan Unit := do
  skipWhile (· = ' ')
  if (← peek) = some '#' then skipWhile (!isBreak ·)
  expect isBreak
  let _ ← takeBreak?

/-- Whether a document marker stands here. -/
def atMarker : Scan Bool := do
  let cs := (← get).rest
  reach (cs.drop 2)
  match cs with
  | '-' :: '-' :: '-' :: _ => return (← look 3).all isBlank
  | '.' :: '.' :: '.' :: _ => return (← look 3).all isBlank
  | _ => return false

/-- The number that the next `width` characters denote as hexadecimal digits. -/
def lookHex (width : Nat) : Scan Nat := do
  let ds := (← get).rest.take width
  if !ds.all Digits.isHex then throw .malformed
  else if ds.length < width then throw ((← get).ending.getD .malformed)
  else return Digits.value 16 ds

end Scan

end Allowlist.Yaml
