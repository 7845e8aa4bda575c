import Allowlist.Yaml.Scalar.Plain

/-!
# Block scalars

A block scalar holds the indented lines behind its header, each with its line break or, if it is folded,
with single breaks between lines that start at the indentation turned into blanks. The header may say how
far the lines are indented, and what becomes of the line breaks at the end.
-/
namespace Allowlist.Yaml

/-- Line breaks at the end of a block scalar: all of them go, one stays, or all stay. -/
inductive Chomping where
  | strip
  | clip
  | keep
  deriving DecidableEq, Repr

/-- The end of a block scalar, from the break of its last line and those behind it. -/
def Chomping.apply (c : Chomping) (last more : List Char) : List Char :=
  match c with
  | .strip => []
  | .clip => last
  | .keep => last ++ more

def isIndented (c : Char) : Bool := c = ' ' || c = '\t'

namespace Scan

def chomping? : Scan (Option Chomping) := do
  match ← peek with
  | some '+' => advance 1; return some .keep
  | some '-' => advance 1; return some .strip
  | _ => return none

/-- One digit, which is not zero. -/
def increment? : Scan (Option Nat) := do
  match ← peek with
  | some c =>
    if !Digits.isDecimal c then return none
    else if c = '0' then throw .malformed
    else
      advance 1
      return some (c.toNat - 0x30)
  | none => return none

/-- The rest of the line with the mark of a block scalar. -/
def blockHeader : Scan (Chomping × Option Nat) := do
  let first ← chomping?
  let increment ← increment?
  let chomping ← match first, increment with
    | none, some _ => chomping?
    | _, _ => pure first
  expect isSpaceOrBreak
  endLine
  return (chomping.getD .clip, increment)

/-- The line breaks before the first line, and the widest indentation on the way. -/
def blockLead : Nat → Scan (List Char × Nat)
  | 0 => return ([], 0)
  | fuel + 1 => do
    skipWhile (· = ' ')
    let column := (← get).column
    match ← takeBreak? with
    | none => return ([], column)
    | some b =>
      let (breaks, widest) ← blockLead fuel
      return (b :: breaks, max column widest)

/-- The line breaks before a line that is indented by `indent`, and its indentation. -/
def blockBreaks (indent : Nat) : Nat → Scan (List Char)
  | 0 => return []
  | fuel + 1 => do
    let c ← get
    advance ((c.rest.take (indent - c.column)).takeWhile (· = ' ')).length
    match ← takeBreak? with
    | none => return []
    | some b => return b :: (← blockBreaks indent fuel)

/-- Whether a line with that indentation begins here. -/
def atLine (indent : Nat) : Scan Bool := do
  return (← get).column = indent && (← peek).isSome

/-- The lines from here, each with what stands between it and the next one. -/
def blockLines (folded : Bool) (chomping : Chomping) (indent : Nat) : Nat → Scan (List Char)
  | 0 => return []
  | fuel + 1 => do
    let deeper := (← peek).any isIndented
    let line ← span (!isBreak ·)
    let last := (← takeBreak?).toList
    let breaks ← blockBreaks indent (← bound)
    if ← atLine indent then
      let folds := folded && last = ['\n'] && !deeper && !(← peek).any isIndented
      let joint := if !folds then last else if breaks = [] then [' '] else []
      return line ++ joint ++ breaks ++ (← blockLines folded chomping indent fuel)
    else return line ++ chomping.apply last breaks

/-- A block scalar whose mark comes next, in a block with the given indentation. -/
def block (folded : Bool) (indent : Int) : Scan (List Char) := do
  advance 1
  let (chomping, increment) ← blockHeader
  let least := max (indent + 1).toNat 1
  let (breaks, indent) ← match increment with
    | none => do
      let (breaks, widest) ← blockLead (← bound)
      pure (breaks, max least widest)
    | some n => do
      let indent := least + n - 1
      pure (← blockBreaks indent (← bound), indent)
  if ← atLine indent then return breaks ++ (← blockLines folded chomping indent (← bound))
  else return chomping.apply [] breaks

end Scan

end Allowlist.Yaml
