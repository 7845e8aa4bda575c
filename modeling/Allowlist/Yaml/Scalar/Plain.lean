import Allowlist.Yaml.Cursor

/-!
# Plain scalars

A plain scalar goes on over several lines as long as they are indented. Between two of its parts stand
blanks, or line breaks that are folded.
-/
namespace Allowlist.Yaml

/-- Several line breaks in a scalar: the first is dropped, or becomes a blank if it is the only
one. A separator is kept. -/
def fold (first : Char) (more : List Char) : List Char :=
  if first ≠ '\n' then first :: more
  else if more = [] then [' ']
  else more

def isBracketOrComma (c : Char) : Bool := c = ',' || c = '[' || c = ']' || c = '\x7b' || c = '\x7d'

/-- Whether a plain scalar ends before `c`, with `rest` behind it. -/
def endsPlain (flow : Bool) (c : Char) (rest : List Char) : Bool :=
  isBlank c || (flow && (c = '?' || isBracketOrComma c)) ||
    (c = ':' && rest.head?.all fun d => isBlank d || (flow && isBracketOrComma d))

/-- The part of a plain scalar that has no blanks. -/
def plainRun (flow : Bool) : List Char → List Char
  | [] => []
  | c :: rest => if endsPlain flow c rest then [] else c :: plainRun flow rest

namespace Scan

/-- Takes a part of a plain scalar. A colon at the very end needs the character behind it. -/
def plainPart (flow : Bool) : Scan (List Char) := do
  let cs := (← get).rest
  let part := plainRun flow cs
  let rest := cs.drop part.length
  reach (if rest = [':'] then [] else rest)
  advance part.length
  return part

/-- Line breaks with blanks between them, unless a document marker follows one. -/
def plainBreaks : Nat → Scan (Option (List Char))
  | 0 => return some []
  | fuel + 1 => do
    skipWhile (· = ' ')
    match ← takeBreak? with
    | none => return some []
    | some b =>
      if ← atMarker then return none
      else return (← plainBreaks fuel).map (b :: ·)

/-- What stands between two parts of a plain scalar, and whether there is a line break in it. There is
nothing if the scalar ends here. -/
def plainGap : Scan (List Char × Bool) := do
  let blanks ← span (· = ' ')
  match ← takeBreak? with
  | none => return (blanks, false)
  | some b =>
    if ← atMarker then return ([], true)
    else return (((← plainBreaks (← bound)).map (fold b ·)).getD [], true)

/-- A plain scalar from here, with `gap` before its next part, and whether a line break is the last
thing in it. -/
def plainFrom (flow : Bool) (indent : Int) :
    Nat → List Char → Bool → Scan (List Char × Bool)
  | 0, _, broken => return ([], broken)
  | fuel + 1, gap, broken => do
    let part ← if (← peek) = some '#' then pure [] else plainPart flow
    if part = [] then return ([], broken)
    let (next, broken) ← plainGap
    let outside := !flow && (← get).column < indent
    if next = [] ∨ (← peek) = some '#' ∨ outside then return (gap ++ part, broken)
    let (more, broken) ← plainFrom flow indent fuel next broken
    return (gap ++ part ++ more, broken)

/-- A plain scalar, and whether a line break follows it. -/
def plain (flow : Bool) (indent : Int) : Scan (List Char × Bool) := do
  plainFrom flow indent (← bound) [] false

end Scan

end Allowlist.Yaml
