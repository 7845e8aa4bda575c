import Allowlist.Yaml.Cursor

/-!
# Names, tags and directives

Nodes are named by anchors, and their types by tags. A tag is written in full, or as a handle that stands
for the beginning of tags, with the rest behind it; directives say what handles stand for.
-/
namespace Allowlist.Yaml

abbrev Name := List Char

structure Tag where
  /-- The handle with its exclamation marks. -/
  handle : Option Name
  rest : Name
  deriving DecidableEq, Repr

/-- The tag that leaves the type to the content of a scalar. -/
def Tag.unspecific : Name := ['!']

/-- The beginning of the tags that every file may use. -/
def Tag.core : Name := "tag:yaml.org,2002:".toList

/-- What handles stand for if no directive says otherwise. -/
def Tag.handles : List (Name × Name) := [(['!'], ['!']), (['!', '!'], core)]

inductive Directive where
  | version (major : Nat)
  | handle (name start : Name)
  | other
  deriving DecidableEq, Repr

def isLetter (c : Char) : Bool := ('A' ≤ c && c ≤ 'Z') || ('a' ≤ c && c ≤ 'z')

def isNameChar (c : Char) : Bool := Digits.isDecimal c || isLetter c || c = '-' || c = '_'

/-- The characters of a tag that stand for themselves. -/
def isTagChar (c : Char) : Bool :=
  Digits.isDecimal c || isLetter c || "-;/?:@&=+$,_.!~*\x27()[]".toList.contains c

/-- The characters that may follow an anchor or an alias, blanks apart. -/
def isBehindName (c : Char) : Bool := isBlank c || "?:,]\x7d%@\x60".toList.contains c

namespace Scan

def name : Scan Name := do
  let cs ← span isNameChar
  if cs = [] then throw .malformed
  return cs

/-- The name of an anchor or alias whose mark comes next. -/
def anchorName : Scan Name := do
  advance 1
  let cs ← name
  expect isBehindName
  return cs

/-- An exclamation mark, and perhaps a name with another one. -/
def handle : Scan Name := do
  if (← peek) ≠ some '!' then throw .malformed
  if (← look 1) = some ' ' then
    advance 1
    return ['!']
  else
    advance 1
    let cs ← span isNameChar
    if (← peek) ≠ some '!' then throw .malformed
    advance 1
    return '!' :: cs ++ ['!']

/-- Bytes that are written as percent signs with two hexadecimal digits. -/
def tagBytes : Nat → Scan Utf8.Bytes
  | 0 => return []
  | fuel + 1 => do
    if (← peek) = some '%' then
      advance 1
      let b ← lookHex 2
      advance 2
      return .ofNat b :: (← tagBytes fuel)
    else return []

def tagRun : Nat → Scan Name
  | 0 => return []
  | fuel + 1 => do
    let run ← span isTagChar
    if (← peek) = some '%' then
      match Utf8.decode (← tagBytes (← bound)) with
      | .error _ => throw .malformed
      | .ok cs => return run ++ cs ++ (← tagRun fuel)
    else return run

/-- The characters of a tag, at least one. -/
def tagText : Scan Name := do
  let cs ← tagRun (← bound)
  if cs = [] then throw .malformed
  return cs

/-- A tag whose exclamation mark comes next: in angle brackets, alone, behind a handle with two marks, or
behind the mark itself. -/
def tag : Scan Tag := do
  let t ← match ← look 1 with
    | some '<' => do
      advance 2
      let cs ← tagText
      if (← peek) ≠ some '>' then throw .malformed
      advance 1
      pure ⟨none, cs⟩
    | some c =>
      if isBlank c then do
        advance 1
        pure ⟨none, Tag.unspecific⟩
      else do
        let word := ((← get).rest.drop 1).takeWhile fun c => c ≠ '!' && !isSpaceOrBreak c
        let handle ← if (← look (word.length + 1)) = some '!' then handle else do
          advance 1
          pure ['!']
        pure ⟨some handle, ← tagText⟩
    | none => do
      advance 1
      pure ⟨none, Tag.unspecific⟩
  expect isSpaceOrBreak
  return t

/-- A number of a version. -/
def versionNumber : Scan Nat := do
  let ds ← span Digits.isDecimal
  if ds = [] then throw .malformed
  else if Json.maxIntegerDigits < ds.length then throw (.longInteger ⟨ds.length⟩)
  else return Digits.value 10 ds

/-- The number before the point of a version; the one behind it does not matter. -/
def version : Scan Nat := do
  skipWhile (· = ' ')
  let major ← versionNumber
  if (← peek) ≠ some '.' then throw .malformed
  advance 1
  let _ ← versionNumber
  expect isSpaceOrBreak
  return major

/-- A handle and what it stands for. -/
def handleMeaning : Scan (Name × Name) := do
  skipWhile (· = ' ')
  let cs ← handle
  if (← peek) ≠ some ' ' then throw .malformed
  skipWhile (· = ' ')
  let start ← tagText
  expect isSpaceOrBreak
  return (cs, start)

/-- A directive whose percent sign comes next, with the end of its line. -/
def directive : Scan Directive := do
  advance 1
  let cs ← name
  expect isSpaceOrBreak
  let d ←
    if cs = "YAML".toList then do
      pure (Directive.version (← version))
    else if cs = "TAG".toList then do
      let (handle, start) ← handleMeaning
      pure (.handle handle start)
    else do
      skipWhile (!isBreak ·)
      pure .other
  endLine
  return d

end Scan

end Allowlist.Yaml
