import Allowlist.Yaml.Scalar.Plain

/-!
# Quoted scalars

A quoted scalar ends with its quote. In single quotes a doubled quote stands for one. Escapes stand in
double quotes only, and each denotes one code point, a surrogate if need be.
-/
namespace Allowlist.Yaml

def escapes : List (Char × Char) :=
  [('0', '\x00'), ('a', '\x07'), ('b', '\x08'), ('t', '\x09'), ('\t', '\x09'), ('n', '\x0a'),
    ('v', '\x0b'), ('f', '\x0c'), ('r', '\x0d'), ('e', '\x1b'), (' ', ' '), ('"', '"'),
    ('\\', '\\'), ('/', '/'), ('N', '\x85'), ('_', '\xa0'), ('L', '\u2028'), ('P', '\u2029')]

/-- How many hexadecimal digits an escape takes. -/
def escapeWidth? : Char → Option Nat
  | 'x' => some 2
  | 'u' => some 4
  | 'U' => some 8
  | _ => none

/-- The code point that an escape denotes. -/
def escaped (n : Nat) : Except Fault CodePoint :=
  if h : n < 0x110000 then .ok ⟨n, h⟩
  else if n < 0x80000000 then .error .notCodePoint
  else .error .escapeTooLarge

namespace Scan

/-- The line breaks and blanks after a line break in quotes. A document marker must not follow. -/
def quotedBreaks : Nat → Scan (List Char)
  | 0 => throw .malformed
  | fuel + 1 => do
    if ← atMarker then throw .malformed
    skipWhile (fun c => c = ' ' || c = '\t')
    match ← takeBreak? with
    | none => return []
    | some b => return b :: (← quotedBreaks fuel)

/-- Blanks and line breaks in quotes. -/
def quotedGap : Scan (List Char) := do
  let blanks ← span (fun c => c = ' ' || c = '\t')
  match ← takeBreak? with
  | none => return blanks
  | some b => return fold b (← quotedBreaks (← bound))

/-- What follows a backslash. An escaped line break is dropped. -/
def escape : Scan Text := do
  match ← peek with
  | none => throw .malformed
  | some e =>
    match escapes.lookup e, escapeWidth? e with
    | some c, _ =>
      advance 1
      return [.ofChar c]
    | none, some width =>
      advance 1
      let c ← escaped (← lookHex width)
      advance width
      return [c]
    | none, none =>
      match ← takeBreak? with
      | some _ => return Text.ofChars (← quotedBreaks (← bound))
      | none => throw .malformed

/-- The rest of a quoted scalar, with its closing quote. -/
def quotedFrom (double : Bool) : Nat → Scan Text
  | 0 => throw .malformed
  | fuel + 1 => do
    match ← peek with
    | none => throw .malformed
    | some c =>
      if c = '"' ∧ double then
        advance 1
        return []
      else if c = '\x27' ∧ !double then
        if (← look 1) = some c then
          advance 2
          return .ofChar c :: (← quotedFrom double fuel)
        else
          advance 1
          return []
      else if c = '\\' ∧ double then
        advance 1
        let t ← escape
        return t ++ (← quotedFrom double fuel)
      else if isBlank c then
        let gap ← quotedGap
        return Text.ofChars gap ++ (← quotedFrom double fuel)
      else
        advance 1
        return .ofChar c :: (← quotedFrom double fuel)

/-- A quoted scalar whose opening quote comes next. -/
def quoted (double : Bool) : Scan Text := do
  advance 1
  quotedFrom double (← bound)

end Scan

end Allowlist.Yaml
