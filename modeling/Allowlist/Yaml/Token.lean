import Allowlist.Assoc
import Allowlist.Yaml.Scalar.Block
import Allowlist.Yaml.Scalar.Quoted
import Allowlist.Yaml.Tag

/-!
# Tokens

A settings file as a sequence of tokens. Indentation becomes tokens that open and close blocks. That
a scalar or collection is a key shows only at the colon behind it, so its place is remembered while
it may be one: on its line, and for 1024 characters. Then the key mark, and the start of the mapping
if it begins one, are put in before it.

Where the scan stops at a fault, the tokens before it are of use only as far as they are settled: a token
that may still become a key, and all behind it, are not.
-/
namespace Allowlist.Yaml

inductive Token where
  | directive (d : Directive)
  | documentStart
  | documentEnd
  | streamEnd
  | sequenceStart
  | mappingStart
  | blockEnd
  | listStart
  | listEnd
  | recordStart
  | recordEnd
  | entry
  | comma
  | key
  | value
  | alias (name : Name)
  | anchor (name : Name)
  | tag (t : Tag)
  | scalar (isPlain : Bool) (t : Text)
  deriving DecidableEq, Repr

/-- A token that may turn out to be a key. In a block it has to, if it stands at the indentation. -/
structure Candidate where
  token : Nat
  required : Bool
  index : Nat
  line : Nat
  column : Nat

structure Scanner where
  cursor : Cursor
  /-- How many brackets and braces are open. -/
  flow : Nat
  /-- Columns of the open blocks, innermost first; without one the indentation is -1. -/
  blocks : List Nat
  keyAllowed : Bool
  /-- The candidate at each depth of brackets. -/
  candidates : Assoc Nat Candidate
  tokens : Array Token

namespace Scanner

def start (source : Source) : Scanner := ⟨.start source, 0, [], true, [], #[]⟩

def indent (s : Scanner) : Int := (s.blocks.head?.map Int.ofNat).getD (-1)

def push (s : Scanner) (t : Token) : Scanner := { s with tokens := s.tokens.push t }

/-- Goes on behind what `scan` takes. -/
def take {α : Type} (s : Scanner) (scan : Scan α) : Except Fault (α × Scanner) := do
  let (a, cursor) ← scan.run s.cursor
  return (a, { s with cursor })

/-- Goes on behind a token. -/
def emit (s : Scanner) (scan : Scan Token) : Except Fault Scanner := do
  let (t, s) ← s.take scan
  return s.push t

/-- Goes on behind a token of `n` characters. -/
def mark (s : Scanner) (n : Nat) (t : Token) : Except Fault Scanner :=
  s.emit do
    Scan.advance n
    return t

def dropCandidate (s : Scanner) : Scanner :=
  { s with candidates := s.candidates.filter (·.1 ≠ s.flow) }

/-- Forgets the candidate at this depth, which must not be required. -/
def forget (s : Scanner) : Except Fault Scanner :=
  match s.candidates.get? s.flow with
  | some k => if k.required then .error .malformed else .ok s.dropCandidate
  | none => .ok s

/-- Whether a key may still be marked where the candidate stands. -/
def isNear (s : Scanner) (k : Candidate) : Bool :=
  k.line = s.cursor.line && s.cursor.index - k.index ≤ 1024

/-- Forgets all candidates that are out of reach, none of which must be required. -/
def expire (s : Scanner) : Except Fault Scanner :=
  if s.candidates.any (fun p => !s.isNear p.2 && p.2.required) then .error .malformed
  else .ok { s with candidates := s.candidates.filter (s.isNear ·.2) }

/-- The tokens before the first one that may still become a key. -/
def settled (s : Scanner) : List Token :=
  let near := s.candidates.filter (s.isNear ·.2)
  s.tokens.toList.take (near.foldl (fun n p => min n p.2.token) s.tokens.size)

/-- Remembers that the next token may be a key. -/
def remember (s : Scanner) : Except Fault Scanner :=
  if s.keyAllowed then do
    let s ← s.forget
    let required := s.flow = 0 ∧ s.indent = s.cursor.column
    .ok { s with
      candidates := s.candidates.put s.flow
        ⟨s.tokens.size, required, s.cursor.index, s.cursor.line, s.cursor.column⟩ }
  else .ok s

/-- Closes the blocks that are indented more than `column`. -/
def unwind (s : Scanner) (column : Int) : Scanner :=
  if s.flow = 0 then
    let inner := s.blocks.takeWhile (fun (b : Nat) => decide (column < Int.ofNat b))
    { s with
      blocks := s.blocks.drop inner.length
      tokens := s.tokens ++ (inner.map fun _ => Token.blockEnd).toArray }
  else s

/-- Opens a block at `column` by putting `t` before the token with the given number, if the column
is further in than the indentation. -/
def opened (s : Scanner) (column : Nat) (t : Token) (before : Nat) : Scanner :=
  if s.indent < column then
    { s with
      blocks := column :: s.blocks
      tokens := (s.tokens.toList.insertIdx before t).toArray }
  else s

/-- Skips spaces, comments and line breaks; whether there is a line break among them. -/
def skipSpace : Nat → Scan Bool
  | 0 => return false
  | fuel + 1 => do
    Scan.skipWhile (· = ' ')
    if (← Scan.peek) = some '#' then Scan.skipWhile (!isBreak ·)
    match ← Scan.takeBreak? with
    | some _ =>
      let _ ← skipSpace fuel
      return true
    | none => return false

/-- Skips what stands before a token, a byte order mark if it is the first. Behind a line break
outside of brackets a key may stand. -/
def toToken (s : Scanner) : Except Fault Scanner := do
  let (broken, s) ← s.take do
    if (← get).index = 0 ∧ (← Scan.peek) = some '\ufeff' then Scan.advance 1
    skipSpace (← Scan.bound)
  return { s with keyAllowed := s.keyAllowed || (broken && s.flow = 0) }

/-- Closes all blocks before a token that belongs to no document. -/
def outside (s : Scanner) : Except Fault Scanner := do
  let s ← (s.unwind (-1)).forget
  return { s with keyAllowed := false }

def openBracket (s : Scanner) (t : Token) : Except Fault Scanner := do
  let s ← s.remember
  { s with flow := s.flow + 1, keyAllowed := true }.mark 1 t

def closeBracket (s : Scanner) (t : Token) : Except Fault Scanner :=
  if s.flow = 0 then .error .malformed
  else do
    let s ← s.forget
    { s with flow := s.flow - 1, keyAllowed := false }.mark 1 t

def comma (s : Scanner) : Except Fault Scanner := do
  let s ← { s with keyAllowed := true }.forget
  s.mark 1 .comma

/-- Opens a block where a key or an entry is marked by itself. -/
def openedHere (s : Scanner) (t : Token) : Except Fault Scanner :=
  if s.flow = 0 then
    if s.keyAllowed then .ok (s.opened s.cursor.column t s.tokens.size) else .error .malformed
  else .ok s

def entry (s : Scanner) : Except Fault Scanner := do
  let s ← s.openedHere .sequenceStart
  let s ← { s with keyAllowed := true }.forget
  s.mark 1 .entry

def explicitKey (s : Scanner) : Except Fault Scanner := do
  let s ← s.openedHere .mappingStart
  let s ← { s with keyAllowed := s.flow = 0 }.forget
  s.mark 1 .key

def value (s : Scanner) : Except Fault Scanner :=
  match s.candidates.get? s.flow with
  | some k =>
    let s := s.dropCandidate
    let s := { s with
      tokens := (s.tokens.toList.insertIdx k.token .key).toArray
      keyAllowed := false }
    let s := if s.flow = 0 then s.opened k.column .mappingStart k.token else s
    s.mark 1 .value
  | none => do
    let s ← s.openedHere .mappingStart
    let s ← { s with keyAllowed := s.flow = 0 }.forget
    s.mark 1 .value

/-- A token that may be a key, or stand before one. -/
def keyLike (s : Scanner) (scan : Scan Token) : Except Fault Scanner := do
  let s ← s.remember
  { s with keyAllowed := false }.emit scan

def block (s : Scanner) (folded : Bool) : Except Fault Scanner := do
  let s ← { s with keyAllowed := true }.forget
  s.emit (return .scalar false (Text.ofChars (← Scan.block folded s.indent)))

def plain (s : Scanner) : Except Fault Scanner := do
  let s ← s.remember
  let ((cs, broken), s) ← s.take (Scan.plain (s.flow ≠ 0) (s.indent + 1))
  return { s with keyAllowed := broken }.push (.scalar true (Text.ofChars cs))

/-- Characters that do not begin a plain scalar, or only if something follows them. -/
def indicators : List Char := "-?:,[]\x7b\x7d#&*!|>\x27\"%@\x60".toList

/-- Scans one token where it depends on the character behind `c` what it is. -/
def stepByNext (s : Scanner) (c : Char) : Except Fault Scanner := do
  let (blank, _) ← s.take (return (← Scan.look 1).all isBlank)
  if blank then
    if c = '-' then s.entry
    else if c = '?' then s.explicitKey
    else if c = ':' then s.value
    else .error .malformed
  else if c = '-' ∨ c = '?' ∨ c = ':' then s.plain
  else .error .malformed

/-- Whether a document marker stands here, which it does only at the beginning of a line. -/
def atMarker (s : Scanner) (c : Char) : Except Fault Bool :=
  if s.cursor.column = 0 ∧ (c = '-' ∨ c = '.') then (s.take Scan.atMarker).map Prod.fst else .ok false

/-- Scans one token, which begins with `c`. -/
def step (s : Scanner) (c : Char) : Except Fault Scanner := do
  let flow : Bool := s.flow ≠ 0
  let marked ← s.atMarker c
  if marked then (← s.outside).mark 3 (if c = '-' then .documentStart else .documentEnd)
  else if c = '%' ∧ s.cursor.column = 0 then
    (← s.outside).emit (return .directive (← Scan.directive))
  else if c = '[' then s.openBracket .listStart
  else if c = '\x7b' then s.openBracket .recordStart
  else if c = ']' then s.closeBracket .listEnd
  else if c = '\x7d' then s.closeBracket .recordEnd
  else if c = ',' then s.comma
  else if c = '?' ∧ flow then s.explicitKey
  else if c = ':' ∧ flow then s.value
  else if c = '*' then s.keyLike (return .alias (← Scan.anchorName))
  else if c = '&' then s.keyLike (return .anchor (← Scan.anchorName))
  else if c = '!' then s.keyLike (return .tag (← Scan.tag))
  else if (c = '|' ∨ c = '>') ∧ !flow then s.block (c = '>')
  else if c = '\x27' ∨ c = '"' then s.keyLike (return .scalar false (← Scan.quoted (c = '"')))
  else if isBlank c ∨ indicators.contains c then s.stepByNext c
  else s.plain

/-- The next token, or nothing where the text ends. -/
def next? (s : Scanner) : Except Fault (Option Scanner) := do
  let s ← s.expire
  let s ← s.toToken
  let s ← s.expire
  let s := s.unwind s.cursor.column
  match s.cursor.rest with
  | [] => return none
  | c :: _ => return some (← s.step c)

/-- The tokens from here that can be read, and the fault behind them; `fuel` bounds their number. -/
def run : Nat → Scanner → List Token × Option Fault
  | 0, s => (s.settled, some .malformed)
  | fuel + 1, s =>
    match s.next? with
    | .error f => (s.settled, some f)
    | .ok (some next) => run fuel next
    | .ok none =>
      match s.outside with
      | .error f => (s.settled, some f)
      | .ok s => ((s.push .streamEnd).tokens.toList, none)

end Scanner

/-- The tokens of a text that can be read, and the fault behind them. -/
def Token.scan (source : Source) : List Token × Option Fault :=
  Scanner.run (source.chars.length + 1) (.start source)

end Allowlist.Yaml
