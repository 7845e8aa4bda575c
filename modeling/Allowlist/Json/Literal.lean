import Allowlist.Json.Basic
import Allowlist.Json.Fault

/-!
# JSON strings and numbers

A string is read up to its closing quote, each escape giving one code point; two escapes that
denote one character are joined afterwards. A number is the longest match of the number grammar: a
point or an exponent mark without digits behind it is left to the text that follows.
-/
namespace Allowlist.Json

def escaped? : Char → Option Char
  | '"' => some '"'
  | '\\' => some '\\'
  | '/' => some '/'
  | 'b' => some '\x08'
  | 'f' => some '\x0c'
  | 'n' => some '\n'
  | 'r' => some '\r'
  | 't' => some '\t'
  | _ => none

/-- The code point of four hexadecimal digits. -/
def hexCodePoint? (a b c d : Char) : Option CodePoint :=
  if [a, b, c, d].all Digits.isHex then
    let n := Digits.value 16 [a, b, c, d]
    if h : n < 0x110000 then some ⟨n, h⟩ else none
  else none

/-- The code points up to the closing quote, and the text behind it. `start` is the text behind the
opening quote. A hexadecimal escape has to be followed by something. -/
def scanString (start : List Char) : List Char → Except Stop (Text × List Char)
  | [] => .error (.fault .unterminatedString (start.length + 1))
  | '"' :: rest => .ok ([], rest)
  | '\\' :: 'u' :: rest =>
    match rest with
    | a :: b :: c :: d :: e :: more =>
      match hexCodePoint? a b c d with
      | some p => do
        let (t, left) ← scanString start (e :: more)
        .ok (p :: t, left)
      | none => .error (.fault .badHexEscape (rest.length + 1))
    | _ => .error (.fault .badHexEscape (rest.length + 1))
  | '\\' :: e :: rest =>
    match escaped? e with
    | some c => do
      let (t, left) ← scanString start rest
      .ok (.ofChar c :: t, left)
    | none => .error (.fault .badEscape (rest.length + 2))
  | '\\' :: [] => .error (.fault .unterminatedString (start.length + 1))
  | c :: rest =>
    if c < ' ' then .error (.fault .controlCharacter (rest.length + 1))
    else do
      let (t, left) ← scanString start rest
      .ok (.ofChar c :: t, left)

/-- Reads a string whose opening quote stands directly before `rest`. -/
def readString (rest : List Char) : Except Stop (Text × List Char) := do
  let (t, left) ← scanString rest rest
  .ok (t.joinPairs, left)

/-- The parts of a number as they are written. -/
structure NumberParts where
  negative : Bool
  whole : List Char
  /-- Digits behind the point, if there is one. -/
  fraction : Option (List Char)
  /-- Sign and digits of the exponent, if there is one. -/
  exponent : Option (Bool × List Char)

def digitsOf (cs : List Char) : List Char × List Char :=
  (cs.takeWhile Digits.isDecimal, cs.dropWhile Digits.isDecimal)

def takeSign : List Char → Bool × List Char
  | '-' :: cs => (true, cs)
  | cs => (false, cs)

def takeWhole? : List Char → Option (List Char × List Char)
  | '0' :: cs => some (['0'], cs)
  | cs =>
    let (ds, rest) := digitsOf cs
    if ds = [] then none else some (ds, rest)

def takeFraction (cs : List Char) : Option (List Char) × List Char :=
  match cs with
  | '.' :: rest =>
    let (ds, left) := digitsOf rest
    if ds = [] then (none, cs) else (some ds, left)
  | _ => (none, cs)

def takeExponent (cs : List Char) : Option (Bool × List Char) × List Char :=
  match cs with
  | e :: rest =>
    if e = 'e' ∨ e = 'E' then
      let (negative, body) := match rest with
        | '-' :: body => (true, body)
        | '+' :: body => (false, body)
        | body => (false, body)
      let (ds, left) := digitsOf body
      if ds = [] then (none, cs) else (some (negative, ds), left)
    else (none, cs)
  | [] => (none, cs)

def takeNumber? (cs : List Char) : Option (NumberParts × List Char) := do
  let (negative, body) := takeSign cs
  let (whole, afterWhole) ← takeWhole? body
  let (fraction, afterFraction) := takeFraction afterWhole
  let (exponent, rest) := takeExponent afterFraction
  some (⟨negative, whole, fraction, exponent⟩, rest)

/-- An integer without point and exponent, otherwise the nearest binary number. -/
def NumberParts.value (p : NumberParts) : Except Stop Json :=
  if p.fraction.isNone && p.exponent.isNone then
    if maxIntegerDigits < p.whole.length then .error (.longInteger ⟨p.whole.length⟩)
    else
      let n : Int := Digits.value 10 p.whole
      .ok (.int (if p.negative then -n else n))
  else
    let fraction := p.fraction.getD []
    let digits := p.whole ++ fraction
    let exponent : Int := match p.exponent with
      | none => 0
      | some (negative, ds) =>
        let n : Int := Digits.value 10 ds
        if negative then -n else n
    .ok (.float (.ofDecimal p.negative (Digits.value 10 digits) digits.length
      (exponent - fraction.length)))

def readNumber (cs : List Char) : Except Stop (Json × List Char) :=
  match takeNumber? cs with
  | none => .error (.fault .expectedValue cs.length)
  | some (parts, rest) => do
    let v ← parts.value
    .ok (v, rest)

end Allowlist.Json
