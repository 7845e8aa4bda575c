import Allowlist.Number.Digits
import Allowlist.Text.Basic
import Allowlist.Text.Lines

/-!
# What is wrong with a JSON text

The reader stops at the first fault. While it reads, a place is the number of characters that are
left; `Misread.locate` turns that into position, line and column of the whole text.
-/
namespace Allowlist.Json

inductive Fault where
  | byteOrderMark
  | expectedValue
  | expectedName
  | expectedColon
  | expectedComma
  | extraData
  | unterminatedString
  | controlCharacter
  | badEscape
  | badHexEscape
  deriving DecidableEq, Repr

def Fault.message : Fault → Text
  | .byteOrderMark => "Unexpected UTF-8 BOM (decode using utf-8-sig)"
  | .expectedValue => "Expecting value"
  | .expectedName => "Expecting property name enclosed in double quotes"
  | .expectedColon => "Expecting ':' delimiter"
  | .expectedComma => "Expecting ',' delimiter"
  | .extraData => "Extra data"
  | .unterminatedString => "Unterminated string starting at"
  | .controlCharacter => "Invalid control character at"
  | .badEscape => "Invalid \\escape"
  | .badHexEscape => "Invalid \\uXXXX escape"

/-- A fault and its place: `position` counts from zero, `line` and `column` from one. -/
structure Misread where
  fault : Fault
  position : Nat
  line : Nat
  column : Nat
  deriving DecidableEq, Repr

def Misread.locate (text : List Char) (f : Fault) (left : Nat) : Misread :=
  let position := text.length - left
  let (line, column) := Lines.place (text.take position)
  ⟨f, position, line, column⟩

def Misread.message (m : Misread) : Text :=
  m.fault.message ++ ": line " ++ Digits.text m.line ++ " column " ++
    Digits.text m.column ++ " (char " ++ Digits.text m.position ++ ")"

/-- An integer may have this many digits. -/
def maxIntegerDigits : Nat := 4300

/-- An integer with more digits than are read. -/
structure LongInteger where
  digits : Nat
  deriving DecidableEq, Repr

def LongInteger.message (n : LongInteger) : Text :=
  "Exceeds the limit (" ++ Digits.text maxIntegerDigits ++
    " digits) for integer string conversion: value has " ++ Digits.text n.digits ++
    " digits; use sys.set_int_max_str_digits() to increase the limit"

/-- Why and where the reader stopped. An integer that is too long stops it anywhere. -/
inductive Stop where
  | fault (f : Fault) (left : Nat)
  | longInteger (n : LongInteger)
  deriving DecidableEq, Repr

inductive ReadError where
  | misread (m : Misread)
  | longInteger (n : LongInteger)
  deriving DecidableEq, Repr

end Allowlist.Json
