import Allowlist.Json.Fault
import Allowlist.Text.Quoted
import Allowlist.Text.Utf8
import Allowlist.Yaml.Date

/-!
# What is wrong with a settings file

Its bytes, its form, or a scalar without the value that its spelling or its tag promises.
-/
namespace Allowlist.Yaml

inductive Fault where
  | malformed
  | notUtf8 (f : Utf8.Fault)
  | notCodePoint
  | escapeTooLarge
  | notInteger (base : Nat) (t : Text)
  | longInteger (n : Json.LongInteger)
  | notFraction (t : Text)
  | unitTooLarge
  | noCharacter
  | notTruth (t : Text)
  | notDate
  | notText
  | yearRange (year : Nat)
  | monthRange
  | dayRange
  | hourRange
  | minuteRange
  | secondRange
  | zoneRange (ahead : Minutes)
  deriving DecidableEq, Repr

/-- Of a text that is no integer only so much is shown. -/
def Fault.shownCharacters : Nat := 200

def Fault.message : Fault → Text
  | .malformed => "not valid YAML"
  | .notUtf8 f => f.message
  | .notCodePoint => "chr() arg not in range(0x110000)"
  | .escapeTooLarge => "Python int too large to convert to C int"
  | .notInteger base t =>
    "invalid literal for int() with base " ++ Digits.text base ++ ": " ++
      .ofChars (t.quoted.take shownCharacters)
  | .longInteger n => n.message
  | .notFraction t => "could not convert string to float: " ++ .ofChars t.quoted
  | .unitTooLarge => "int too large to convert to float"
  | .noCharacter => "string index out of range"
  | .notTruth t => .ofChars t.quoted
  | .notDate => "'NoneType' object has no attribute 'groupdict'"
  | .notText => "expected string or bytes-like object, got 'list'"
  | .yearRange year => "year " ++ Digits.text year ++ " is out of range"
  | .monthRange => "month must be in 1..12"
  | .dayRange => "day is out of range for month"
  | .hourRange => "hour must be in 0..23"
  | .minuteRange => "minute must be in 0..59"
  | .secondRange => "second must be in 0..59"
  | .zoneRange ahead =>
    "offset must be a timedelta strictly between -timedelta(hours=24) and timedelta(hours=24), not " ++
      ahead.display ++ "."

end Allowlist.Yaml
