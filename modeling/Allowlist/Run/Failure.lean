import Allowlist.Policy.Violation

/-!
# Failures

Why a run on files does not end well. The first six are reported by the command line; the others
end a program that does not expect them.
-/
namespace Allowlist

inductive Failure where
  | surfaceUnreadable (path : Path) (r : Files.Refusal)
  | surfaceNotUtf8 (path : Path) (f : Utf8.Fault)
  | surfaceNotJson (path : Path) (m : Json.Misread)
  | rejected (r : Rejection)
  | policyUnwritable (path : Path) (r : Files.Refusal)
  | drift (destination : Text) (violations : List Violation)
  | badPath (f : Path.Fault)
  | longInteger (n : Json.LongInteger)
  /-- A destination whose presence cannot be asked for. -/
  | destinationTooLong (path : Path)

namespace Failure

/-- Whether the command line reports the failure. -/
def isExpected : Failure → Bool
  | .badPath _ => false
  | .longInteger _ => false
  | .destinationTooLong _ => false
  | _ => true

/-- A list in a message, an item a line. -/
def bullets (ts : List Text) : Text :=
  Text.join "\n" (ts.map fun t => "  - " ++ t)

def message : Failure → Text
  | .surfaceUnreadable path r => "cannot read surface file " ++ path.text ++ ": " ++ r.message
  | .surfaceNotUtf8 path f => "surface file is not UTF-8: " ++ path.text ++ ": " ++ f.message
  | .surfaceNotJson path m =>
    "surface file is not valid JSON: " ++ path.text ++ ": " ++ m.fault.message ++ " at line " ++
      Digits.text m.line ++ " column " ++ Digits.text m.column
  | .rejected r => r.message
  | .policyUnwritable path r => "cannot write policy file " ++ path.text ++ ": " ++ r.message
  | .drift destination violations =>
    "Policy check failed for " ++ destination ++ " with " ++ Digits.text violations.length ++
      " violation(s):\n" ++ bullets (violations.map (·.message))
  | .badPath f => f.message
  | .longInteger n => n.message
  | .destinationTooLong path =>
    "[Errno 36] " ++ Files.Refusal.nameTooLong.message ++ ": " ++ .ofChars path.text.quoted

end Failure

end Allowlist
