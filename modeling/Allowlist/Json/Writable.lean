import Allowlist.Json.Basic
import Allowlist.Json.Fault

/-!
# Values that can be written

An integer of too many digits has no text, neither in JSON nor in a message, and a value that holds
one at any depth has none either.
-/
namespace Allowlist.Json

/-- Whether the digits of an integer are few enough to be written. -/
def isShort (n : Int) : Bool := (Digits.decimal n.natAbs).length ≤ maxIntegerDigits

mutual

/-- Whether no integer in a value has too many digits. -/
def isWritable : Json → Bool
  | .int n => isShort n
  | .arr items => areItemsWritable items
  | .obj fields => areFieldsWritable fields
  | _ => true

def areItemsWritable : List Json → Bool
  | [] => true
  | v :: rest => isWritable v && areItemsWritable rest

def areFieldsWritable : List (Text × Json) → Bool
  | [] => true
  | (_, v) :: rest => isWritable v && areFieldsWritable rest

end

end Allowlist.Json
