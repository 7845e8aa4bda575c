import Allowlist.Assoc
import Allowlist.Text.Basic
import Allowlist.Number.Binary64

/-!
# JSON values

Integers are unbounded and apart from floating-point numbers. An object is the ordered map of its
fields.
-/
namespace Allowlist

inductive Json where
  | null
  | bool (b : Bool)
  | int (n : Int)
  | float (x : Binary64)
  | str (s : Text)
  | arr (items : List Json)
  | obj (fields : List (Text × Json))

/-- The fields of an object, in order. -/
abbrev Fields (α : Type) := Assoc Text α

namespace Json

/-- The kinds of JSON value; integers and floating-point numbers are one kind. -/
inductive Kind where
  | null | boolean | number | string | array | object
  deriving DecidableEq, Repr

def Kind.name : Kind → Text
  | .null => "null"
  | .boolean => "boolean"
  | .number => "number"
  | .string => "string"
  | .array => "array"
  | .object => "object"

def kind : Json → Kind
  | .null => .null
  | .bool _ => .boolean
  | .int _ => .number
  | .float _ => .number
  | .str _ => .string
  | .arr _ => .array
  | .obj _ => .object

def str? : Json → Option Text
  | .str s => some s
  | _ => none

def arr? : Json → Option (List Json)
  | .arr items => some items
  | _ => none

def obj? : Json → Option (Fields Json)
  | .obj fields => some fields
  | _ => none

/-- The elements of an array of strings. -/
def strings? (v : Json) : Option (List Text) :=
  v.arr?.bind (·.mapM str?)

end Json

end Allowlist
