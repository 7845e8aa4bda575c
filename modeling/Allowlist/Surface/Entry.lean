import Allowlist.Json.Basic

/-!
# Surface entries

An entry is the fact that a module has an export. Its raw form is an object with a string for each;
other fields do not matter. Of several defects the first in the order type, module, export counts.
-/
namespace Allowlist

structure Entry where
  moduleName : Text
  exportName : Text
  deriving DecidableEq

namespace Entry

inductive Field where
  | module
  | export
  deriving DecidableEq, Repr

def Field.name : Field → Text
  | .module => "module"
  | .export => "export"

inductive Fault where
  | notObject (got : Json.Kind)
  | absent (field : Field)
  | notString (field : Field)
  deriving DecidableEq, Repr

def Fault.message : Fault → Text
  | .notObject got => "entry must be an object, got " ++ got.name
  | .absent field => field.name ++ ": Field required"
  | .notString field => field.name ++ ": Input should be a valid string"

def readField (fields : Fields Json) (field : Field) : Except Fault Text :=
  match fields.get? field.name with
  | none => .error (.absent field)
  | some (.str s) => .ok s
  | some _ => .error (.notString field)

def ofJson (v : Json) : Except Fault Entry :=
  match v with
  | .obj fields => do
    let m ← readField fields .module
    let e ← readField fields .export
    .ok ⟨m, e⟩
  | other => .error (.notObject other.kind)

end Entry

end Allowlist
