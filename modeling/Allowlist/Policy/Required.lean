import Allowlist.Rejection

/-!
# Required modules

A strict policy names the modules that the surface has to cover with one export at least. A gap is
a required module without any; gaps are listed in the order in which the modules are required.
-/
namespace Allowlist

inductive Gap where
  | missing (name : Text)
  | empty (name : Text)
  deriving DecidableEq

namespace Gap

def rejection : Gap → Rejection
  | .missing name => .missingModule name
  | .empty name => .emptyModule name

/-- The gap of one module, given the number of its exports if it is there. -/
def of? (count? : Text → Option Nat) (name : Text) : Option Gap :=
  match count? name with
  | none => some (.missing name)
  | some 0 => some (.empty name)
  | some _ => none

def all (count? : Text → Option Nat) (required : List Text) : List Gap :=
  required.filterMap (of? count?)

/-- Rejects with the first gap. -/
def reject (gaps : List Gap) : Except Rejection Unit :=
  match gaps with
  | [] => .ok ()
  | g :: _ => .error g.rejection

end Gap

/-- The modules of the strict variant. -/
def ankaModules : List Text :=
  ["std/hash", "std/bytes", "std/codec", "std/json", "std/str", "std/record", "std/list",
    "std/result", "std/option", "std/trace", "std/artifact", "std/time", "std/fs", "std/http"]

end Allowlist
