import Allowlist.Ascending
import Allowlist.Surface.Exports

/-!
# Modules in order

A policy has its modules in strictly ascending order, and so the exports of each. The modules may be
restricted to given names, all of which have to be there.
-/
namespace Allowlist

open Ascending (sortUnique)

namespace Exports

/-- One module with its exports in order, or its name if there is none. -/
def orderedModule (x : Exports) (name : Text) : Except Text (Text × List Text) :=
  match x.get? name with
  | some exports => .ok (name, sortUnique exports)
  | none => .error name

/-- The modules in order. If names of `only` are absent, the least of them is the error. -/
def ordered (x : Exports) (only : Option (List Text)) : Except Text (Fields (List Text)) :=
  (sortUnique (only.getD x.keys)).mapM x.orderedModule

end Exports

end Allowlist
