import Allowlist.Policy.Basic
import Allowlist.Policy.Ordered
import Allowlist.Policy.Required

/-!
# From surface to policy

The entries of the surface are grouped by module, a strict variant has its required modules
covered, and what is kept is put in order. The first defect rejects the surface.
-/
namespace Allowlist

/-- The grouped exports of a surface document. -/
def Exports.ofSurface (surface : Json) : Except Rejection Exports :=
  match Surface.ofJson surface with
  | .error r => .error r
  | .ok s => Exports.ofJson s.entries

namespace Exports

def count? (x : Exports) (name : Text) : Option Nat := (x.get? name).map List.length

def cover (x : Exports) (required : Option (List Text)) : Except Rejection Unit :=
  match required with
  | none => .ok ()
  | some names => Gap.reject (Gap.all x.count? names)

end Exports

namespace Policy

/-- The policy of grouped exports. -/
def ofExports (x : Exports) (source : Text) (required : Option (List Text)) :
    Except Rejection Policy :=
  match x.cover required with
  | .error r => .error r
  | .ok () =>
    match x.ordered required with
    | .error name => .error (.unlistedModule name)
    | .ok modules => .ok ⟨source, modules⟩

/-- The policy that a surface document gives under required modules, if there are any. -/
def compile (surface : Json) (source : Text) (required : Option (List Text)) :
    Except Rejection Policy :=
  match Exports.ofSurface surface with
  | .error r => .error r
  | .ok x => ofExports x source required

end Policy

end Allowlist
