import Allowlist.Policy.Check
import Allowlist.Run.Generate

/-!
# Verifying a policy file

The surface is compiled in memory; the stored policy then goes through all checks, and what they
find is listed in their order. Nothing is written.
-/
namespace Allowlist.Policy

/-- Whether something is at the destination. -/
def isThere (fs : Files) (path : Path) : Except Failure Bool :=
  match fs.lookup path with
  | .ok _ => .ok true
  | .error (.badPath _) => .ok false
  | .error (.refused .nameTooLong) => .error (.destinationTooLong path)
  | .error (.refused _) => .ok false

/-- The checks that compare a stored policy object with the surface and the variant. -/
def checkContent (policy : Fields Json) (surface : Exports) (source : Text) (variant : Variant) :
    List Violation :=
  checkSurface policy surface source ++
    (match variant.required with
      | none => []
      | some allowed => checkAllowed policy allowed)

/-- All that is wrong with stored bytes. -/
def checkAll (committed : Utf8.Bytes) (surface : Json) (source : Text) (variant : Variant)
    (generated : Policy) : Except Failure (List Violation) :=
  match checkBytes committed with
  | .error n => .error (.longInteger n)
  | .ok form =>
    let content := match decode committed, Exports.ofSurface surface with
      | .ok (.ok (.obj policy)), .ok x => checkContent policy x source variant
      | _, _ => []
    .ok (form ++ content ++ checkGenerated committed generated.render)

/-- All that is wrong with the policy file at the destination. -/
def verify (fs : Files) (source destination : Text) (variant : Variant) :
    Except Failure (List Violation) :=
  let path := Path.ofText destination
  match Surface.load fs source with
  | .error f => .error f
  | .ok surface =>
    match compile surface source variant.required with
    | .error r => .error (.rejected r)
    | .ok generated =>
      match isThere fs path with
      | .error f => .error f
      | .ok false => .ok [.absent path]
      | .ok true =>
        match fs.read path with
        | .error (.badPath f) => .error (.badPath f)
        | .error (.refused r) => .ok [.unreadable path r]
        | .ok committed => checkAll committed surface source variant generated

/-- Fails with all that is wrong, if anything is. -/
def enforce (fs : Files) (source destination : Text) (variant : Variant) : Except Failure Unit :=
  match verify fs source destination variant with
  | .error f => .error f
  | .ok [] => .ok ()
  | .ok violations => .error (.drift destination violations)

end Allowlist.Policy
