import Allowlist.Json.Reader
import Allowlist.Policy.Compile
import Allowlist.Policy.Variant
import Allowlist.Run.Failure
import Allowlist.Text.Lines

/-!
# Generating a policy file

The surface file is read and compiled before anything is written; then the destination's directory
is made if need be, and the policy is written.
-/
namespace Allowlist

/-- The JSON value of a surface file. -/
def Surface.load (fs : Files) (source : Text) : Except Failure Json :=
  let path := Path.ofText source
  match fs.read path with
  | .error (.badPath f) => .error (.badPath f)
  | .error (.refused r) => .error (.surfaceUnreadable path r)
  | .ok content =>
    match Utf8.decode content with
    | .error f => .error (.surfaceNotUtf8 path f)
    | .ok cs =>
      match Json.read (Lines.unify cs) with
      | .error (.longInteger n) => .error (.longInteger n)
      | .error (.misread m) => .error (.surfaceNotJson path m)
      | .ok v => .ok v

namespace Policy

/-- The policy that a surface file gives under a variant. -/
def ofFile (fs : Files) (source : Text) (variant : Variant) : Except Failure Policy :=
  match Surface.load fs source with
  | .error f => .error f
  | .ok surface =>
    match compile surface source variant.required with
    | .error r => .error (.rejected r)
    | .ok p => .ok p

/-- Writes a policy file. A failure may leave directories behind. -/
def save (p : Policy) (fs : Files) (destination : Text) : Files × Except Failure Unit :=
  let path := Path.ofText destination
  match fs.store path p.render with
  | (fs, .ok ()) => (fs, .ok ())
  | (fs, .error (.badPath f)) => (fs, .error (.badPath f))
  | (fs, .error (.refused r)) => (fs, .error (.policyUnwritable path r))

/-- Compiles a surface file and writes the policy, and gives what is on disk afterwards. -/
def generate (fs : Files) (source destination : Text) (variant : Variant) :
    Files × Except Failure Policy :=
  match ofFile fs source variant with
  | .error f => (fs, .error f)
  | .ok p =>
    match p.save fs destination with
    | (fs, .error f) => (fs, .error f)
    | (fs, .ok ()) => (fs, .ok p)

end Policy

end Allowlist
