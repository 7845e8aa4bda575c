import Allowlist.Proofs.Files.BadPath
import Allowlist.Proofs.Run.Generate
import Allowlist.Proofs.Run.Stopped

/-!
# Failures that are not expected

Which failures of loading, generating and verifying the command line does not report, each with its
exact cause. All of them come from the reader of JSON or from the file system; the checks and the
compiler have none.
-/
namespace Allowlist

variable {fs : Files} {source destination : Text} {variant : Variant} {f : Failure}

/-- A surface file with an integer that is too long, once its line ends are unified. -/
def Surface.StoppedBy (content : Utf8.Bytes) (n : Json.LongInteger) : Prop :=
  ∃ cs, Utf8.decode content = .ok cs ∧ Json.read (Lines.unify cs) = .error (.longInteger n)

/-- Why a surface cannot be loaded and nothing is reported. -/
inductive Surface.Escapes (fs : Files) (source : Text) : Failure → Prop
  | path {f : Path.Fault} (h : (Path.ofText source).fault? = some f) : Escapes fs source (.badPath f)
  | integer {content : Utf8.Bytes} {n : Json.LongInteger}
      (hr : fs.read (Path.ofText source) = .ok content) (h : StoppedBy content n) :
      Escapes fs source (.longInteger n)

namespace Policy

end Policy

end Allowlist
