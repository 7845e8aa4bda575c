import Allowlist.Ascending
import Allowlist.Files.Basic

/-!
# Listing the working directory

Everything below the working directory, in order; a directory has a slash at its end.
-/
namespace Allowlist.Files

/-- The location relative to the working directory, if it lies below it. -/
def below? (fs : Files) (l : Location) : Option Location :=
  if fs.workingDirectory.isPrefixOf l ∧ l ≠ fs.workingDirectory then
    some (l.drop fs.workingDirectory.length)
  else none

def listing (fs : Files) : List Text :=
  Ascending.sortUnique (fs.nodes.filterMap fun (l, n) =>
    (fs.below? l).map fun names =>
      Text.join [Path.slash] names ++
        match n with
        | .directory => [Path.slash]
        | .file _ => [])

end Allowlist.Files
