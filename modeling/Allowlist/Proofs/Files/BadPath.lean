import Allowlist.Proofs.Files.Store

/-!
# Paths that no file can have

Every operation asks first whether a file can have the path, and asks of the path alone. Where
directories are made on the way, only the first path that is asked about can fail this: those above
it are beginnings of it.
-/
namespace Allowlist.Files

variable {p : Path} {f : Path.Fault}

end Allowlist.Files
