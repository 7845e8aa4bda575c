import Allowlist.Proofs.Files.BadPath
import Allowlist.Settings.Load

/-!
# Settings that end a run

Loading the settings has two errors that are not reported: a path that no file can have, and content
that is refused for anything but its form. The second is met in the file only, so neither depends on
what the settings are resolved to.
-/
namespace Allowlist.Settings

/-- Why loading the settings ends a run without a report. -/
inductive Escapes (fs : Files) (config : Option Text) (env : Environment) : Error → Prop
  | path {name : Text} {f : Path.Fault} (hn : fileOf config env = some name)
      (h : (Path.ofText name).fault? = some f) : Escapes fs config env (.badPath f)
  | content {name : Text} {content : Utf8.Bytes} {f : Yaml.Fault}
      (hn : fileOf config env = some name) (hr : fs.read (Path.ofText name) = .ok content)
      (h : Yaml.Document.read content = .error f) (hf : f ≠ .malformed) :
      Escapes fs config env (.badValue f)

variable {fs : Files} {config : Option Text} {env : Environment} {name : Text} {e : Error}

end Allowlist.Settings
