import Allowlist.Files.Basic
import Allowlist.Settings.Resolve
import Allowlist.Yaml.Document

/-!
# Loading settings

The settings file is the one that is given, or the one that the environment names; without either
there is none. An empty file sets nothing.
-/
namespace Allowlist.Settings

inductive Error where
  | unreadable (path : Path) (r : Files.Refusal)
  | notYaml (path : Path)
  | notMapping (path : Path)
  | invalid (problems : List Problem)
  | badPath (f : Path.Fault)
  | badValue (f : Yaml.Fault)

namespace Error

/-- Whether the command line reports the error. -/
def isExpected : Error → Bool
  | .badPath _ => false
  | .badValue _ => false
  | _ => true

/-- What the parser says of a file that is not valid stays out of the message. -/
def message : Error → Text
  | .unreadable path r => "cannot read settings file " ++ path.text ++ ": " ++ r.message
  | .notYaml path => "settings file is not valid YAML: " ++ path.text
  | .notMapping path => "settings file must contain a mapping: " ++ path.text
  | .invalid problems =>
    "invalid settings: " ++ Text.join "; " (problems.map (·.message))
  | .badPath f => f.message
  | .badValue f => f.message

end Error

/-- The mapping of a settings file. -/
def readMapping (fs : Files) (name : Text) : Except Error Mapping :=
  let path := Path.ofText name
  match fs.read path with
  | .error (.badPath f) => .error (.badPath f)
  | .error (.refused r) => .error (.unreadable path r)
  | .ok content =>
    match Yaml.Document.read content with
    | .error .malformed => .error (.notYaml path)
    | .error f => .error (.badValue f)
    | .ok .empty => .ok []
    | .ok (.mapping pairs) => .ok pairs
    | .ok .other => .error (.notMapping path)

/-- The name of the settings file. An empty one counts as none. -/
def fileOf (config : Option Text) (env : Environment) : Option Text :=
  (config.filter (· ≠ [])).or (fromEnvironment env fileVariable)

def load (fs : Files) (config : Option Text) (env : Environment) : Except Error Settings :=
  let file : Except Error Mapping := match fileOf config env with
    | none => .ok []
    | some name => readMapping fs name
  match file with
  | .error e => .error e
  | .ok mapping =>
    match resolve mapping env with
    | .error problems => .error (.invalid problems)
    | .ok s => .ok s

end Allowlist.Settings
