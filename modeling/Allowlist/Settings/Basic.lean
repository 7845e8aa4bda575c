import Allowlist.Log.Level
import Allowlist.Policy.Variant

/-!
# Settings

What a run of the command line needs to know. Five fields, each with a name, an environment variable
and a default.
-/
namespace Allowlist

inductive LogFormat where
  | auto
  | human
  | json
  deriving DecidableEq, Repr

namespace LogFormat

def name : LogFormat → Text
  | .auto => "auto"
  | .human => "human"
  | .json => "json"

def all : List LogFormat := [.auto, .human, .json]

def named? (t : Text) : Option LogFormat := all.find? (·.name = t)

end LogFormat

/-- The levels that can be set. -/
inductive LevelName where
  | debug
  | info
  | warning
  | error
  | critical
  deriving DecidableEq, Repr

namespace LevelName

def level : LevelName → Log.Level
  | .debug => .debug
  | .info => .info
  | .warning => .warning
  | .error => .error
  | .critical => .critical

def name (l : LevelName) : Text := l.level.name

def all : List LevelName := [.debug, .info, .warning, .error, .critical]

def named? (t : Text) : Option LevelName := all.find? (·.name = t)

end LevelName

structure Settings where
  source : Text
  destination : Text
  variant : Variant
  logLevel : LevelName
  logFormat : LogFormat

namespace Settings

def default : Settings where
  source := "ontology/stdlib_surface.v1_0.ontology.json"
  destination := "spec/v1_0/anka_policy_allowed_stdlib.v1.json"
  variant := .permissive
  logLevel := .warning
  logFormat := .auto

inductive Field where
  | source
  | destination
  | variant
  | logLevel
  | logFormat
  deriving DecidableEq, Repr

namespace Field

/-- The fields in the order in which problems are reported. -/
def all : List Field := [.source, .destination, .variant, .logLevel, .logFormat]

def name : Field → Text
  | .source => "source"
  | .destination => "destination"
  | .variant => "variant"
  | .logLevel => "log_level"
  | .logFormat => "log_format"

def environmentName : Field → Text
  | .source => "POLICYGEN_SOURCE"
  | .destination => "POLICYGEN_DESTINATION"
  | .variant => "POLICYGEN_VARIANT"
  | .logLevel => "POLICYGEN_LOG_LEVEL"
  | .logFormat => "POLICYGEN_LOG_FORMAT"

end Field

/-- The environment variable that names a settings file. -/
def fileVariable : Text := "POLICYGEN_CONFIG"

end Settings

end Allowlist
