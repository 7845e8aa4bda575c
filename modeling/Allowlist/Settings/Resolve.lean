import Allowlist.Assoc
import Allowlist.Settings.Basic
import Allowlist.Yaml.Value

/-!
# Resolving settings

A field takes its value from its environment variable if that is not empty, otherwise from the
settings file if the file has its key, otherwise from the default. Only a string is valid, and only
a known name where there is a choice; a level may be spelt in any case. Where there is no choice, bytes
are valid as well, if there is a string that they encode. All problems are reported,
those of the fields first and then those of other keys in the order of the merged mapping. A key that
holds a surrogate hides all other problems.
-/
namespace Allowlist.Settings

abbrev Environment := Assoc Text Text

/-- The value of a variable, unless it is empty. -/
def fromEnvironment (env : Environment) (name : Text) : Option Text :=
  (env.get? name).filter (· ≠ [])

abbrev Mapping := List (Yaml.Value × Yaml.Value)

/-- The mapping of the file with the values of the environment put in. -/
def merge (file : Mapping) (env : Environment) : Mapping :=
  Field.all.foldl (fun m f =>
    match fromEnvironment env f.environmentName with
    | some t => Yaml.Value.put m (.str f.name) (.str t)
    | none => m) file

inductive Problem where
  | invalid (f : Field)
  | notUnicode (f : Field)
  | extra (key : Text)
  | keyNotString (key : Text)
  | keyNotUnicode
  deriving DecidableEq

namespace Problem

/-- Names in quotes, the last one after `or`. -/
def choices : List Text → Text
  | [] => []
  | [t] => .ofChars t.quoted
  | [t, u] => .ofChars t.quoted ++ " or " ++ .ofChars u.quoted
  | t :: rest => .ofChars t.quoted ++ ", " ++ choices rest

def expectation : Field → Text
  | .source => "a valid string"
  | .destination => "a valid string"
  | .variant => choices (Variant.all.map (·.name))
  | .logLevel => choices (LevelName.all.map (·.name))
  | .logFormat => choices (LogFormat.all.map (·.name))

def notUnicodeMessage : Text :=
  "Input should be a valid string, unable to parse raw data as a unicode string"

def message : Problem → Text
  | .invalid f => f.name ++ ": Input should be " ++ expectation f
  | .notUnicode f => f.name ++ ": " ++ notUnicodeMessage
  | .extra key => key ++ ": Extra inputs are not permitted"
  | .keyNotString key => key ++ ": Keys should be strings"
  | .keyNotUnicode => ": " ++ notUnicodeMessage

/-- The problem of a key that is not a field. -/
def ofKey? : Yaml.Value → Option Problem
  | .str t => if t ∈ Field.all.map (·.name) then none else some (.extra t)
  | key => some (.keyNotString key.display)

end Problem

namespace Mapping

/-- The value of a field, if the mapping has its key. -/
def value? (m : Mapping) (f : Field) : Option Yaml.Value :=
  (m.find? (fun p => p.1.sameKey (.str f.name))).map Prod.snd

/-- The default if there is no value, otherwise a string that `parse` takes. Of one that it does not
take, a surrogate is what is wrong if there is one. -/
def read {α : Type} (m : Mapping) (f : Field) (default : α) (parse : Text → Option α) :
    Except Problem α :=
  match m.value? f with
  | none => .ok default
  | some (.str t) =>
    match parse t with
    | some a => .ok a
    | none => .error (if t.hasSurrogate then .notUnicode f else .invalid f)
  | some _ => .error (.invalid f)

/-- A field without a choice. -/
def readFree (m : Mapping) (f : Field) (default : Text) : Except Problem Text :=
  match m.value? f with
  | some (.bytes bs) =>
    match Utf8.decode bs with
    | .ok cs => .ok (.ofChars cs)
    | .error _ => .error (.notUnicode f)
  | _ => m.read f default some

def source (m : Mapping) : Except Problem Text := m.readFree .source default.source

def destination (m : Mapping) : Except Problem Text := m.readFree .destination default.destination

def variant (m : Mapping) : Except Problem Variant :=
  m.read .variant default.variant Variant.named?

def logLevel (m : Mapping) : Except Problem LevelName :=
  m.read .logLevel default.logLevel (fun t => LevelName.named? t.toUpper)

def logFormat (m : Mapping) : Except Problem LogFormat :=
  m.read .logFormat default.logFormat LogFormat.named?

def problemOf {α : Type} : Except Problem α → List Problem
  | .ok _ => []
  | .error p => [p]

/-- Whether a key is a string with a surrogate. -/
def hasSurrogateKey (m : Mapping) : Bool :=
  m.any fun p => match p.1 with
    | .str t => t.hasSurrogate
    | _ => false

/-- All that is wrong with a mapping. -/
def problems (m : Mapping) : List Problem :=
  if m.hasSurrogateKey then [.keyNotUnicode]
  else
    problemOf m.source ++ problemOf m.destination ++ problemOf m.variant ++ problemOf m.logLevel ++
      problemOf m.logFormat ++ m.filterMap (Problem.ofKey? ·.1)

/-- The settings of a mapping, or all that is wrong with it. -/
def settings (m : Mapping) : Except (List Problem) Settings :=
  match m.source, m.destination, m.variant, m.logLevel, m.logFormat, m.problems with
  | .ok source, .ok destination, .ok variant, .ok logLevel, .ok logFormat, [] =>
    .ok { source, destination, variant, logLevel, logFormat }
  | _, _, _, _, _, ps => .error ps

end Mapping

def resolve (file : Mapping) (env : Environment) : Except (List Problem) Settings :=
  (merge file env).settings

end Allowlist.Settings
