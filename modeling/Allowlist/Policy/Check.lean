import Allowlist.Ascending
import Allowlist.Json.Reader
import Allowlist.Policy.Violation

/-!
# Checks of a stored policy

Four checks, each of which lists all that it finds. `checkBytes` looks at the form of the file,
`checkSurface` compares its facts and source with the surface, `checkAllowed` compares its modules
with those of a strict variant, and `checkGenerated` compares it with fresh output byte by byte.
-/
namespace Allowlist.Policy

open Ascending (isAscending)

/-- Line breaks and tabs. -/
def checkLines (raw : Utf8.Bytes) : List Violation :=
  (if raw.any (fun b => b = 0x0A || b = 0x0D || b = 0x09) then [.severalLines] else []) ++
    (if raw.getLast? = some 0x0A then [.finalNewline] else [])

/-- The exports of one module: strings, at least one, in order. -/
def checkExports (m : Text) (v : Json) : List Violation :=
  match v.strings? with
  | none => [.exportsNotStrings m]
  | some [] => [.noExports m]
  | some es => if isAscending es then [] else [.exportsUnsorted m]

def checkModules (modules : Fields Json) : List Violation :=
  (if isAscending modules.keys then [] else [.modulesUnsorted]) ++
    modules.flatMap (fun (m, v) => checkExports m v)

/-- The value of a field, null if the field is absent. -/
def fieldOf (policy : Fields Json) (name : Text) : Json := (policy.get? name).getD .null

def checkFields (policy : Fields Json) : List Violation :=
  (if policy.keys = fieldNames then [] else [.wrongFields policy.keys]) ++
    (if (fieldOf policy "schema").str? = some policySchema then []
      else [.wrongSchema (fieldOf policy "schema")]) ++
    (if (fieldOf policy "source").str?.isSome then [] else [.sourceNotString]) ++
    (match (fieldOf policy "modules").obj? with
      | none => [.modulesNotObject]
      | some modules => checkModules modules)

/-- The value that bytes hold, or why they hold none. -/
def decode (raw : Utf8.Bytes) : Except Json.LongInteger (Except Violation Json) :=
  match Utf8.decode raw with
  | .error f => .ok (.error (.notUtf8 f))
  | .ok cs =>
    match Json.read cs with
    | .ok v => .ok (.ok v)
    | .error (.misread m) => .ok (.error (.notJson m))
    | .error (.longInteger n) => .error n

/-- The form of the file. An integer that cannot be read stops the check. -/
def checkBytes (raw : Utf8.Bytes) : Except Json.LongInteger (List Violation) :=
  if raw = [] then .ok [.emptyFile]
  else
    match decode raw with
    | .error n => .error n
    | .ok (.error v) => .ok (checkLines raw ++ [v])
    | .ok (.ok v) =>
      match v with
      | .obj policy =>
        .ok (checkLines raw ++ checkFields policy ++
          (if Utf8.encode v.canonical = raw then [] else [.notCanonical]))
      | _ => .ok (checkLines raw ++ [.notObject])

/-- The modules whose exports are a list of strings. -/
def listed (modules : Fields Json) : Fields (List Text) :=
  modules.filterMap (fun (m, v) => v.strings?.map (m, ·))

/-- Every module and export is one of the surface, and the source is the expected one. -/
def checkSurface (policy : Fields Json) (surface : Exports) (source : Text) : List Violation :=
  (match (fieldOf policy "modules").obj? with
    | none => []
    | some modules =>
      (modules.keys.filter (fun m => (surface.get? m).isNone)).map .unknownModule ++
        (listed modules).flatMap (fun (m, es) =>
          match surface.get? m with
          | none => []
          | some known => (es.filter (fun e => e ∉ known)).map (.unknownExport m))) ++
    (if (fieldOf policy "source").str? = some source then []
      else [.wrongSource (fieldOf policy "source") source])

/-- Every module is allowed, and every allowed one is covered. A module whose exports are not a
list of strings is there, though its exports cannot be counted. -/
def checkAllowed (policy : Fields Json) (allowed : List Text) : List Violation :=
  match (fieldOf policy "modules").obj? with
  | none => []
  | some modules =>
    let counted := listed modules
    let required := allowed.filter (fun m =>
      (counted.get? m).isSome || (Assoc.get? modules m).isNone)
    (modules.keys.filter (· ∉ allowed)).map .notPermitted ++
      (Gap.all (fun m => (counted.get? m).map List.length) required).map .gap

def checkGenerated (committed generated : Utf8.Bytes) : List Violation :=
  if committed = generated then [] else [.outdated committed generated]

end Allowlist.Policy
