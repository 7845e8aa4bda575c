import Allowlist.Log.Record
import Allowlist.Run.Verify

/-!
# Events of a run

What a run tells the log. The events of the stages are for debugging; each stage that succeeds has
one. How a run ends is an event of its own, above that level.
-/
namespace Allowlist

inductive Event where
  | surfaceAccepted (entries : Nat)
  | entriesAggregated (entries modules : Nat)
  | requiredCovered (modules : Nat)
  | policyWritten (path : Path) (bytes : Nat)
  | policyVerified (path : Path) (variant : Text) (violations : Nat)
  | policyCompiled (variant source : Text) (path : Path) (modules : Nat)
  | driftDetected (destination : Text)
  | filesFailed (source destination : Text)
  | surfaceRejected (source kind : Text)

namespace Event

def level : Event → Log.Level
  | .policyCompiled _ _ _ _ => .info
  | .driftDetected _ => .error
  | .filesFailed _ _ => .error
  | .surfaceRejected _ _ => .error
  | _ => .debug

/-- The logger of an event; the command line reports how a run ends under its own name. -/
def logger (command : Text) : Event → Text
  | .surfaceAccepted _ => "policygen.contracts.loader"
  | .entriesAggregated _ _ => "policygen.aggregate"
  | .requiredCovered _ => "policygen.contracts.required"
  | .policyWritten _ _ => "policygen.emit"
  | .policyVerified _ _ _ => "policygen.verify"
  | .policyCompiled _ _ _ _ => "policygen.pipeline"
  | .driftDetected _ => command
  | .filesFailed _ _ => command
  | .surfaceRejected _ _ => command

def message : Event → Text
  | .surfaceAccepted _ => "Surface document accepted"
  | .entriesAggregated _ _ => "Aggregated surface entries"
  | .requiredCovered _ => "Required modules covered"
  | .policyWritten _ _ => "Policy document written"
  | .policyVerified _ _ _ => "Verified policy file"
  | .policyCompiled _ _ _ _ => "Compiled policy document"
  | .driftDetected _ => "Policy drift detected"
  | .filesFailed _ _ => "Policy I/O failed"
  | .surfaceRejected _ _ => "Surface rejected"

/-- No collection has more members. -/
def maxSize : Nat := 0x7FFFFFFFFFFFFFFF

/-- A number of members. -/
def number (n : Nat) : Json := .int (.ofNat (if n ≤ maxSize then n else maxSize))

def extras : Event → Fields Json
  | .surfaceAccepted entries => [("entry_count", number entries)]
  | .entriesAggregated entries modules =>
    [("entry_count", number entries), ("module_count", number modules)]
  | .requiredCovered modules => [("required_count", number modules)]
  | .policyWritten path bytes => [("path", .str path.text), ("bytes", number bytes)]
  | .policyVerified path variant violations =>
    [("path", .str path.text), ("variant", .str variant), ("violation_count", number violations)]
  | .policyCompiled variant source path modules =>
    [("variant", .str variant), ("source", .str source), ("destination", .str path.text),
      ("module_count", number modules)]
  | .driftDetected destination => [("destination", .str destination)]
  | .filesFailed source destination =>
    [("source", .str source), ("destination", .str destination)]
  | .surfaceRejected source kind => [("source", .str source), ("error_kind", .str kind)]

def record (command : Text) (e : Event) : Log.Record where
  logger := e.logger command
  level := e.level
  message := e.message
  exception := none
  extras := e.extras

/-- The stages that parse and group a surface. -/
def ofSurface (surface : Json) : List Event :=
  match Surface.ofJson surface with
  | .error _ => []
  | .ok s =>
    .surfaceAccepted s.entries.length ::
      match Exports.ofJson s.entries with
      | .error _ => []
      | .ok x => [.entriesAggregated s.entries.length x.length]

/-- The stage that looks for gaps, if modules are required. -/
def ofCover (surface : Json) (required : Option (List Text)) : List Event :=
  match required, Exports.ofSurface surface with
  | some names, .ok x =>
    match x.cover required with
    | .ok () => [.requiredCovered names.length]
    | .error _ => []
  | _, _ => []

def ofCompile (surface : Json) (required : Option (List Text)) : List Event :=
  ofSurface surface ++ ofCover surface required

/-- The stages of generating a policy file. -/
def ofGenerate (fs : Files) (source destination : Text) (variant : Variant) : List Event :=
  match Surface.load fs source with
  | .error _ => []
  | .ok surface =>
    ofCompile surface variant.required ++
      match Policy.generate fs source destination variant with
      | (_, .ok p) => [.policyWritten (Path.ofText destination) p.render.length]
      | (_, .error _) => []

/-- The stages of checking stored bytes against a surface. -/
def ofCheck (committed : Utf8.Bytes) (surface : Json) (path : Path) (variant : Variant)
    (found : Except Failure (List Violation)) : List Event :=
  match found with
  | .error _ => []
  | .ok violations =>
    (match Policy.decode committed with
      | .ok (.ok (.obj _)) => ofSurface surface
      | _ => []) ++ [.policyVerified path variant.name violations.length]

/-- The stages of verifying a policy file. -/
def ofVerify (fs : Files) (source destination : Text) (variant : Variant) : List Event :=
  let path := Path.ofText destination
  match Surface.load fs source with
  | .error _ => []
  | .ok surface =>
    ofCompile surface variant.required ++
      match Policy.compile surface source variant.required, fs.read path with
      | .ok _, .ok committed =>
        ofCheck committed surface path variant (Policy.verify fs source destination variant)
      | _, _ => []

end Event

end Allowlist
