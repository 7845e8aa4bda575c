import Allowlist.Digest.Sha256
import Allowlist.Files.Basic
import Allowlist.Json.Display
import Allowlist.Json.Fault
import Allowlist.Policy.Basic
import Allowlist.Policy.Required

/-!
# Violations

What a check finds wrong with a stored policy, and how the report words it.
-/
namespace Allowlist

inductive Violation where
  | absent (path : Path)
  | unreadable (path : Path) (r : Files.Refusal)
  | emptyFile
  | severalLines
  | finalNewline
  | notUtf8 (f : Utf8.Fault)
  | notJson (m : Json.Misread)
  | notObject
  | wrongFields (keys : List Text)
  | wrongSchema (actual : Json)
  | sourceNotString
  | modulesNotObject
  | modulesUnsorted
  | exportsNotStrings (module : Text)
  | noExports (module : Text)
  | exportsUnsorted (module : Text)
  | notCanonical
  | unknownModule (module : Text)
  | unknownExport (module exported : Text)
  | wrongSource (actual : Json) (expected : Text)
  | notPermitted (module : Text)
  | gap (g : Gap)
  | outdated (committed generated : Utf8.Bytes)

namespace Violation

def message : Violation → Text
  | .absent path => path.text ++ " does not exist. Run the generator without --check."
  | .unreadable path r => "cannot read policy file " ++ path.text ++ ": " ++ r.message
  | .emptyFile => "policy file is empty"
  | .severalLines => "policy file must be single-line JSON (found \\n, \\r or \\t)"
  | .finalNewline => "policy file must not end with a newline"
  | .notUtf8 f => "policy file is not valid UTF-8 JSON: " ++ f.message
  | .notJson m => "policy file is not valid UTF-8 JSON: " ++ m.message
  | .notObject => "policy document must be a JSON object"
  | .wrongFields keys =>
    "top-level keys must be exactly " ++ .ofChars (Text.quotedList Policy.fieldNames) ++
      " in order, got " ++ .ofChars (Text.quotedList keys)
  | .wrongSchema actual =>
    "unexpected schema: " ++ actual.quoted ++ " (expected " ++ .ofChars policySchema.quoted ++ ")"
  | .sourceNotString => "source must be a string"
  | .modulesNotObject => "modules must be an object"
  | .modulesUnsorted => "module keys must be sorted ascending"
  | .exportsNotStrings m => "exports must be a list of strings for module " ++ m
  | .noExports m => "empty export list for module " ++ m
  | .exportsUnsorted m =>
    "exports must be strictly increasing (sorted, no duplicates) for module " ++ m
  | .notCanonical => "policy file is not in compact canonical JSON form"
  | .unknownModule m => "module not in surface: " ++ m
  | .unknownExport m e => "export not in surface: module=" ++ m ++ " export=" ++ e
  | .wrongSource actual expected =>
    "source mismatch: " ++ actual.quoted ++ " (expected " ++ .ofChars expected.quoted ++ ")"
  | .notPermitted m => "module not permitted in allow-list: " ++ m
  | .gap g => g.rejection.message
  | .outdated committed generated =>
    "policy file differs from generator output (sha256 committed=" ++
      .ofChars (Sha256.hex committed) ++ " generated=" ++ .ofChars (Sha256.hex generated) ++ ")"

end Violation

end Allowlist
