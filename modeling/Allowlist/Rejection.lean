import Allowlist.Json.Display
import Allowlist.Surface.Entry

/-!
# Rejections

Why a surface does not give a policy. Each rejection has a kind, by which reports name it, and a
message.
-/
namespace Allowlist

def surfaceSchema : Text := "fard.stdlib_surface.entries.v1_0"

inductive Rejection where
  | notObject (got : Json.Kind)
  /-- The schema tag, null if there is none. -/
  | wrongSchema (actual : Json)
  | noEntries
  | entriesNotArray (got : Json.Kind)
  | malformedEntry (index : Int) (fault : Entry.Fault)
  | missingModule (name : Text)
  | emptyModule (name : Text)
  /-- A module that the canonical order asks for and the surface does not have. -/
  | unlistedModule (name : Text)

namespace Rejection

def kind : Rejection → Text
  | .notObject _ => "InvalidDocument"
  | .wrongSchema _ => "SchemaMismatch"
  | .noEntries => "MissingEntries"
  | .entriesNotArray _ => "MissingEntries"
  | .malformedEntry _ _ => "MalformedEntry"
  | .missingModule _ => "MissingRequiredModule"
  | .emptyModule _ => "EmptyRequiredModule"
  | .unlistedModule _ => "UnlistedModule"

def message : Rejection → Text
  | .notObject got => "surface document must be a JSON object, got " ++ got.name
  | .wrongSchema actual =>
    "unexpected schema: " ++ actual.quoted ++ " (expected " ++ .ofChars surfaceSchema.quoted ++ ")"
  | .noEntries => "missing entries array"
  | .entriesNotArray got => "missing entries array (got " ++ got.name ++ ")"
  | .malformedEntry index fault =>
    "malformed entry at index " ++ .ofChars (Digits.integer index) ++ ": " ++ fault.message
  | .missingModule name => "required module missing from surface: " ++ name
  | .emptyModule name => "required module has empty exports in surface: " ++ name
  | .unlistedModule name => .ofChars name.quoted

end Rejection

end Allowlist
