import Allowlist.Policy.Required

/-!
# Variants

The permissive variant keeps every module of the surface. A strict one keeps exactly the modules
that it requires.
-/
namespace Allowlist

structure Variant where
  name : Text
  required : Option (List Text)

namespace Variant

def permissive : Variant := ⟨"permissive", none⟩

def strict : Variant := ⟨"strict", some ankaModules⟩

def isStrict (v : Variant) : Bool := v.required.isSome

/-- The variants that have a name, in the order of their names. -/
def all : List Variant := [permissive, strict]

def named? (name : Text) : Option Variant := all.find? (·.name = name)

def unknownMessage (name : Text) : Text :=
  "unknown pipeline variant: " ++ .ofChars name.quoted ++ " (expected one of " ++
    .ofChars (Text.quotedList (all.map (·.name))) ++ ")"

end Variant

end Allowlist
