import Allowlist.Json.Canonical
import Allowlist.Surface.Exports
import Allowlist.Text.Utf8

/-!
# Policies

A policy lists the modules that are allowed, each with its exports, and names the surface that it
was made from. It is stored as canonical JSON with three fields in a fixed order.
-/
namespace Allowlist

def policySchema : Text := "fard.anka.policy.allowed_stdlib.v1"

structure Policy where
  source : Text
  modules : Fields (List Text)

namespace Policy

/-- The fields of a stored policy, in order. -/
def fieldNames : List Text := ["schema", "source", "modules"]

def modulesJson (modules : Fields (List Text)) : Json :=
  .obj (modules.map fun (name, exports) => (name, .arr (exports.map .str)))

def toJson (p : Policy) : Json :=
  .obj [("schema", .str policySchema), ("source", .str p.source),
    ("modules", modulesJson p.modules)]

/-- The bytes of the stored policy. -/
def render (p : Policy) : Utf8.Bytes := Utf8.encode p.toJson.canonical

end Policy

end Allowlist
