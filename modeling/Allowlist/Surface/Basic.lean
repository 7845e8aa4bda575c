import Allowlist.Rejection

/-!
# Surface documents

A surface is an object with the schema tag and an array of entries. The entries stay raw here; the
three defects of the document are looked for in a fixed order.
-/
namespace Allowlist

structure Surface where
  entries : List Json

namespace Surface

def ofJson (v : Json) : Except Rejection Surface :=
  match v with
  | .obj fields =>
    let schema := (Assoc.get? fields "schema").getD .null
    if schema.str? ≠ some surfaceSchema then .error (.wrongSchema schema)
    else match Assoc.get? fields "entries" with
      | none => .error .noEntries
      | some (.arr entries) => .ok ⟨entries⟩
      | some other => .error (.entriesNotArray other.kind)
  | other => .error (.notObject other.kind)

/-- Parses raw entries, the first of which has the given index. The first malformed one ends it. -/
def parseFrom (index : Nat) : List Json → Except Rejection (List Entry)
  | [] => .ok []
  | v :: rest =>
    match Entry.ofJson v with
    | .error fault => .error (.malformedEntry index fault)
    | .ok e => (e :: ·) <$> parseFrom (index + 1) rest

def parse (entries : List Json) : Except Rejection (List Entry) := parseFrom 0 entries

end Surface

end Allowlist
