import Allowlist.Surface.Basic

/-!
# Exports by module

The facts of a surface, grouped: each module that occurs, with its exports. Neither modules nor the
exports of a module repeat, and no module is without exports.
-/
namespace Allowlist

abbrev Exports := Fields (List Text)

namespace Exports

/-- Adds one fact; a known one changes nothing. -/
def add (x : Exports) (e : Entry) : Exports :=
  match x.get? e.moduleName with
  | none => x.put e.moduleName [e.exportName]
  | some known =>
    if e.exportName ∈ known then x else x.put e.moduleName (known ++ [e.exportName])

def ofEntries (es : List Entry) : Exports := es.foldl add []

/-- Parses and groups raw entries. -/
def ofJson (entries : List Json) : Except Rejection Exports :=
  ofEntries <$> Surface.parse entries

/-- Whether the surface has the fact. -/
def Has (x : Exports) (m e : Text) : Prop := ∃ es, x.get? m = some es ∧ e ∈ es

theorem get?_add (x : Exports) (e : Entry) (m : Text) :
    (x.add e).get? m =
      if m = e.moduleName then
        match x.get? m with
        | none => some [e.exportName]
        | some known =>
          if e.exportName ∈ known then some known else some (known ++ [e.exportName])
      else x.get? m := by
  unfold add
  split
  · next h => by_cases hm : m = e.moduleName <;> simp_all [Assoc.get?_put]
  · next known h =>
    by_cases hm : m = e.moduleName
    · subst hm
      by_cases he : e.exportName ∈ known <;> simp [he, h, Assoc.get?_put]
    · by_cases he : e.exportName ∈ known <;> simp [he, hm, Assoc.get?_put]

end Exports

end Allowlist
