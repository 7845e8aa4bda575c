import Allowlist.Proofs.Surface.Grouping

/-!
# The facts that a surface states

A document states a fact if one of its entries has both names. What is grouped has the facts that
the document states and no others, so neither the order nor the number of the entries matters, nor
anything else that stands beside the two names.
-/
namespace Allowlist

/-- One of the entries is an object with this module and this export. -/
def Surface.States (surface : Json) (m e : Text) : Prop :=
  ∃ (fields entry : Fields Json) (entries : List Json),
    surface = .obj fields ∧ fields.get? "entries" = some (.arr entries) ∧ .obj entry ∈ entries ∧
      entry.get? "module" = some (.str m) ∧ entry.get? "export" = some (.str e)

namespace Exports

variable {surface : Json} {x : Exports}

theorem has_ofSurface_iff (h : ofSurface surface = .ok x) (m e : Text) :
    x.Has m e ↔ Surface.States surface m e := by
  obtain ⟨s, es, hs, hp, rfl⟩ := ofSurface_eq_ok_iff.mp h
  obtain ⟨fields, rfl, hf⟩ := Surface.ofJson_eq_ok hs
  rw [has_ofEntries, Surface.mem_parse_iff hp]
  constructor
  · rintro ⟨v, hv, hve⟩
    obtain ⟨entry, rfl, hm, he⟩ := Entry.ofJson_eq_ok_iff.mp hve
    exact ⟨fields, entry, s.entries, rfl, hf, hv, hm, he⟩
  · rintro ⟨fields', entry, entries, hobj, hf', hv, hm, he⟩
    obtain rfl := Json.obj.inj hobj
    obtain rfl := Json.arr.inj (Option.some.inj (hf.symm.trans hf'))
    exact ⟨.obj entry, hv, Entry.ofJson_eq_ok_iff.mpr ⟨entry, rfl, hm, he⟩⟩

/-- A module is listed exactly if a fact names it. -/
theorem Grouped.mem_keys_iff (hx : x.Grouped) {m : Text} : m ∈ x.keys ↔ ∃ e, x.Has m e := by
  rw [← Assoc.get?_isSome_iff, Option.isSome_iff_exists]
  constructor
  · rintro ⟨es, hes⟩
    obtain ⟨e, he⟩ := List.exists_mem_of_ne_nil _ (hx.exports m es hes).1
    exact ⟨e, es, hes, he⟩
  · rintro ⟨e, es, hes, -⟩
    exact ⟨es, hes⟩

end Exports

end Allowlist
