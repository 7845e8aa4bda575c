import Allowlist.Policy.Check
import Allowlist.Proofs.Ascending
import Allowlist.Proofs.Assoc
import Allowlist.Proofs.Json.Canonical
import Allowlist.Proofs.Json.Reading

/-!
# The form of a stored policy

The check of the form accepts the bytes of canonical policies and nothing else. Its tests of the
fields determine the decoded value up to a policy in order, and its comparison with the canonical
rendering then determines every byte.
-/
namespace Allowlist

theorem Json.str?_eq_some_iff {v : Json} {t : Text} : v.str? = some t ↔ v = .str t := by
  cases v <;> simp [Json.str?]

theorem Json.obj?_eq_some_iff {v : Json} {fields : Fields Json} :
    v.obj? = some fields ↔ v = .obj fields := by
  cases v <;> simp [Json.obj?]

theorem Json.strings?_eq_some_iff {v : Json} {ts : List Text} :
    v.strings? = some ts ↔ v = .arr (ts.map .str) := by
  have hm (items : List Json) (ts : List Text) :
      items.mapM Json.str? = some ts ↔ items = ts.map .str := by
    induction items generalizing ts with
    | nil => cases ts <;> simp
    | cons w items ih =>
      rw [List.mapM_cons]
      cases ts with
      | nil => cases w <;> simp [Json.str?, Option.bind_eq_some_iff]
      | cons t ts =>
        simp [Option.bind_eq_some_iff, Json.str?_eq_some_iff, ih]
  cases v with
  | arr items => simp [Json.strings?, Json.arr?, hm]
  | _ => simp [Json.strings?, Json.arr?]

namespace Policy

open Ascending (isAscending isAscending_iff)

/-- Modules and the exports of each in strictly ascending order, and no module without exports. -/
structure InOrder (modules : Fields (List Text)) : Prop where
  names : modules.keys.Pairwise (· < ·)
  exports : ∀ m ∈ modules, m.2 ≠ [] ∧ m.2.Pairwise (· < ·)

/-- A policy in order, all of whose texts are joined. -/
structure Canonical (p : Policy) : Prop where
  inOrder : InOrder p.modules
  source : p.source.Joined
  names : ∀ m ∈ p.modules, m.1.Joined
  exports : ∀ m ∈ p.modules, ∀ e ∈ m.2, e.Joined

/-- The modules as JSON fields. -/
def moduleFields (modules : Fields (List Text)) : Fields Json :=
  modules.map fun m => (m.1, .arr (m.2.map .str))

/-- Three values under the names of the fields of a stored policy. -/
def threeFields (schema source modules : Json) : Fields Json :=
  [("schema", schema), ("source", source), ("modules", modules)]

/-- The fields of a stored policy. -/
def fields (p : Policy) : Fields Json :=
  threeFields (.str policySchema) (.str p.source) (.obj (moduleFields p.modules))

theorem checkExports_eq_nil_iff {m : Text} {v : Json} :
    checkExports m v = [] ↔
      ∃ es : List Text, v = .arr (es.map .str) ∧ es ≠ [] ∧ es.Pairwise (· < ·) := by
  simp only [checkExports, ← Json.strings?_eq_some_iff]
  cases v.strings? with
  | none => simp
  | some es =>
    cases es with
    | nil => simp
    | cons e es => simp [isAscending_iff]

theorem keys_moduleFields (modules : Fields (List Text)) :
    (moduleFields modules).keys = modules.keys :=
  Assoc.keys_map (fun es : List Text => Json.arr (es.map .str)) modules

theorem checkModules_eq_nil_iff {modules : Fields Json} :
    checkModules modules = [] ↔ ∃ ms, InOrder ms ∧ modules = moduleFields ms := by
  rw [checkModules, List.append_eq_nil_iff, List.flatMap_eq_nil_iff]
  simp only [ite_eq_left_iff, List.cons_ne_nil, imp_false, Decidable.not_not, isAscending_iff]
  constructor
  · rintro ⟨hnames, hexports⟩
    obtain ⟨ms, rfl, hms⟩ :=
      Assoc.exists_map_of_forall fun m hm => checkExports_eq_nil_iff.mp (hexports m hm)
    change (moduleFields ms).keys.Pairwise (· < ·) at hnames
    rw [keys_moduleFields] at hnames
    exact ⟨ms, ⟨hnames, hms⟩, rfl⟩
  · rintro ⟨ms, h, rfl⟩
    refine ⟨by rw [keys_moduleFields]; exact h.names, ?_⟩
    intro m hm
    obtain ⟨q, hq, rfl⟩ := List.mem_map.mp hm
    exact checkExports_eq_nil_iff.mpr ⟨q.2, rfl, h.exports q hq⟩

/-- Three fields with the names of a stored policy are its fields. -/
theorem eq_of_keys_eq_fieldNames {policy : Fields Json} (h : policy.keys = fieldNames) :
    policy = threeFields (fieldOf policy "schema") (fieldOf policy "source")
      (fieldOf policy "modules") := by
  rcases policy with _ | ⟨⟨k, a⟩, _ | ⟨⟨l, b⟩, _ | ⟨⟨m, c⟩, _ | ⟨q, rest⟩⟩⟩⟩
  case cons.cons.cons.nil =>
    simp only [Assoc.keys_cons, Assoc.keys_nil, fieldNames, List.cons.injEq, and_true] at h
    obtain ⟨rfl, rfl, rfl⟩ := h
    rfl
  all_goals cases h

/-- The tests of the fields leave a policy in order as the only value. -/
theorem checkFields_eq_nil_iff {policy : Fields Json} :
    checkFields policy = [] ↔ ∃ p : Policy, InOrder p.modules ∧ policy = p.fields := by
  constructor
  · intro h
    simp only [checkFields, List.append_eq_nil_iff, ite_eq_left_iff, List.cons_ne_nil, imp_false,
      Decidable.not_not] at h
    obtain ⟨⟨⟨hkeys, hschema⟩, hsource⟩, hmodules⟩ := h
    obtain ⟨source, hs⟩ := Option.isSome_iff_exists.mp hsource
    rw [Json.str?_eq_some_iff] at hschema hs
    split at hmodules
    · cases hmodules
    · next modules hm =>
      obtain ⟨ms, hms, rfl⟩ := checkModules_eq_nil_iff.mp hmodules
      refine ⟨⟨source, ms⟩, hms, ?_⟩
      rw [eq_of_keys_eq_fieldNames hkeys, hschema, hs, Json.obj?_eq_some_iff.mp hm, fields]
  · rintro ⟨p, hp, rfl⟩
    have hm : checkModules (moduleFields p.modules) = [] :=
      checkModules_eq_nil_iff.mpr ⟨p.modules, hp, rfl⟩
    exact hm

end Policy

end Allowlist
