import Allowlist.Policy.Compile
import Allowlist.Proofs.Assoc
import Allowlist.Proofs.Except
import Allowlist.Proofs.Json.Reading

/-!
# The facts of a surface, grouped

Parsing keeps the entries one by one, and grouping keeps their facts: a fact is in the groups
exactly if an entry states it. No module is listed twice or without exports.
-/
namespace Allowlist

namespace Surface

/-- Parsing succeeds exactly if each entry is well-formed, and gives them in order. -/
theorem parseFrom_eq_ok_iff {index : Nat} {entries : List Json} {es : List Entry} :
    parseFrom index entries = .ok es ↔ entries.map Entry.ofJson = es.map .ok := by
  induction entries generalizing index es with
  | nil => cases es <;> simp [parseFrom]
  | cons v entries ih =>
    rw [parseFrom]
    cases hv : Entry.ofJson v with
    | error f => cases es <;> simp [hv]
    | ok e =>
      simp only [map_eq_ok, ih, List.map_cons, hv]
      cases es with
      | nil => simp
      | cons d es =>
        simp only [List.map_cons, List.cons.injEq, Except.ok.injEq]
        constructor
        · rintro ⟨ds, hds, rfl, rfl⟩
          exact ⟨rfl, hds⟩
        · rintro ⟨rfl, hes⟩
          exact ⟨es, hes, rfl, rfl⟩

theorem mem_parse_iff {entries : List Json} {es : List Entry} (h : parse entries = .ok es)
    (e : Entry) : e ∈ es ↔ ∃ v ∈ entries, Entry.ofJson v = .ok e := by
  have hm := parseFrom_eq_ok_iff.mp h
  have he : (Except.ok e : Except Entry.Fault Entry) ∈ es.map .ok ↔ e ∈ es := by simp
  rw [← he, ← hm, List.mem_map]

theorem ofJson_eq_ok {v : Json} {s : Surface} (h : ofJson v = .ok s) :
    ∃ fields : Fields Json, v = .obj fields ∧ fields.get? "entries" = some (.arr s.entries) := by
  cases v with
  | obj fields =>
    rw [ofJson] at h
    split at h
    · cases h
    split at h
    · cases h
    · next entries he =>
      obtain rfl := Except.ok.inj h
      exact ⟨fields, rfl, he⟩
    · cases h
  | _ => cases h

theorem readable_entries {v : Json} {s : Surface} (hr : v.Readable) (h : ofJson v = .ok s) :
    ∀ w ∈ s.entries, w.Readable := by
  obtain ⟨fields, rfl, he⟩ := ofJson_eq_ok h
  exact (Json.all_arr.mp ((Json.all_obj.mp hr).2 _ (Assoc.mem_of_get? he))).2

end Surface

namespace Entry

theorem readField_eq_ok_iff {fields : Fields Json} {field : Field} {t : Text} :
    readField fields field = .ok t ↔ fields.get? field.name = some (.str t) := by
  rw [readField]
  split
  · next h => simp [h]
  · next h => simp [h]
  · next v hs h =>
    rw [h]
    constructor
    · intro he
      cases he
    · intro he
      exact absurd (Option.some.inj he) (hs t)

theorem ofJson_eq_ok_iff {v : Json} {e : Entry} :
    ofJson v = .ok e ↔ ∃ fields : Fields Json, v = .obj fields ∧
      fields.get? "module" = some (.str e.moduleName) ∧
      fields.get? "export" = some (.str e.exportName) := by
  cases v with
  | obj fields =>
    simp only [ofJson, bind_eq_ok, readField_eq_ok_iff, Except.ok.injEq, Json.obj.injEq]
    constructor
    · rintro ⟨m, hm, t, ht, rfl⟩
      exact ⟨fields, rfl, hm, ht⟩
    · rintro ⟨_, rfl, hm, ht⟩
      exact ⟨e.moduleName, hm, e.exportName, ht, rfl⟩
  | _ => simp [ofJson]

end Entry

namespace Exports

/-- No module occurs twice or without exports, and no export twice in a module. -/
structure Grouped (x : Exports) : Prop where
  names : x.keys.Nodup
  exports : ∀ m es, x.get? m = some es → es ≠ [] ∧ es.Nodup

theorem grouped_nil : Grouped [] := ⟨List.nodup_nil, by simp⟩

theorem Grouped.add {x : Exports} (h : x.Grouped) (e : Entry) : (x.add e).Grouped := by
  constructor
  · unfold Exports.add
    split
    · exact Assoc.nodup_keys_put h.names _ _
    · split
      · exact h.names
      · exact Assoc.nodup_keys_put h.names _ _
  · intro m es hm
    rw [get?_add] at hm
    split at hm
    · split at hm
      · obtain rfl := Option.some.inj hm
        simp
      · next known hk =>
        obtain ⟨hne, hnd⟩ := h.exports m known hk
        split at hm
        · obtain rfl := Option.some.inj hm
          exact ⟨hne, hnd⟩
        · next hmem =>
          obtain rfl := Option.some.inj hm
          refine ⟨by simp, ?_⟩
          rw [List.nodup_append]
          refine ⟨hnd, by simp, ?_⟩
          intro a ha b hb hab
          obtain rfl := List.mem_singleton.mp hb
          exact hmem (hab ▸ ha)
    · exact h.exports m es hm

theorem has_add (x : Exports) (d : Entry) (m e : Text) :
    (x.add d).Has m e ↔ x.Has m e ∨ d = ⟨m, e⟩ := by
  obtain ⟨n, f⟩ := d
  simp only [Has, get?_add, Entry.mk.injEq]
  by_cases hm : m = n
  · subst hm
    simp only [↓reduceIte, true_and]
    cases x.get? m with
    | none => simp [eq_comm]
    | some known =>
      by_cases hf : f ∈ known
      · simp only [hf, ↓reduceIte, Option.some.injEq, exists_eq_left']
        constructor
        · exact .inl
        · rintro (he | rfl)
          · exact he
          · exact hf
      · simp [hf, eq_comm]
  · simp [hm, Ne.symm hm]

theorem grouped_ofEntries (es : List Entry) : (ofEntries es).Grouped := by
  suffices hf : ∀ x : Exports, x.Grouped → (es.foldl add x).Grouped from hf [] grouped_nil
  intro x hx
  induction es generalizing x with
  | nil => exact hx
  | cons e es ih => exact ih _ (hx.add e)

/-- A fact is in the groups exactly if an entry states it. -/
theorem has_ofEntries (es : List Entry) (m e : Text) : (ofEntries es).Has m e ↔ ⟨m, e⟩ ∈ es := by
  suffices hf : ∀ x : Exports, (es.foldl add x).Has m e ↔ x.Has m e ∨ ⟨m, e⟩ ∈ es by
    rw [ofEntries, hf []]
    simp [Has]
  intro x
  induction es generalizing x with
  | nil => simp
  | cons d es ih =>
    rw [List.foldl_cons, ih, has_add, List.mem_cons, or_assoc, eq_comm (a := d)]

/-- The groups of a surface document come from entries of its own. -/
theorem ofSurface_eq_ok_iff {surface : Json} {x : Exports} :
    ofSurface surface = .ok x ↔ ∃ s es, Surface.ofJson surface = .ok s ∧
      Surface.parse s.entries = .ok es ∧ ofEntries es = x := by
  rw [ofSurface]
  cases Surface.ofJson surface with
  | error r => simp
  | ok s => simp [ofJson, map_eq_ok]

theorem grouped_of_ofSurface {surface : Json} {x : Exports} (h : ofSurface surface = .ok x) :
    x.Grouped := by
  obtain ⟨_, es, _, _, rfl⟩ := ofSurface_eq_ok_iff.mp h
  exact grouped_ofEntries es

/-- All names of the groups are joined if the document was read. -/
theorem joined_of_has {surface : Json} {x : Exports} (hr : surface.Readable)
    (h : ofSurface surface = .ok x) {m e : Text} (hx : x.Has m e) : m.Joined ∧ e.Joined := by
  obtain ⟨s, es, hs, hp, rfl⟩ := ofSurface_eq_ok_iff.mp h
  obtain ⟨v, hv, hve⟩ := (Surface.mem_parse_iff hp _).mp ((has_ofEntries es m e).mp hx)
  have hread : v.Readable := Surface.readable_entries hr hs v hv
  obtain ⟨fields, rfl, hm, he⟩ := Entry.ofJson_eq_ok_iff.mp hve
  have hf := (Json.all_obj.mp hread).2
  exact ⟨hf _ (Assoc.mem_of_get? hm), hf _ (Assoc.mem_of_get? he)⟩

end Exports

end Allowlist
