import Allowlist.Proofs.Surface.Grouping

/-!
# What is wrong with a surface document

The defects of a document as a relation, in the order in which they are looked for: the type of the
document, its schema tag, its entries, and the first entry that is malformed, of which again the
type comes first, then the module, then the export. Parsing finds exactly these, and what it finds
depends on nothing that stands behind it or beside it.
-/
namespace Allowlist

/-- The value of a field, if there is one. -/
def Json.field? (v : Json) (name : Text) : Option Json :=
  v.obj?.bind fun fields => Assoc.get? fields name

namespace Entry

/-- An object with a string for each of the two names. -/
def WellFormed (v : Json) : Prop :=
  ∃ m e, v.field? "module" = some (.str m) ∧ v.field? "export" = some (.str e)

/-- A field that is missing or not a string. -/
inductive FieldFault (v : Json) (field : Field) : Fault → Prop
  | absent (h : v.field? field.name = none) : FieldFault v field (.absent field)
  | notString {w : Json} (h : v.field? field.name = some w) (hw : w.kind ≠ .string) :
      FieldFault v field (.notString field)

/-- The export is looked at only if the module is a string. -/
inductive HasFault (v : Json) : Fault → Prop
  | notObject (h : v.kind ≠ .object) : HasFault v (.notObject v.kind)
  | inModule {f : Fault} (ho : v.kind = .object) (h : FieldFault v .module f) : HasFault v f
  | inExport {m : Text} {f : Fault} (hm : v.field? "module" = some (.str m))
      (h : FieldFault v .export f) : HasFault v f

/-- The same type, and the same values of the two names. -/
structure Alike (v w : Json) : Prop where
  kind : v.kind = w.kind
  moduleName : v.field? "module" = w.field? "module"
  exportName : v.field? "export" = w.field? "export"

variable {v w : Json} {f : Fault}

theorem wellFormed_iff : WellFormed v ↔ ∃ e, ofJson v = .ok e := by
  constructor
  · rintro ⟨m, e, hm, he⟩
    cases v with
    | obj fields => exact ⟨⟨m, e⟩, ofJson_eq_ok_iff.mpr ⟨fields, rfl, hm, he⟩⟩
    | _ => cases hm
  · rintro ⟨e, he⟩
    obtain ⟨fields, rfl, hm, he⟩ := ofJson_eq_ok_iff.mp he
    exact ⟨e.moduleName, e.exportName, hm, he⟩

theorem readField_eq_error_iff {fields : Fields Json} {field : Field} :
    readField fields field = .error f ↔ FieldFault (.obj fields) field f := by
  rw [readField]
  constructor
  · intro h
    split at h
    · next hn =>
      obtain rfl := Except.error.inj h
      exact .absent hn
    · cases h
    · next u hu hs =>
      obtain rfl := Except.error.inj h
      refine .notString hs ?_
      cases u with
      | str t => exact absurd rfl (hu t)
      | _ => simp [Json.kind]
  · rintro (hn | ⟨hs, hw⟩)
    · rw [show fields.get? field.name = none from hn]
    · next u =>
      rw [show fields.get? field.name = some u from hs]
      cases u with
      | str t => exact absurd rfl hw
      | _ => rfl

theorem ofJson_eq_error_iff : ofJson v = .error f ↔ HasFault v f := by
  cases v with
  | obj fields =>
    constructor
    · intro h
      simp only [ofJson, bind, Except.bind] at h
      split at h
      · next hm =>
        obtain rfl := Except.error.inj h
        exact .inModule rfl (readField_eq_error_iff.mp hm)
      · next m hm =>
        split at h
        · next he =>
          obtain rfl := Except.error.inj h
          exact .inExport (readField_eq_ok_iff.mp hm) (readField_eq_error_iff.mp he)
        · cases h
    · rintro (h | ⟨-, h⟩ | ⟨hm, h⟩)
      · exact absurd rfl h
      · simp only [ofJson, bind, Except.bind, readField_eq_error_iff.mpr h]
      · next m =>
        have hm : readField fields .module = .ok m := readField_eq_ok_iff.mpr hm
        simp only [ofJson, bind, Except.bind, hm, readField_eq_error_iff.mpr h]
  | _ =>
    constructor
    · intro h
      obtain rfl := Except.error.inj h
      exact .notObject (by simp [Json.kind])
    · rintro (h | ⟨ho, -⟩ | ⟨hm, -⟩)
      · rfl
      · cases ho
      · cases hm

theorem Alike.symm (h : Alike v w) : Alike w v :=
  ⟨h.kind.symm, h.moduleName.symm, h.exportName.symm⟩

theorem WellFormed.congr (h : WellFormed v) (ha : Alike v w) : WellFormed w := by
  obtain ⟨m, e, hm, he⟩ := h
  exact ⟨m, e, ha.moduleName ▸ hm, ha.exportName ▸ he⟩

theorem HasFault.congr (h : HasFault v f) (ha : Alike v w) : HasFault w f := by
  have hfield (field : Field) (hv : v.field? field.name = w.field? field.name)
      (h : FieldFault v field f) : FieldFault w field f := by
    rcases h with hn | ⟨hs, hw⟩
    · exact .absent (hv ▸ hn)
    · exact .notString (hv ▸ hs) hw
  rcases h with hk | ⟨ho, h⟩ | ⟨hm, h⟩
  · rw [ha.kind] at hk ⊢
    exact .notObject hk
  · exact .inModule (ha.kind ▸ ho) (hfield .module ha.moduleName h)
  · exact .inExport (ha.moduleName ▸ hm) (hfield .export ha.exportName h)

end Entry

namespace Surface

/-- The first malformed entry, of those whose first has the given index. -/
theorem parseFrom_eq_error_iff {index : Nat} {entries : List Json} {r : Rejection} :
    parseFrom index entries = .error r ↔ ∃ i v f, entries[i]? = some v ∧ Entry.HasFault v f ∧
      (∀ j < i, ∀ w, entries[j]? = some w → Entry.WellFormed w) ∧
      r = .malformedEntry (index + i : Nat) f := by
  induction entries generalizing index with
  | nil => simp [parseFrom]
  | cons u entries ih =>
    rw [parseFrom]
    cases hu : Entry.ofJson u with
    | error f =>
      have hf : Entry.HasFault u f := Entry.ofJson_eq_error_iff.mp hu
      have hbad : ¬Entry.WellFormed u := by simp [Entry.wellFormed_iff, hu]
      constructor
      · intro h
        obtain rfl := Except.error.inj h
        exact ⟨0, u, f, rfl, hf, by simp, rfl⟩
      · rintro ⟨i, v, g, hv, hg, hbefore, rfl⟩
        cases i with
        | zero =>
          obtain rfl := Option.some.inj hv
          obtain rfl := Except.error.inj (hu.symm.trans (Entry.ofJson_eq_error_iff.mpr hg))
          rfl
        | succ i => exact absurd (hbefore 0 (by omega) u rfl) hbad
    | ok e =>
      have hgood : Entry.WellFormed u := Entry.wellFormed_iff.mpr ⟨e, hu⟩
      simp only [map_eq_error, ih]
      constructor
      · rintro ⟨i, v, f, hv, hf, hbefore, rfl⟩
        refine ⟨i + 1, v, f, hv, hf, ?_, by rw [Nat.add_right_comm, Nat.add_assoc]⟩
        intro j hj w hw
        cases j with
        | zero =>
          obtain rfl := Option.some.inj hw
          exact hgood
        | succ j => exact hbefore j (by omega) w hw
      · rintro ⟨i, v, f, hv, hf, hbefore, rfl⟩
        cases i with
        | zero =>
          obtain rfl := Option.some.inj hv
          rw [Entry.ofJson_eq_error_iff.mpr hf] at hu
          cases hu
        | succ i =>
          refine ⟨i, v, f, hv, hf, fun j hj w hw => ?_, by rw [Nat.add_right_comm, Nat.add_assoc]⟩
          exact hbefore (j + 1) (by omega) w hw

/-- The document has the schema tag of a surface. -/
def Tagged (v : Json) : Prop := v.field? "schema" = some (.str surfaceSchema)

/-- Each defect comes with what is right before it. -/
inductive HasDefect (v : Json) : Rejection → Prop
  | notObject (h : v.kind ≠ .object) : HasDefect v (.notObject v.kind)
  | wrongSchema (ho : v.kind = .object) (h : ¬Tagged v) :
      HasDefect v (.wrongSchema ((v.field? "schema").getD .null))
  | noEntries (ht : Tagged v) (h : v.field? "entries" = none) : HasDefect v .noEntries
  | entriesNotArray {w : Json} (ht : Tagged v) (he : v.field? "entries" = some w)
      (h : w.kind ≠ .array) : HasDefect v (.entriesNotArray w.kind)
  | malformedEntry {entries : List Json} {i : Nat} {w : Json} {f : Entry.Fault} (ht : Tagged v)
      (he : v.field? "entries" = some (.arr entries)) (hi : entries[i]? = some w)
      (hbefore : ∀ j < i, ∀ u, entries[j]? = some u → Entry.WellFormed u)
      (h : Entry.HasFault w f) : HasDefect v (.malformedEntry i f)

variable {v w : Json} {r : Rejection}

theorem ofJson_of_not_object (h : v.kind ≠ .object) : ofJson v = .error (.notObject v.kind) := by
  cases v with
  | obj fields => exact absurd rfl h
  | _ => rfl

theorem tagged_iff (fields : Fields Json) : Tagged (.obj fields) ↔
    ((fields.get? "schema").getD .null).str? = some surfaceSchema := by
  rw [show Tagged (.obj fields) ↔ fields.get? "schema" = some (.str surfaceSchema) from Iff.rfl]
  cases fields.get? "schema" with
  | none => simp [Json.str?]
  | some w => cases w <;> simp [Json.str?]

theorem ofJson_of_not_tagged (ho : v.kind = .object) (ht : ¬Tagged v) :
    ofJson v = .error (.wrongSchema ((v.field? "schema").getD .null)) := by
  cases v with
  | obj fields =>
    rw [ofJson, if_pos (mt (tagged_iff fields).mpr ht)]
    rfl
  | _ => cases ho

theorem ofJson_of_tagged (ht : Tagged v) : ofJson v = match v.field? "entries" with
    | none => .error .noEntries
    | some (.arr entries) => .ok ⟨entries⟩
    | some other => .error (.entriesNotArray other.kind) := by
  cases v with
  | obj fields =>
    rw [ofJson, if_neg (not_not_intro ((tagged_iff fields).mp ht))]
    rfl
  | _ => cases ht

theorem Tagged.kind (ht : Tagged v) : v.kind = .object := by
  cases v with
  | obj fields => rfl
  | _ => cases ht

theorem ofJson_eq_ok_iff {s : Surface} : ofJson v = .ok s ↔
    Tagged v ∧ v.field? "entries" = some (.arr s.entries) := by
  by_cases ht : Tagged v
  · rw [ofJson_of_tagged ht]
    obtain ⟨entries⟩ := s
    split
    · next he => simp [he]
    · next es he => simp [he, ht]
    · next w hw he =>
      rw [he]
      simpa using fun _ => hw entries
  · have hn (r : Rejection) (h : ofJson v = .error r) : ofJson v ≠ .ok s := by simp [h]
    simp only [ht, false_and, iff_false]
    by_cases ho : v.kind = .object
    · exact hn _ (ofJson_of_not_tagged ho ht)
    · exact hn _ (ofJson_of_not_object ho)

theorem hasDefect_of_ofJson (h : ofJson v = .error r) : HasDefect v r := by
  by_cases ho : v.kind = .object
  · by_cases ht : Tagged v
    · rw [ofJson_of_tagged ht] at h
      split at h
      · next he =>
        obtain rfl := Except.error.inj h
        exact .noEntries ht he
      · cases h
      · next w hw he =>
        obtain rfl := Except.error.inj h
        refine .entriesNotArray ht he ?_
        cases w with
        | arr es => exact absurd rfl (hw es)
        | _ => simp [Json.kind]
    · obtain rfl := Except.error.inj ((ofJson_of_not_tagged ho ht).symm.trans h)
      exact .wrongSchema ho ht
  · obtain rfl := Except.error.inj ((ofJson_of_not_object ho).symm.trans h)
    exact .notObject ho

/-- Parsing and grouping reject a document with the first of its defects. -/
theorem ofSurface_eq_error_iff : Exports.ofSurface v = .error r ↔ HasDefect v r := by
  rw [Exports.ofSurface]
  constructor
  · intro h
    split at h
    · next hs =>
      obtain rfl := Except.error.inj h
      exact hasDefect_of_ofJson hs
    · next s hs =>
      obtain ⟨ht, he⟩ := ofJson_eq_ok_iff.mp hs
      rw [Exports.ofJson, map_eq_error, parse, parseFrom_eq_error_iff] at h
      obtain ⟨i, w, f, hi, hf, hbefore, rfl⟩ := h
      rw [Nat.zero_add]
      exact .malformedEntry ht he hi hbefore hf
  · rintro (ho | ⟨ho, ht⟩ | ⟨ht, he⟩ | ⟨ht, he, hk⟩ | ⟨ht, he, hi, hbefore, hf⟩)
    · rw [ofJson_of_not_object ho]
    · rw [ofJson_of_not_tagged ho ht]
    · rw [ofJson_of_tagged ht, he]
    · next w =>
      rw [ofJson_of_tagged ht, he]
      cases w with
      | arr es => exact absurd rfl hk
      | _ => rfl
    · next entries i w f =>
      have hok : ofJson v = .ok ⟨entries⟩ := ofJson_eq_ok_iff.mpr ⟨ht, he⟩
      simp only [hok, Exports.ofJson, map_eq_error, parse, parseFrom_eq_error_iff]
      exact ⟨i, w, f, hi, hf, hbefore, by rw [Nat.zero_add]⟩

/-- Documents that agree on all that is looked at before the entry with index `n`. -/
structure Alike (n : Nat) (v w : Json) : Prop where
  kind : v.kind = w.kind
  schema : v.field? "schema" = w.field? "schema"
  entriesKind : (v.field? "entries").map Json.kind = (w.field? "entries").map Json.kind
  entries : ∀ es ds, v.field? "entries" = some (.arr es) → w.field? "entries" = some (.arr ds) →
    ∀ i < n, Option.Rel Entry.Alike es[i]? ds[i]?

theorem Alike.symm {n : Nat} (h : Alike n v w) : Alike n w v where
  kind := h.kind.symm
  schema := h.schema.symm
  entriesKind := h.entriesKind.symm
  entries := by
    intro es ds hes hds i hi
    have hrel := h.entries ds es hds hes i hi
    generalize ds[i]? = a, es[i]? = b at hrel
    cases hrel with
    | some ha => exact .some ha.symm
    | none => exact .none

/-- The entry that corresponds to one of the first `n`. -/
theorem Alike.exists_entry {n : Nat} (h : Alike n v w) {es ds : List Json}
    (hes : v.field? "entries" = some (.arr es)) (hds : w.field? "entries" = some (.arr ds))
    {i : Nat} (hi : i < n) {u : Json} (hu : es[i]? = some u) :
    ∃ d, ds[i]? = some d ∧ Entry.Alike u d := by
  have hrel := h.entries es ds hes hds i hi
  rw [hu] at hrel
  generalize ds[i]? = b at hrel ⊢
  cases hrel with
  | some ha => exact ⟨_, rfl, ha⟩

theorem exists_arr_of_kind {a : Option Json} {w : Json} (h : a.map Json.kind = some w.kind)
    (hw : w.kind = .array) : ∃ ds, a = some (.arr ds) := by
  obtain ⟨u, rfl, hu⟩ := Option.map_eq_some_iff.mp h
  rw [hw] at hu
  cases u with
  | arr ds => exact ⟨ds, rfl⟩
  | _ => cases hu

end Surface

/-- How many entries are looked at before the rejection is certain. -/
def Rejection.entriesRead : Rejection → Nat
  | .malformedEntry index _ => index.toNat + 1
  | _ => 0

/-- A defect does not depend on what stands beside or behind what it is found by. -/
theorem Surface.HasDefect.congr {v w : Json} {r : Rejection} (h : HasDefect v r)
    (ha : Alike r.entriesRead v w) : HasDefect w r := by
  have htag (ht : Tagged v) : Tagged w := ha.schema.symm.trans ht
  rcases h with ho | ⟨ho, ht⟩ | ⟨ht, he⟩ | ⟨ht, he, hk⟩ | ⟨ht, he, hi, hbefore, hf⟩
  · rw [ha.kind] at ho ⊢
    exact .notObject ho
  · rw [ha.schema]
    exact .wrongSchema (ha.kind.symm.trans ho) fun htw => ht (ha.schema.trans htw)
  · have hn := ha.entriesKind
    rw [he] at hn
    exact .noEntries (htag ht) (Option.map_eq_none_iff.mp hn.symm)
  · have hn := ha.entriesKind
    rw [he] at hn
    obtain ⟨u, hu, hku⟩ := Option.map_eq_some_iff.mp hn.symm
    rw [← hku] at hk ⊢
    exact .entriesNotArray (htag ht) hu hk
  · next entries i u f =>
    have hn := ha.entriesKind
    rw [he] at hn
    obtain ⟨ds, hds⟩ := exists_arr_of_kind hn.symm rfl
    have hlt : ∀ j ≤ i, j < (Rejection.malformedEntry i f).entriesRead := by
      intro j hj
      simp only [Rejection.entriesRead, Int.toNat_natCast]
      omega
    obtain ⟨d, hd, hud⟩ := ha.exists_entry he hds (hlt i (Nat.le_refl i)) hi
    refine .malformedEntry (htag ht) hds hd ?_ (hf.congr hud)
    intro j hj w' hw'
    obtain ⟨u', hu', hal⟩ := ha.symm.exists_entry hds he (hlt j (by omega)) hw'
    exact (hbefore j hj u' hu').congr hal.symm

end Allowlist
