import Allowlist.Proofs.Policy.Exact
import Allowlist.Proofs.Surface.Defects

/-!
# Why compiling rejects a surface

The defects of the document come first, and required modules are looked at only if there is none.
Groups have no module without exports, so the one thing that can then be wrong is that a required
module is missing.
-/
namespace Allowlist

/-- Rejections of the document itself. All others are about required modules. -/
def Rejection.OfDocument : Rejection → Prop
  | .missingModule _ => False
  | .emptyModule _ => False
  | .unlistedModule _ => False
  | _ => True

theorem Surface.HasDefect.ofDocument {v : Json} {r : Rejection} (h : HasDefect v r) :
    r.OfDocument := by
  cases h <;> trivial

namespace Exports

variable {x : Exports}

theorem Grouped.gap_eq (hx : x.Grouped) (n : Text) :
    Gap.of? x.count? n = if n ∈ x.keys then none else some (.missing n) := by
  rw [Gap.of?, count?]
  cases hn : x.get? n with
  | none =>
    have hk : n ∉ x.keys := by simp [← Assoc.get?_isSome_iff, hn]
    rw [if_neg hk]
    rfl
  | some es =>
    have hk : n ∈ x.keys := by simp [← Assoc.get?_isSome_iff, hn]
    have hl : es.length ≠ 0 := mt List.length_eq_zero_iff.mp (hx.exports n es hn).1
    obtain ⟨k, hk'⟩ := Nat.exists_eq_succ_of_ne_zero hl
    rw [if_pos hk, Option.map_some, hk']
    rfl

/-- The first required module that is missing, if one is. -/
theorem Grouped.cover_some (hx : x.Grouped) (names : List Text) :
    x.cover (some names) = match names.find? (fun n => n ∉ x.keys) with
      | some n => .error (.missingModule n)
      | none => .ok () := by
  rw [cover, Gap.all]
  induction names with
  | nil => rfl
  | cons n names ih =>
    rw [List.filterMap_cons, List.find?_cons, hx.gap_eq n]
    by_cases hn : n ∈ x.keys
    · simpa [hn] using ih
    · simp [hn, Gap.reject, Gap.rejection]

end Exports

namespace Policy

variable {surface : Json} {source : Text} {required : Option (List Text)} {x : Exports}
  {r : Rejection}

/-- What is put in order was found to be there before, so a required module that is missing is the
only thing that grouped exports can be rejected for. -/
theorem ofExports_eq_error_iff (hx : x.Grouped) : ofExports x source required = .error r ↔
    ∃ names n, required = some names ∧ names.find? (fun n => n ∉ x.keys) = some n ∧
      r = .missingModule n := by
  constructor
  · intro h
    cases hc : x.cover required with
    | ok u =>
      obtain ⟨p, hp⟩ := exists_ofExports hx source (Exports.cover_eq_ok_iff.mp hc)
      rw [hp] at h
      cases h
    | error e =>
      rw [ofExports, hc] at h
      obtain rfl := Except.error.inj h
      cases required with
      | none => cases hc
      | some names =>
        rw [hx.cover_some names] at hc
        split at hc
        · next n hn => exact ⟨names, n, rfl, hn, (Except.error.inj hc).symm⟩
        · cases hc
  · rintro ⟨names, n, rfl, hn, rfl⟩
    rw [ofExports, hx.cover_some names, hn]

theorem compile_eq_error_iff : compile surface source required = .error r ↔
    Surface.HasDefect surface r ∨
      ∃ x, Exports.ofSurface surface = .ok x ∧ ofExports x source required = .error r := by
  rw [compile, ← Surface.ofSurface_eq_error_iff]
  cases Exports.ofSurface surface <;> simp

/-- Beyond the defects of the document there is one rejection only. -/
theorem missing_of_compile_eq_error (h : compile surface source required = .error r) :
    Surface.HasDefect surface r ∨ ∃ n, r = .missingModule n := by
  refine (compile_eq_error_iff.mp h).imp_right ?_
  rintro ⟨x, hx, hr⟩
  obtain ⟨-, n, -, -, rfl⟩ :=
    (ofExports_eq_error_iff (Exports.grouped_of_ofSurface hx)).mp hr
  exact ⟨n, rfl⟩

theorem compile_eq_error_iff_hasDefect (hr : r.OfDocument) :
    compile surface source required = .error r ↔ Surface.HasDefect surface r := by
  constructor
  · intro h
    rcases missing_of_compile_eq_error h with hd | ⟨n, rfl⟩
    · exact hd
    · exact False.elim hr
  · exact fun hd => compile_eq_error_iff.mpr (.inl hd)

/-- Of the defects of a document compiling reports the first, whatever modules are required, and it
reports no gap before. The source and what stands behind the defect or beside it do not matter. -/
theorem compile_rejects_first_defect (surface : Json) (source : Text)
    (required : Option (List Text)) :
    (∀ r, r.OfDocument →
      (compile surface source required = .error r ↔ Surface.HasDefect surface r)) ∧
    (∀ r, ¬r.OfDocument → compile surface source required = .error r →
      ∀ d, ¬Surface.HasDefect surface d) ∧
    ∀ (r : Rejection) (other : Json) (source' : Text) (required' : Option (List Text)),
      r.OfDocument → Surface.Alike r.entriesRead surface other →
      (compile surface source required = .error r ↔
        compile other source' required' = .error r) := by
  refine ⟨fun r => compile_eq_error_iff_hasDefect, fun r hr h d hd => ?_, ?_⟩
  · have hc : compile surface source required = .error d := compile_eq_error_iff.mpr (.inl hd)
    obtain rfl := Except.error.inj (h.symm.trans hc)
    exact hr hd.ofDocument
  · intro r other source' required' hr ha
    rw [compile_eq_error_iff_hasDefect hr, compile_eq_error_iff_hasDefect hr]
    exact ⟨fun hd => hd.congr ha, fun hd => hd.congr ha.symm⟩

/-- Behind a good entry stands one with two wrong names, and behind that no object at all. -/
def brokenSurface : Json :=
  .obj [("schema", .str surfaceSchema), ("entries", .arr [Entry.toJson ⟨"m", "e"⟩,
    .obj [("export", .null), ("module", .int 1)], .bool true])]

/-- The same up to the second entry, with fields that do not matter, and another third one. -/
def patchedSurface : Json :=
  .obj [("note", .null), ("entries", .arr [
    .obj [("since", .int 3), ("export", .str "e"), ("module", .str "m")],
    .obj [("module", .int 1), ("export", .null)], Entry.toJson ⟨"z", "e"⟩]),
    ("schema", .str surfaceSchema)]

def brokenAt : Rejection := .malformedEntry 1 (.notString .module)

theorem alike_brokenSurface : Surface.Alike 2 brokenSurface patchedSurface where
  kind := rfl
  schema := by rfl
  entriesKind := by rfl
  entries := by
    intro es ds hes hds i hi
    obtain rfl := Json.arr.inj (Option.some.inj hes)
    obtain rfl := Json.arr.inj (Option.some.inj hds)
    match i, hi with
    | 0, _ => exact .some ⟨by rfl, by rfl, by rfl⟩
    | 1, _ => exact .some ⟨by rfl, by rfl, by rfl⟩

/-- The module of the second entry counts before its export, before the third entry and before the
required modules; without a defect a missing module is what is left. -/
theorem compile_brokenSurface :
    (compile brokenSurface "s" noisyRequired = .error brokenAt ∧
      Surface.HasDefect brokenSurface brokenAt ∧
      compile patchedSurface "t" none = .error brokenAt) ∧
    compile noisySurface "s" (some ["n", "q"]) = .error (.missingModule "q") ∧
      ∀ d, ¬Surface.HasDefect noisySurface d := by
  have hb : compile brokenSurface "s" noisyRequired = .error brokenAt := by rfl
  have hn : compile noisySurface "s" (some ["n", "q"]) = .error (.missingModule "q") := by rfl
  obtain ⟨hfirst, -, halike⟩ := compile_rejects_first_defect brokenSurface "s" noisyRequired
  obtain ⟨-, hgap, -⟩ := compile_rejects_first_defect noisySurface "s" (some ["n", "q"])
  have hd : brokenAt.OfDocument := trivial
  have ha : Surface.Alike brokenAt.entriesRead brokenSurface patchedSurface := alike_brokenSurface
  refine ⟨⟨hb, (hfirst _ hd).mp hb, (halike _ _ "t" none hd ha).mp hb⟩, hn, ?_⟩
  exact hgap _ (show ¬(Rejection.missingModule "q").OfDocument from not_false) hn

end Policy

end Allowlist
