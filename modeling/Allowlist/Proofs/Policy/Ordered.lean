import Allowlist.Proofs.Policy.Exact

/-!
# Modules in order are a canonical form

Whatever the modules and their exports are listed like, putting them in order gives one form: names and
exports ascend strictly, nothing is lost or added, and what is in order stays as it is. It fails for a
name that is to be kept and is not there, and then for the least such name, since the names are looked
up in their order.
-/
namespace Allowlist.Exports

open Ascending (sortUnique mem_sortUnique eq_sortUnique_iff sortUnique_congr pairwise_sortUnique
  exists_eq_append_iff_least)

/-- The modules that are kept, in strictly ascending order, each with its exports in such an order. -/
structure Arranged (x : Exports) (only : Option (List Text)) (ms : Fields (List Text)) : Prop where
  names : ms.keys.Pairwise (· < ·)
  mem_names : ∀ n, n ∈ ms.keys ↔ n ∈ only.getD x.keys
  exports : ∀ m es, (m, es) ∈ ms → es.Pairwise (· < ·)
  mem_exports : ∀ m es, (m, es) ∈ ms → ∀ e, e ∈ es ↔ x.Has m e

/-- The same modules, each with the same exports. -/
structure Alike (x y : Exports) : Prop where
  names : ∀ n, n ∈ x.keys ↔ n ∈ y.keys
  exports : ∀ m e, x.Has m e ↔ y.Has m e

variable {x y : Exports} {only only' : Option (List Text)} {ms : Fields (List Text)}

theorem has_iff_of_get? {m : Text} {es : List Text} (h : x.get? m = some es) (e : Text) :
    x.Has m e ↔ e ∈ es := by
  simp [Has, h]

theorem exists_get?_of_mem_keys {n : Text} (h : n ∈ x.keys) : ∃ es, x.get? n = some es :=
  Option.isSome_iff_exists.mp (Assoc.get?_isSome_iff.mpr h)

theorem mem_keys_of_get? {n : Text} {es : List Text} (h : x.get? n = some es) : n ∈ x.keys :=
  Assoc.get?_isSome_iff.mp (Option.isSome_of_eq_some h)

/-- Putting modules in order succeeds if all that are kept are there, and gives them arranged. -/
theorem ordered_eq_ok_iff_arranged : x.ordered only = .ok ms ↔
    (∀ n ∈ only.getD x.keys, n ∈ x.keys) ∧ Arranged x only ms := by
  rw [ordered_eq_ok_iff]
  constructor
  · rintro ⟨hkeys, hms⟩
    obtain ⟨hnames, hmem⟩ := eq_sortUnique_iff.mp hkeys
    have hexports (m : Text) (es : List Text) (hm : (m, es) ∈ ms) :
        es.Pairwise (· < ·) ∧ ∀ e, e ∈ es ↔ x.Has m e := by
      obtain ⟨fs, hfs, hsort⟩ := hms (m, es) hm
      obtain ⟨hascending, hes⟩ := eq_sortUnique_iff.mp hsort
      refine ⟨hascending, fun e => ?_⟩
      rw [hes, has_iff_of_get? hfs]
    constructor
    · intro n hn
      obtain ⟨m, hm, rfl⟩ := List.mem_map.mp ((hmem n).mpr hn)
      obtain ⟨es, hes, -⟩ := hms m hm
      exact mem_keys_of_get? hes
    · exact ⟨hnames, hmem, fun m es hm => (hexports m es hm).1, fun m es hm => (hexports m es hm).2⟩
  · rintro ⟨hthere, h⟩
    constructor
    · exact eq_sortUnique_iff.mpr ⟨h.names, h.mem_names⟩
    · intro m hm
      have hkey : m.1 ∈ x.keys := hthere m.1 ((h.mem_names m.1).mp (Assoc.mem_keys_of_mem hm))
      obtain ⟨es, hes⟩ := exists_get?_of_mem_keys hkey
      refine ⟨es, hes, eq_sortUnique_iff.mpr ⟨h.exports m.1 m.2 hm, fun e => ?_⟩⟩
      rw [h.mem_exports m.1 m.2 hm, has_iff_of_get? hes]

theorem orderedModule_eq_error_iff {k n : Text} :
    x.orderedModule k = .error n ↔ k = n ∧ n ∉ x.keys := by
  rw [orderedModule]
  cases hk : x.get? k with
  | none =>
    have habsent : k ∉ x.keys := Assoc.get?_eq_none_iff.mp hk
    constructor
    · intro h
      obtain rfl := Except.error.inj h
      exact ⟨rfl, habsent⟩
    · rintro ⟨rfl, -⟩
      rfl
  | some es =>
    constructor
    · intro h
      cases h
    · rintro ⟨rfl, hn⟩
      exact absurd (mem_keys_of_get? hk) hn

theorem exists_orderedModule_eq_ok_iff {k : Text} :
    (∃ m, x.orderedModule k = .ok m) ↔ k ∈ x.keys := by
  constructor
  · rintro ⟨m, hm⟩
    obtain ⟨rfl, es, hes, -⟩ := orderedModule_eq_ok_iff.mp hm
    exact mem_keys_of_get? hes
  · intro hk
    obtain ⟨es, hes⟩ := exists_get?_of_mem_keys hk
    exact ⟨(k, sortUnique es), orderedModule_eq_ok_iff.mpr ⟨rfl, es, hes, rfl⟩⟩

/-- The names are looked up in their order, so the first one that is absent is the least one. -/
theorem ordered_eq_error_iff {n : Text} : x.ordered only = .error n ↔
    n ∈ only.getD x.keys ∧ n ∉ x.keys ∧ ∀ m ∈ only.getD x.keys, m ∉ x.keys → m = n ∨ n < m := by
  have hleast := exists_eq_append_iff_least (pairwise_sortUnique (only.getD x.keys))
    (p := (· ∈ x.keys)) (x := n)
  simp only [mem_sortUnique] at hleast
  rw [ordered, mapM_eq_error]
  simp only [orderedModule_eq_error_iff, exists_orderedModule_eq_ok_iff]
  constructor
  · rintro ⟨as, k, bs, hsplit, has, rfl, hn⟩
    obtain ⟨hmem, hle⟩ := hleast.mp ⟨as, bs, hsplit, has⟩
    exact ⟨hmem, hn, hle⟩
  · rintro ⟨hmem, hn, hle⟩
    obtain ⟨as, bs, hsplit, has⟩ := hleast.mpr ⟨hmem, hle⟩
    exact ⟨as, n, bs, hsplit, has, rfl, hn⟩

theorem exists_ordered_eq_error_iff : (∃ n, x.ordered only = .error n) ↔
    ∃ n ∈ only.getD x.keys, n ∉ x.keys := by
  constructor
  · rintro ⟨n, h⟩
    obtain ⟨hn, habsent, -⟩ := ordered_eq_error_iff.mp h
    exact ⟨n, hn, habsent⟩
  · rintro ⟨n, hn, habsent⟩
    cases h : x.ordered only with
    | error m => exact ⟨m, rfl⟩
    | ok ms => exact absurd ((ordered_eq_ok_iff_arranged.mp h).1 n hn) habsent

theorem Alike.orderedModule_eq (h : Alike x y) (n : Text) : x.orderedModule n = y.orderedModule n := by
  rw [orderedModule, orderedModule]
  cases hx : x.get? n with
  | none =>
    have habsent : n ∉ y.keys := fun hn => Assoc.get?_eq_none_iff.mp hx ((h.names n).mpr hn)
    rw [Assoc.get?_eq_none_iff.mpr habsent]
  | some es =>
    obtain ⟨fs, hfs⟩ := exists_get?_of_mem_keys ((h.names n).mp (mem_keys_of_get? hx))
    have hsort : sortUnique es = sortUnique fs := by
      apply sortUnique_congr
      intro e
      rw [← has_iff_of_get? hx, h.exports, has_iff_of_get? hfs]
    simp only [hfs, hsort]

/-- Neither the order nor the repetitions of modules, exports and kept names leave a trace. -/
theorem Alike.ordered_eq (h : Alike x y)
    (hnames : ∀ n, n ∈ only.getD x.keys ↔ n ∈ only'.getD y.keys) :
    y.ordered only' = x.ordered only := by
  have hmodule : x.orderedModule = y.orderedModule := by
    funext n
    exact h.orderedModule_eq n
  rw [ordered, ordered, sortUnique_congr hnames, hmodule]

/-- What is in order stays as it is, if all its modules are kept. -/
theorem ordered_of_ordered (h : x.ordered only = .ok ms)
    (hnames : ∀ n, n ∈ only'.getD (Assoc.keys ms) ↔ n ∈ ms.keys) : ordered ms only' = .ok ms := by
  obtain ⟨-, harranged⟩ := ordered_eq_ok_iff_arranged.mp h
  have hnodup : ms.keys.Nodup := Ascending.nodup_of_pairwise harranged.names
  apply ordered_eq_ok_iff_arranged.mpr
  constructor
  · intro n hn
    exact (hnames n).mp hn
  · constructor
    · exact harranged.names
    · intro n
      exact (hnames n).symm
    · exact harranged.exports
    · intro m es hm e
      have hget : Assoc.get? ms m = some es := Assoc.get?_of_mem hnodup hm
      exact (has_iff_of_get? hget e).symm

/-- Putting modules in order is a canonical form. It fails exactly if a name is to be kept that is not
there, and then for the least such name; otherwise what it gives is what is kept, arranged. It is the
same for what has the same modules and exports and keeps the same names, and it leaves as they are the
modules that it gave. -/
theorem ordered_canonical (x : Exports) (only : Option (List Text)) :
    ((∃ n, x.ordered only = .error n) ↔ ∃ names, only = some names ∧ ∃ n ∈ names, n ∉ x.keys) ∧
    (∀ n, x.ordered only = .error n ↔ ∃ names, only = some names ∧ n ∈ names ∧ n ∉ x.keys ∧
      ∀ m ∈ names, m ∉ x.keys → m = n ∨ n < m) ∧
    (∀ ms, x.ordered only = .ok ms ↔
      (∀ n ∈ only.getD x.keys, n ∈ x.keys) ∧ Arranged x only ms) ∧
    (∀ y only', Alike x y → (∀ n, n ∈ only.getD x.keys ↔ n ∈ only'.getD y.keys) →
      y.ordered only' = x.ordered only) ∧
    ∀ ms, x.ordered only = .ok ms → ordered ms none = .ok ms ∧ ordered ms only = .ok ms := by
  refine ⟨?_, ?_, fun ms => ordered_eq_ok_iff_arranged, fun y only' h hn => h.ordered_eq hn, ?_⟩
  · rw [exists_ordered_eq_error_iff]
    cases only with
    | none => simp
    | some names => simp
  · intro n
    rw [ordered_eq_error_iff]
    cases only with
    | none =>
      -- all modules are kept, and none of them is absent
      constructor
      · rintro ⟨hn, habsent, -⟩
        exact absurd hn habsent
      · rintro ⟨names, hnone, -⟩
        cases hnone
    | some names => simp
  · intro ms h
    constructor
    · apply ordered_of_ordered h
      intro n
      rfl
    · apply ordered_of_ordered h
      obtain ⟨-, harranged⟩ := ordered_eq_ok_iff_arranged.mp h
      cases only with
      | none => exact fun n => Iff.rfl
      | some names => exact fun n => (harranged.mem_names n).symm

/-- Modules out of order, exports twice, and a module without any. -/
def looseModules : Exports := [("n", ["f", "d", "f"]), ("m", []), ("k", ["e"])]

/-- The same modules and exports, listed in another way. -/
def tightModules : Exports := [("k", ["e", "e"]), ("m", []), ("n", ["d", "f"])]

def orderedModules : Fields (List Text) := [("m", []), ("n", ["d", "f"])]

theorem alike_looseModules : Alike looseModules tightModules := by
  constructor
  · intro n
    simp only [looseModules, tightModules, Assoc.keys, List.map_cons, List.map_nil, List.mem_cons,
      List.not_mem_nil, or_false]
    grind
  · intro m e
    have hmk : Text.ofString "m" ≠ "k" := by decide
    have hnk : Text.ofString "n" ≠ "k" := by decide
    have hnm : Text.ofString "n" ≠ "m" := by decide
    simp only [Has, looseModules, tightModules, Assoc.get?_cons, Assoc.get?_nil]
    grind

theorem ordered_looseModules :
    looseModules.ordered (some ["n", "z", "q", "z"]) = .error "q" ∧
    looseModules.ordered (some ["n", "m", "n"]) = .ok orderedModules ∧
    Arranged looseModules (some ["n", "m", "n"]) orderedModules ∧
    Alike looseModules tightModules ∧
    tightModules.ordered (some ["m", "n"]) = looseModules.ordered (some ["n", "m", "n"]) ∧
    ordered orderedModules none = .ok orderedModules ∧
    ordered orderedModules (some ["n", "m", "n"]) = .ok orderedModules := by
  have hlacking : looseModules.ordered (some ["n", "z", "q", "z"]) = .error "q" := by rfl
  have hordered : looseModules.ordered (some ["n", "m", "n"]) = .ok orderedModules := by rfl
  obtain ⟨-, -, hok, hcongr, hagain⟩ := ordered_canonical looseModules (some ["n", "m", "n"])
  have hnames (n : Text) :
      n ∈ (some ["n", "m", "n"] : Option (List Text)).getD looseModules.keys ↔
        n ∈ (some ["m", "n"] : Option (List Text)).getD tightModules.keys := by
    simp only [Option.getD_some, List.mem_cons, List.not_mem_nil, or_false]
    grind
  exact ⟨hlacking, hordered, ((hok _).mp hordered).2, alike_looseModules,
    hcongr _ _ alike_looseModules hnames, hagain _ hordered⟩

end Allowlist.Exports
