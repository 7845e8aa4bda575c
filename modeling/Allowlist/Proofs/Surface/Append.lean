import Allowlist.Proofs.Surface.Defects
import Allowlist.Proofs.Surface.Facts

/-!
# Entries in two parts

Grouping goes along with appending. Entries that are malformed keep their place: those of the first part
their index, those of the second part theirs behind the length of the first. If both parts can be
grouped, the groups of the whole are the union of theirs.
-/
namespace Allowlist

namespace Surface

/-- The second part is parsed behind the first one, with the indices that follow. -/
theorem parseFrom_append (index : Nat) (xs ys : List Json) :
    parseFrom index (xs ++ ys) = (do
      let es ← parseFrom index xs
      let ds ← parseFrom (index + xs.length) ys
      .ok (es ++ ds)) := by
  induction xs generalizing index with
  | nil =>
    show parseFrom index ys = parseFrom index ys >>= .ok
    cases parseFrom index ys <;> rfl
  | cons v xs ih =>
    have hindex : index + 1 + xs.length = index + (v :: xs).length := by
      rw [List.length_cons]
      omega
    rw [List.cons_append, parseFrom, parseFrom, ih, hindex]
    cases Entry.ofJson v with
    | error f => rfl
    | ok e =>
      cases parseFrom (index + 1) xs with
      | error r => rfl
      | ok es =>
        cases parseFrom (index + (v :: xs).length) ys with
        | error r => rfl
        | ok ds => rfl

/-- Where the entries begin does not matter if none is malformed. -/
theorem parseFrom_eq_ok_congr {index index' : Nat} {entries : List Json} {es : List Entry} :
    parseFrom index entries = .ok es ↔ parseFrom index' entries = .ok es := by
  rw [parseFrom_eq_ok_iff, parseFrom_eq_ok_iff]

/-- Nothing but a malformed entry ends parsing. -/
theorem malformed_of_parseFrom {index : Nat} {entries : List Json} {r : Rejection}
    (h : parseFrom index entries = .error r) : ∃ (i : Int) (f : Entry.Fault), r = .malformedEntry i f := by
  obtain ⟨i, -, f, -, -, -, hr⟩ := parseFrom_eq_error_iff.mp h
  exact ⟨_, f, hr⟩

/-- Entries that begin later have their malformed one later, by the same number of entries. -/
theorem parseFrom_shift {n index : Nat} {entries : List Json} {j : Int} {f : Entry.Fault}
    (h : parseFrom index entries = .error (.malformedEntry j f)) :
    parseFrom (n + index) entries = .error (.malformedEntry (n + j) f) := by
  obtain ⟨i, v, g, hi, hg, hbefore, hr⟩ := parseFrom_eq_error_iff.mp h
  obtain ⟨rfl, rfl⟩ := Rejection.malformedEntry.inj hr
  apply parseFrom_eq_error_iff.mpr
  refine ⟨i, v, f, hi, hg, hbefore, ?_⟩
  rw [Nat.add_assoc]
  rfl

end Surface

namespace Exports

/-- The modules of `z` are those of `x` and `y`, and so are the exports of each. -/
structure Unites (x y z : Exports) : Prop where
  names : z.keys.Nodup
  mem_names : ∀ m, m ∈ z.keys ↔ m ∈ x.keys ∨ m ∈ y.keys
  exports : ∀ m es, z.get? m = some es → es ≠ [] ∧ es.Nodup
  mem_exports : ∀ m e, z.Has m e ↔ x.Has m e ∨ y.Has m e

theorem has_ofEntries_append (es ds : List Entry) (m e : Text) :
    (ofEntries (es ++ ds)).Has m e ↔ (ofEntries es).Has m e ∨ (ofEntries ds).Has m e := by
  rw [has_ofEntries, has_ofEntries, has_ofEntries, List.mem_append]

theorem unites_ofEntries (es ds : List Entry) :
    Unites (ofEntries es) (ofEntries ds) (ofEntries (es ++ ds)) where
  names := (grouped_ofEntries _).names
  mem_names m := by
    rw [(grouped_ofEntries _).mem_keys_iff, (grouped_ofEntries _).mem_keys_iff,
      (grouped_ofEntries _).mem_keys_iff, ← exists_or]
    apply exists_congr
    intro e
    exact has_ofEntries_append es ds m e
  exports := (grouped_ofEntries _).exports
  mem_exports := has_ofEntries_append es ds

variable {xs ys : List Json} {r : Rejection}

theorem ofJson_eq_error_iff : ofJson xs = .error r ↔ Surface.parse xs = .error r := map_eq_error

theorem ofJson_eq_ok_iff {x : Exports} :
    ofJson xs = .ok x ↔ ∃ es, Surface.parse xs = .ok es ∧ ofEntries es = x := map_eq_ok

theorem ofJson_append_of_error (h : ofJson xs = .error r) (ys : List Json) :
    ofJson (xs ++ ys) = .error r := by
  have hparse : Surface.parseFrom 0 xs = .error r := ofJson_eq_error_iff.mp h
  apply ofJson_eq_error_iff.mpr
  rw [Surface.parse, Surface.parseFrom_append, hparse]
  rfl

theorem ofJson_append_of_ok_error {x : Exports} {j : Int} {f : Entry.Fault} (hx : ofJson xs = .ok x)
    (h : ofJson ys = .error (.malformedEntry j f)) :
    ofJson (xs ++ ys) = .error (.malformedEntry (xs.length + j) f) := by
  obtain ⟨es, hes, -⟩ := ofJson_eq_ok_iff.mp hx
  have hxs : Surface.parseFrom 0 xs = .ok es := hes
  have hys : Surface.parseFrom (xs.length + 0) ys = .error (.malformedEntry (xs.length + j) f) :=
    Surface.parseFrom_shift (ofJson_eq_error_iff.mp h)
  apply ofJson_eq_error_iff.mpr
  rw [Surface.parse, Surface.parseFrom_append, hxs, Nat.add_comm, hys]
  rfl

theorem ofJson_append_of_ok {x y : Exports} (hx : ofJson xs = .ok x) (hy : ofJson ys = .ok y) :
    ∃ z, ofJson (xs ++ ys) = .ok z ∧ Unites x y z := by
  obtain ⟨es, hes, rfl⟩ := ofJson_eq_ok_iff.mp hx
  obtain ⟨ds, hds, rfl⟩ := ofJson_eq_ok_iff.mp hy
  have hxs : Surface.parseFrom 0 xs = .ok es := hes
  have hys : Surface.parseFrom (0 + xs.length) ys = .ok ds := Surface.parseFrom_eq_ok_congr.mp hds
  have hparse : Surface.parse (xs ++ ys) = .ok (es ++ ds) := by
    rw [Surface.parse, Surface.parseFrom_append, hxs]
    simp only [bind, Except.bind, hys]
  exact ⟨_, ofJson_eq_ok_iff.mpr ⟨_, hparse, rfl⟩, unites_ofEntries es ds⟩

/-- Grouping the entries of two parts. A malformed entry of the first part is the one that is
reported; if there is none, one of the second part is, by its index in the whole; and if there is none
either, the groups are those of both parts, module by module, and none of them is empty. -/
theorem ofJson_append (xs ys : List Json) :
    (∀ r, ofJson xs = .error r → ∃ i f, r = .malformedEntry i f) ∧
    (∀ i f, ofJson xs = .error (.malformedEntry i f) →
      ofJson (xs ++ ys) = .error (.malformedEntry i f)) ∧
    (∀ x j f, ofJson xs = .ok x → ofJson ys = .error (.malformedEntry j f) →
      ofJson (xs ++ ys) = .error (.malformedEntry (xs.length + j) f)) ∧
    ∀ x y, ofJson xs = .ok x → ofJson ys = .ok y →
      ∃ z, ofJson (xs ++ ys) = .ok z ∧ Unites x y z := by
  refine ⟨?_, ?_, ?_, ?_⟩
  · intro r h
    exact Surface.malformed_of_parseFrom (ofJson_eq_error_iff.mp h)
  · intro i f h
    exact ofJson_append_of_error h ys
  · intro x j f hx h
    exact ofJson_append_of_ok_error hx h
  · intro x y hx hy
    exact ofJson_append_of_ok hx hy

/-- Two modules, one of them with two exports. -/
def soundPart : List Json :=
  [.obj [("module", .str "n"), ("export", .str "f")], .obj [("module", .str "m"), ("export", .str "e")],
    .obj [("export", .str "d"), ("module", .str "n")]]

/-- The second entry has no export. -/
def malformedPart : List Json :=
  [.obj [("module", .str "k"), ("export", .str "e")], .obj [("module", .str "n")], .null]

/-- A module of the other part, with an export that is known and one that is not, and a new one. -/
def sharedPart : List Json :=
  [.obj [("module", .str "n"), ("export", .str "g")], .obj [("module", .str "n"), ("export", .str "f")],
    .obj [("module", .str "k"), ("export", .str "e")]]

theorem ofJson_append_parts :
    ofJson malformedPart = .error (.malformedEntry 1 (.absent .export)) ∧
    ofJson soundPart = .ok [("n", ["f", "d"]), ("m", ["e"])] ∧
    ofJson sharedPart = .ok [("n", ["g", "f"]), ("k", ["e"])] ∧
    ofJson (malformedPart ++ soundPart) = .error (.malformedEntry 1 (.absent .export)) ∧
    ofJson (soundPart ++ malformedPart) = .error (.malformedEntry 4 (.absent .export)) ∧
    ∃ z, ofJson (soundPart ++ sharedPart) = .ok z ∧
      Unites [("n", ["f", "d"]), ("m", ["e"])] [("n", ["g", "f"]), ("k", ["e"])] z := by
  have hbad : ofJson malformedPart = .error (.malformedEntry 1 (.absent .export)) := by rfl
  have hsound : ofJson soundPart = .ok [("n", ["f", "d"]), ("m", ["e"])] := by rfl
  have hshared : ofJson sharedPart = .ok [("n", ["g", "f"]), ("k", ["e"])] := by rfl
  obtain ⟨-, hfirst, -, -⟩ := ofJson_append malformedPart soundPart
  obtain ⟨-, -, hsecond, -⟩ := ofJson_append soundPart malformedPart
  obtain ⟨-, -, -, hunion⟩ := ofJson_append soundPart sharedPart
  exact ⟨hbad, hsound, hshared, hfirst _ _ hbad, hsecond _ _ _ hsound hbad, hunion _ _ hsound hshared⟩

end Exports

end Allowlist
