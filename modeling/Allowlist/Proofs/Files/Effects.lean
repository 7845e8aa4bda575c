import Allowlist.Proofs.Files.Reach

/-!
# What storing may change

Storing a file changes nothing but the file itself and the way to it: what else is new are
directories to which the parents of the path lead. If it fails, no file is changed at all.
-/
namespace Allowlist

/-- The path itself or one of its parents. -/
def Path.OnWayTo (q p : Path) : Prop := q.anchor = p.anchor ∧ q.names <+: p.names

theorem Path.onWayTo_of_suffix (anchor : Anchor) {ns up : List Text} (h : ns <:+ up) :
    (Path.mk anchor ns.reverse).OnWayTo ⟨anchor, up.reverse⟩ :=
  ⟨rfl, List.reverse_prefix.mpr h⟩

namespace Files

variable {fs mid fs' : Files} {p q : Path} {l : Location}

/-- A directory where nothing was, to which a path or one of its parents leads now. -/
def MadeOnWay (p : Path) (fs fs' : Files) (l : Location) : Prop :=
  fs.node? l = none ∧ ∃ q : Path, q.OnWayTo p ∧ fs'.lookup q = .ok (l, .directory)

theorem MadeOnWay.keep (h : MadeOnWay p fs mid l) (hk : Keeps mid fs') : MadeOnWay p fs fs' l := by
  obtain ⟨hn, q, hq, hl⟩ := h
  exact ⟨hn, q, hq, hk.lookup_directory hl⟩

/-- New directories are no files. -/
theorem file_iff_of_madeOnWay (h : fs'.node? l = fs.node? l ∨ MadeOnWay p fs fs' l)
    (content : Utf8.Bytes) :
    fs'.node? l = some (.file content) ↔ fs.node? l = some (.file content) := by
  rcases h with he | ⟨hn, q, -, hl⟩
  · rw [he]
  · rw [hn, (lookup_eq_ok_iff.mp hl).2]
    simp

/-- All that is new is on the way to a path. -/
structure ExtendsOnWay (p : Path) (fs fs' : Files) : Prop extends Extends fs fs' where
  made : ∀ l, fs'.node? l = fs.node? l ∨ MadeOnWay p fs fs' l

theorem ExtendsOnWay.refl (p : Path) (fs : Files) : ExtendsOnWay p fs fs :=
  ⟨Extends.refl fs, fun _ => .inl rfl⟩

theorem ExtendsOnWay.trans (h : ExtendsOnWay p fs mid) (h' : ExtendsOnWay p mid fs') :
    ExtendsOnWay p fs fs' := by
  refine ⟨h.toExtends.trans h'.toExtends, fun l => ?_⟩
  rcases h.made l with he | hm
  · rcases h'.made l with he' | ⟨hn, hq⟩
    · exact .inl (he'.trans he)
    · exact .inr ⟨he ▸ hn, hq⟩
  · exact .inr (hm.keep h'.keepsAll)

theorem extendsOnWay_ensureDirectory (hq : q.OnWayTo p) (h : fs.ensureDirectory q = .ok fs') :
    ExtendsOnWay p fs fs' := by
  refine ⟨extends_ensureDirectory h, fun l' => ?_⟩
  rw [ensureDirectory] at h
  split at h
  · next fs'' hm =>
    obtain rfl := Except.ok.inj h
    obtain ⟨l, ht, hn, rfl⟩ := makeDirectory_eq_ok_iff.mp hm
    have hd : fs.node? l ≠ some .directory := by simp [hn]
    rw [node?_place fs .directory l' (ne_nil_of_not_directory hd)]
    split
    · next he => exact .inr ⟨he ▸ hn, q, hq, he ▸ lookup_place ht hd .directory⟩
    · exact .inl rfl
  · cases h
  · split at h
    · obtain rfl := Except.ok.inj h
      exact .inl rfl
    · cases h
  · cases h

theorem extendsOnWay_of_makeDirectories {r : Except Error Unit}
    (h : fs.makeDirectories p = (fs', r)) : ExtendsOnWay p fs fs' := by
  have hx : ExtendsOnWay p fs (fs.makeDirectories p).1 := by
    refine makeDirectoriesFrom_induction (ExtendsOnWay.refl p) ExtendsOnWay.trans fs _ _ ?_
    intro fs fs' ns hns h
    refine extendsOnWay_ensureDirectory ?_ h
    simpa using Path.onWayTo_of_suffix p.anchor hns
  rwa [h] at hx

/-- Storing that fails has made directories on the way, if anything. -/
theorem extendsOnWay_of_store_error {content : Utf8.Bytes} {e : Error}
    (h : fs.store p content = (fs', .error e)) : ExtendsOnWay p.parent fs fs' := by
  rw [store] at h
  split at h
  · next hm =>
    obtain ⟨rfl, -⟩ := Prod.mk.inj h
    exact extendsOnWay_of_makeDirectories hm
  · next hm =>
    split at h
    · cases h
    · obtain ⟨rfl, -⟩ := Prod.mk.inj h
      exact extendsOnWay_of_makeDirectories hm

/-- A file that was stored is there, and beside it nothing is new but the way to it. -/
theorem exists_of_store_ok {content : Utf8.Bytes} (h : fs.store p content = (fs', .ok ())) :
    ∃ l, fs'.lookup p = .ok (l, .file content) ∧
      ∀ l', l' ≠ l → fs'.node? l' = fs.node? l' ∨ MadeOnWay p.parent fs fs' l' := by
  obtain ⟨mid, hm, hw⟩ := store_eq_ok_iff.mp h
  obtain ⟨l, ht, hd, rfl⟩ := write_eq_ok_iff.mp hw
  have hx : ExtendsOnWay p.parent fs mid := extendsOnWay_of_makeDirectories hm
  have hl : l ≠ [] := ne_nil_of_not_directory hd
  refine ⟨l, lookup_place ht hd _, fun l' hl' => ?_⟩
  rcases hx.made l' with he | hmade
  · left
    rw [node?_place mid _ l' hl, if_neg hl', he]
  · exact .inr (hmade.keep (keeps_place hd _))

end Files

end Allowlist
