import Allowlist.Proofs.Files.Effects

/-!
# Files that are not written

Paths that differ may name one file, and whether they do may show only once the directories on the
way are there. A file that is stored leaves every other file readable as it was, under each of its
paths.
-/
namespace Allowlist.Files

variable {fs mid fs' : Files} {p q : Path} {content old : Utf8.Bytes}

/-- Two paths lead to one place, where something is. -/
def SameFile (fs : Files) (p q : Path) : Prop :=
  ∃ l n, fs.lookup p = .ok (l, n) ∧ fs.lookup q = .ok (l, n)

theorem SameFile.read_eq (h : fs.SameFile p q) : fs.read q = fs.read p := by
  obtain ⟨l, n, hp, hq⟩ := h
  rw [read, read, hp, hq]

theorem not_sameFile_of_lookup {l l' : Location} {n n' : Node} (hp : fs.lookup p = .ok (l, n))
    (hq : fs.lookup q = .ok (l', n')) (hne : l ≠ l') : ¬fs.SameFile p q := by
  intro h
  obtain ⟨k, m, hkp, hkq⟩ := h
  have hl : l = k := congrArg Prod.fst (Except.ok.inj (hp.symm.trans hkp))
  have hl' : l' = k := congrArg Prod.fst (Except.ok.inj (hq.symm.trans hkq))
  exact hne (hl.trans hl'.symm)

theorem Keeps.trans (h : Keeps fs mid) (h' : Keeps mid fs') : Keeps fs fs' where
  workingDirectory := h'.workingDirectory.trans h.workingDirectory
  present := fun l hl => h'.present l (h.present l hl)
  directory := fun l hl => h'.directory l (h.directory l hl)

theorem keeps_of_store_ok (h : fs.store p content = (fs', .ok ())) : Keeps fs fs' := by
  obtain ⟨mid, hm, hw⟩ := store_eq_ok_iff.mp h
  obtain ⟨l, -, hd, rfl⟩ := write_eq_ok_iff.mp hw
  have hx : Extends fs mid := extends_of_makeDirectories hm
  exact hx.keepsAll.trans (keeps_place hd _)

/-- What can be read before another file is stored can be read after it. -/
theorem read_of_store (h : fs.store p content = (fs', .ok ())) (hr : fs.read q = .ok old)
    (hne : ¬fs'.SameFile p q) : fs'.read q = .ok old := by
  obtain ⟨l, hl⟩ := read_eq_ok_iff.mp hr
  obtain ⟨ht, hn⟩ := lookup_eq_ok_iff.mp hl
  have ht' : fs'.target q = .ok l := (keeps_of_store_ok h).target ht
  obtain ⟨k, hk, hmade⟩ := exists_of_store_ok h
  by_cases hlk : l = k
  · -- the path would lead to the file that was stored
    subst hlk
    have hq : fs'.lookup q = .ok (l, .file content) :=
      lookup_eq_ok_iff.mpr ⟨ht', (lookup_eq_ok_iff.mp hk).2⟩
    exact absurd ⟨l, .file content, hk, hq⟩ hne
  · have hn' : fs'.node? l = some (.file old) := (file_iff_of_madeOnWay (hmade l hlk) old).mpr hn
    exact read_eq_ok_iff.mpr ⟨l, lookup_eq_ok_iff.mpr ⟨ht', hn'⟩⟩

end Allowlist.Files
