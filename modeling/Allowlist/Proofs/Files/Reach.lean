import Allowlist.Proofs.Files.Store

/-!
# What stays in reach

Where directories stay directories, a path goes on leading where it led. So a directory that is made
first is found under its path when all is done, and a file that is written is found under the path
that it was written to.
-/
namespace Allowlist.Files

variable {fs mid fs' : Files} {p : Path} {l : Location}

/-- What is there stays there, and what is a directory stays one. -/
structure Keeps (fs fs' : Files) : Prop where
  workingDirectory : fs'.workingDirectory = fs.workingDirectory
  present : ∀ l, fs.node? l ≠ none → fs'.node? l ≠ none
  directory : ∀ l, fs.node? l = some .directory → fs'.node? l = some .directory

theorem Extends.keepsAll (h : Extends fs fs') : Keeps fs fs' := by
  refine ⟨h.workingDirectory, fun l hl => ?_, fun l hl => h.keeps hl⟩
  obtain ⟨n, hn⟩ := Option.ne_none_iff_exists'.mp hl
  simp [h.keeps hn]

/-- A file is written where no directory is. -/
theorem keeps_place (hd : fs.node? l ≠ some .directory) (n : Node) : Keeps fs (fs.place l n) := by
  have hl : l ≠ [] := ne_nil_of_not_directory hd
  refine ⟨rfl, fun l' hl' => ?_, fun l' hl' => ?_⟩
  · rw [node?_place fs n l' hl]
    split
    · simp
    · exact hl'
  · rw [node?_place fs n l' hl, if_neg]
    · exact hl'
    · rintro rfl
      exact hd hl'

theorem Keeps.startOf (h : Keeps fs fs') (p : Path) : fs'.startOf p = fs.startOf p := by
  rw [Files.startOf, Files.startOf, h.workingDirectory]

theorem Keeps.directoryAt (h : Keeps fs fs') (hd : fs.directoryAt l = .ok ()) :
    fs'.directoryAt l = .ok () :=
  directoryAt_eq_ok_iff.mpr (h.directory l (directoryAt_eq_ok_iff.mp hd))

theorem Keeps.walk (h : Keeps fs fs') {ns : List Text} {l' : Location}
    (hw : fs.walk l ns = .ok l') : fs'.walk l ns = .ok l' := by
  fun_induction Files.walk fs l ns with
  | case1 l => exact hw
  | case2 l name rest r hd => cases hw
  | case3 l name rest hd hp ih =>
    rw [Files.walk, h.directoryAt hd]
    simp only [hp, ↓reduceIte]
    exact ih hw
  | case4 l name rest hd hp hs => cases hw
  | case5 l name rest hd hp hs hn => cases hw
  | case6 l name rest hd hp hs hn ih =>
    have hn' : ¬(fs'.node? (l ++ [name])).isNone = true := by
      simpa using h.present _ (by simpa using hn)
    rw [Files.walk, h.directoryAt hd]
    simp only [hp, hs, hn', Bool.false_eq_true, ↓reduceIte]
    exact ih hw

theorem Keeps.target (h : Keeps fs fs') (ht : fs.target p = .ok l) : fs'.target p = .ok l := by
  rw [Files.target] at ht ⊢
  cases hp : permit p with
  | error e =>
    rw [hp] at ht
    cases ht
  | ok u =>
    rw [hp] at ht
    cases hn : p.names.getLast? with
    | none => simpa only [hn, h.startOf p] using ht
    | some name =>
      simp only [hn] at ht ⊢
      cases hw : fs.walk (fs.startOf p) p.names.dropLast with
      | error r =>
        rw [hw] at ht
        cases ht
      | ok l' =>
        rw [hw] at ht
        cases hd : fs.directoryAt l' with
        | error r =>
          simp only [hd] at ht
          cases ht
        | ok u =>
          simp only [hd] at ht
          simpa only [h.startOf p, h.walk hw, h.directoryAt hd] using ht

theorem Keeps.lookup_directory (h : Keeps fs fs') (hl : fs.lookup p = .ok (l, .directory)) :
    fs'.lookup p = .ok (l, .directory) := by
  obtain ⟨ht, hn⟩ := lookup_eq_ok_iff.mp hl
  exact lookup_eq_ok_iff.mpr ⟨h.target ht, h.directory l hn⟩

/-- A node that is placed at the target of a path is found there. -/
theorem lookup_place (ht : fs.target p = .ok l) (hd : fs.node? l ≠ some .directory) (n : Node) :
    (fs.place l n).lookup p = .ok (l, n) := by
  have hl : l ≠ [] := ne_nil_of_not_directory hd
  refine lookup_eq_ok_iff.mpr ⟨(keeps_place hd n).target ht, ?_⟩
  rw [node?_place fs n l hl, if_pos rfl]

end Allowlist.Files
