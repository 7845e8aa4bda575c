import Allowlist.Proofs.Files.Lookup

/-!
# Storing a file

Making directories only adds directories where nothing was. So a file can be stored without any
change exactly if it is there with the same content: a directory that had to be made stays.
-/
namespace Allowlist.Files

variable {fs fs' : Files} {p : Path} {l : Location}

/-- What is new is a directory where nothing was; if there is no change at a location, there is no
change at all. -/
structure Extends (fs fs' : Files) : Prop where
  workingDirectory : fs'.workingDirectory = fs.workingDirectory
  node : ∀ l, fs'.node? l = fs.node? l ∨ fs.node? l = none ∧ fs'.node? l = some .directory
  eq_of_node : (∀ l, fs'.node? l = fs.node? l) → fs' = fs

theorem Extends.refl (fs : Files) : Extends fs fs := ⟨rfl, fun _ => .inl rfl, fun _ => rfl⟩

theorem Extends.keeps (h : Extends fs fs') {n : Node} (hl : fs.node? l = some n) :
    fs'.node? l = some n := by
  rcases h.node l with he | ⟨hn, -⟩
  · rw [he, hl]
  · rw [hl] at hn
    cases hn

theorem Extends.trans {fs'' : Files} (h : Extends fs fs') (h' : Extends fs' fs'') :
    Extends fs fs'' := by
  refine ⟨h'.workingDirectory.trans h.workingDirectory, ?_, ?_⟩
  · intro l
    rcases h.node l with he | ⟨hn, hd⟩
    · rw [← he]
      exact h'.node l
    · exact .inr ⟨hn, h'.keeps hd⟩
  · intro he
    -- what the first step adds would still be there
    have hfs : fs' = fs := by
      refine h.eq_of_node fun l => ?_
      rcases h.node l with hl | ⟨hn, hd⟩
      · exact hl
      · have hl : fs''.node? l = none := (he l).trans hn
        rw [h'.keeps hd] at hl
        cases hl
    subst hfs
    exact h'.eq_of_node he

theorem ne_nil_of_not_directory (h : fs.node? l ≠ some .directory) : l ≠ [] := by
  rintro rfl
  exact h rfl

theorem extends_place (h : fs.node? l = none) : Extends fs (fs.place l .directory) := by
  have hd : fs.node? l ≠ some .directory := by simp [h]
  have hl : l ≠ [] := ne_nil_of_not_directory hd
  refine ⟨rfl, ?_, ?_⟩
  · intro l'
    rw [node?_place fs .directory l' hl]
    split
    · next he => exact .inr ⟨he ▸ h, rfl⟩
    · exact .inl rfl
  · intro he
    have hn := he l
    rw [node?_place fs .directory l hl, if_pos rfl, h] at hn
    cases hn

theorem makeDirectory_eq_ok_iff : fs.makeDirectory p = .ok fs' ↔
    ∃ l, fs.target p = .ok l ∧ fs.node? l = none ∧ fs' = fs.place l .directory := by
  rw [makeDirectory]
  cases fs.target p with
  | error e => simp
  | ok l =>
    cases hn : fs.node? l with
    | some n => simp [hn]
    | none => simp [hn, eq_comm]

theorem extends_ensureDirectory (h : fs.ensureDirectory p = .ok fs') : Extends fs fs' := by
  rw [ensureDirectory] at h
  split at h
  · next fs'' hm =>
    obtain rfl := Except.ok.inj h
    obtain ⟨l, -, hn, rfl⟩ := makeDirectory_eq_ok_iff.mp hm
    exact extends_place hn
  · cases h
  · split at h
    · obtain rfl := Except.ok.inj h
      exact Extends.refl fs
    · cases h
  · cases h

/-- Making directories goes from one to the next, the farthest parent first. So what each of them
keeps, all of them keep, whether one fails or not. -/
theorem makeDirectoriesFrom_induction {R : Files → Files → Prop} (refl : ∀ fs, R fs fs)
    (trans : ∀ {fs mid fs'}, R fs mid → R mid fs' → R fs fs') (fs : Files) (anchor : Anchor)
    (up : List Text) (step : ∀ {fs fs' : Files} {ns : List Text}, ns <:+ up →
      fs.ensureDirectory ⟨anchor, ns.reverse⟩ = .ok fs' → R fs fs') :
    R fs (fs.makeDirectoriesFrom anchor up).1 := by
  induction up generalizing fs with
  | nil =>
    rw [makeDirectoriesFrom]
    split
    · next h => exact step (List.suffix_refl ([] : List Text)) h
    · exact refl fs
  | cons name up ih =>
    have hup : R fs (fs.makeDirectoriesFrom anchor up).1 :=
      ih fs fun hn h => step (hn.trans (List.suffix_cons name up)) h
    rw [makeDirectoriesFrom]
    split
    · next h => exact step (List.suffix_refl _) h
    · split
      · next he =>
        rw [he] at hup
        exact hup
      · next he =>
        rw [he] at hup
        split
        · next h => exact trans hup (step (List.suffix_refl _) h)
        · exact hup
    · exact refl fs

/-- Whether it fails or not, making directories only adds directories. -/
theorem extends_makeDirectoriesFrom (fs : Files) (anchor : Anchor) (up : List Text) :
    Extends fs (fs.makeDirectoriesFrom anchor up).1 :=
  makeDirectoriesFrom_induction Extends.refl Extends.trans fs anchor up
    fun _ h => extends_ensureDirectory h

theorem extends_of_makeDirectories {r : Except Error Unit}
    (h : fs.makeDirectories p = (fs', r)) : Extends fs fs' := by
  have hx : Extends fs (fs.makeDirectories p).1 :=
    extends_makeDirectoriesFrom fs p.anchor p.names.reverse
  rwa [h] at hx

theorem ensureDirectory_of_isDirectory (h : fs.isDirectory p = true) :
    fs.ensureDirectory p = .ok fs := by
  obtain ⟨l, hl⟩ := isDirectory_eq_true_iff.mp h
  obtain ⟨ht, hn⟩ := lookup_eq_ok_iff.mp hl
  have hm : fs.makeDirectory p = .error (.refused .alreadyThere) := by
    rw [makeDirectory, ht]
    simp only [hn]
  rw [ensureDirectory, hm]
  exact if_pos h

theorem makeDirectories_of_isDirectory (h : fs.isDirectory p = true) :
    fs.makeDirectories p = (fs, .ok ()) := by
  have he : fs.ensureDirectory ⟨p.anchor, p.names.reverse.reverse⟩ = .ok fs := by
    rw [List.reverse_reverse]
    exact ensureDirectory_of_isDirectory h
  rw [makeDirectories]
  cases hp : p.names.reverse with
  | nil =>
    rw [hp] at he
    rw [makeDirectoriesFrom]
    simp only [List.reverse_nil] at he
    simp only [he]
  | cons name up =>
    rw [hp] at he
    rw [makeDirectoriesFrom]
    simp only [he]

theorem write_eq_ok_iff {content : Utf8.Bytes} : fs.write p content = .ok fs' ↔
    ∃ l, fs.target p = .ok l ∧ fs.node? l ≠ some .directory ∧
      fs' = fs.place l (.file content) := by
  rw [write]
  cases fs.target p with
  | error e => simp
  | ok l =>
    simp only [Except.ok.injEq, exists_eq_left']
    split
    · next hd => simp [hd]
    · next hd =>
      rw [Except.ok.injEq]
      exact ⟨fun he => ⟨hd, he.symm⟩, fun h => h.2.symm⟩

theorem place_of_node? {n : Node} (hl : l ≠ []) (h : fs.node? l = some n) :
    fs.place l n = fs := by
  rw [node?, if_neg hl] at h
  rw [place, Assoc.put_of_get? h]

theorem store_eq_ok_iff {content : Utf8.Bytes} : fs.store p content = (fs', .ok ()) ↔
    ∃ mid, fs.makeDirectories p.parent = (mid, .ok ()) ∧ mid.write p content = .ok fs' := by
  rw [store]
  obtain ⟨mid, r⟩ := fs.makeDirectories p.parent
  cases r with
  | error e => simp
  | ok u =>
    simp only [Prod.mk.injEq, and_true, exists_eq_left']
    cases mid.write p content <;> simp

/-- If all is as before once a file is placed, no directory was made before it: that directory
would still be there. -/
theorem Extends.eq_of_place {mid : Files} (h : Extends fs mid) (hl : l ≠ []) {content : Utf8.Bytes}
    (he : fs = mid.place l (.file content)) : mid = fs := by
  refine h.eq_of_node fun l' => ?_
  rcases h.node l' with hn | ⟨hn, hd⟩
  · exact hn
  · rw [he, node?_place mid _ l' hl, hd] at hn
    split at hn <;> cases hn

/-- A file is stored without any change exactly if it is there with that content. -/
theorem store_eq_self_iff (hg : fs.Grounded) {content : Utf8.Bytes} :
    fs.store p content = (fs, .ok ()) ↔ fs.read p = .ok content := by
  rw [store_eq_ok_iff, read_eq_ok_iff]
  constructor
  · rintro ⟨mid, hm, hw⟩
    have hx : Extends fs mid := extends_of_makeDirectories hm
    obtain ⟨l, ht, hd, he⟩ := write_eq_ok_iff.mp hw
    have hl : l ≠ [] := ne_nil_of_not_directory hd
    obtain rfl := hx.eq_of_place hl he
    refine ⟨l, lookup_eq_ok_iff.mpr ⟨ht, ?_⟩⟩
    rw [he, node?_place _ _ l hl, if_pos rfl]
  · rintro ⟨l, hl⟩
    obtain ⟨ht, hn⟩ := lookup_eq_ok_iff.mp hl
    refine ⟨fs, makeDirectories_of_isDirectory (hg.isDirectory_parent hl), ?_⟩
    have hd : fs.node? l ≠ some .directory := by simp [hn]
    exact write_eq_ok_iff.mpr ⟨l, ht, hd, (place_of_node? (ne_nil_of_not_directory hd) hn).symm⟩

theorem Grounded.of_extends (hg : fs.Grounded) (h : Extends fs fs') : fs'.Grounded := by
  rw [Grounded, h.workingDirectory]
  exact h.keeps hg

theorem Grounded.place (hg : fs.Grounded) {n : Node} (h : fs.node? l ≠ some .directory) :
    (fs.place l n).Grounded := by
  have hl : l ≠ [] := ne_nil_of_not_directory h
  have hw : fs.workingDirectory ≠ l := by
    rintro rfl
    exact h hg
  have hn : (fs.place l n).node? fs.workingDirectory = fs.node? fs.workingDirectory := by
    rw [node?_place fs n _ hl, if_neg hw]
  exact hn.trans hg

/-- The working directory stays a directory, whether storing fails or not. -/
theorem Grounded.store (hg : fs.Grounded) (p : Path) (content : Utf8.Bytes) :
    (fs.store p content).1.Grounded := by
  rw [Files.store]
  rcases hm : fs.makeDirectories p.parent with ⟨mid, r⟩
  have hmid : mid.Grounded := hg.of_extends (extends_of_makeDirectories hm)
  cases r with
  | error e => exact hmid
  | ok u =>
    cases hw : mid.write p content with
    | error e => simpa only [hw] using hmid
    | ok fs' =>
      obtain ⟨l, -, hd, rfl⟩ := write_eq_ok_iff.mp hw
      simp only [hw]
      exact hmid.place hd

end Allowlist.Files
