import Allowlist.Proofs.Files.Path

/-!
# What is there

A path that is there is found under the location that writing to it would use, and the directory
that it lies in is there as well. The working directory has to be a directory for that: nothing else
says so of a path without names.
-/
namespace Allowlist.Files

variable {fs : Files} {p : Path} {l : Location} {n : Node}

@[simp] theorem node?_nil (fs : Files) : fs.node? [] = some .directory := rfl

theorem directoryAt_eq_ok_iff : fs.directoryAt l = .ok () ↔ fs.node? l = some .directory := by
  rw [directoryAt]
  split
  · next h => simp [h]
  · next h => simp [h]
  · next h => simp [h]

theorem walk_append (fs : Files) (l : Location) (ms ns : List Text) :
    fs.walk l (ms ++ ns) = match fs.walk l ms with
      | .error r => .error r
      | .ok l' => fs.walk l' ns := by
  fun_induction walk fs l ms with
  | case1 => rfl
  | case2 l name rest r h => simp [walk, h]
  | case3 l name rest hd hp ih => simp [walk, hd, hp, ih]
  | case4 l name rest hd hp hs => simp [walk, hd, hp, hs]
  | case5 l name rest hd hp hs hn => simp [walk, hd, hp, hs, hn]
  | case6 l name rest hd hp hs hn ih => simp [walk, hd, hp, hs, hn, ih]

theorem permit_of_lookup {r : Location × Node} (h : fs.lookup p = .ok r) : permit p = .ok () := by
  rw [lookup] at h
  split at h
  · cases h
  · next hp => exact hp

theorem lookup_eq_ok_iff_walk : fs.lookup p = .ok (l, n) ↔
    permit p = .ok () ∧ fs.walk (fs.startOf p) p.names = .ok l ∧ fs.node? l = some n := by
  rw [lookup]
  cases permit p with
  | error e => simp
  | ok u =>
    cases fs.walk (fs.startOf p) p.names with
    | error r => simp
    | ok l' =>
      simp only [Except.ok.injEq, true_and]
      cases hn : fs.node? l' with
      | none =>
        simp only [reduceCtorEq, false_iff, not_and]
        rintro rfl
        simp [hn]
      | some n' =>
        simp only [Except.ok.injEq, Prod.mk.injEq]
        refine and_congr_right ?_
        rintro rfl
        simp [hn]

/-- A path that is there is the target of its own name, and the other way round. -/
theorem lookup_eq_ok_iff :
    fs.lookup p = .ok (l, n) ↔ fs.target p = .ok l ∧ fs.node? l = some n := by
  rw [lookup_eq_ok_iff_walk, target]
  cases permit p with
  | error e => simp
  | ok u =>
    rcases List.eq_nil_or_concat p.names with he | ⟨ns, name, he⟩
    · simp [he, walk]
    · simp only [he, List.concat_eq_append, List.getLast?_concat, List.dropLast_concat, walk_append]
      cases fs.walk (fs.startOf p) ns with
      | error r => simp
      | ok l' =>
        cases hd : fs.directoryAt l' with
        | error r => simp [walk, hd]
        | ok u =>
          by_cases hp : isParentName name = true
          · simp [walk, hd, hp]
          by_cases hs : Path.maxName < Path.size name
          · simp [walk, hd, hp, hs]
          -- only here do the two differ: the last name need not be there for the target
          cases hn : fs.node? (l' ++ [name]) with
          | some m => simp [walk, hd, hp, hs, hn]
          | none =>
            simp only [walk, hd, hp, hs, hn, Option.isNone_none, Bool.false_eq_true, ↓reduceIte,
              reduceCtorEq, false_and, and_false, Except.ok.injEq, false_iff, not_and]
            rintro rfl
            simp [hn]

theorem read_eq_ok_iff {content : Utf8.Bytes} :
    fs.read p = .ok content ↔ ∃ l, fs.lookup p = .ok (l, .file content) := by
  rw [read]
  cases fs.lookup p with
  | error e => simp
  | ok r =>
    obtain ⟨l, n⟩ := r
    cases n <;> simp

theorem isDirectory_eq_true_iff :
    fs.isDirectory p = true ↔ ∃ l, fs.lookup p = .ok (l, .directory) := by
  rw [isDirectory]
  cases fs.lookup p with
  | error e => simp
  | ok r =>
    obtain ⟨l, n⟩ := r
    cases n <;> simp

/-- The working directory is a directory, as that of a running program always is. -/
def Grounded (fs : Files) : Prop := fs.node? fs.workingDirectory = some .directory

instance (fs : Files) : Decidable fs.Grounded :=
  inferInstanceAs (Decidable (fs.node? fs.workingDirectory = some .directory))

theorem Grounded.node?_startOf (h : fs.Grounded) (p : Path) :
    fs.node? (fs.startOf p) = some .directory := by
  rw [startOf]
  split
  · exact h
  · exact node?_nil fs

/-- The parent of a path that is there is a directory. -/
theorem Grounded.isDirectory_parent (h : fs.Grounded) {r : Location × Node}
    (hl : fs.lookup p = .ok r) : fs.isDirectory p.parent = true := by
  obtain ⟨l, n⟩ := r
  obtain ⟨hp, hw, -⟩ := lookup_eq_ok_iff_walk.mp hl
  have hs : fs.startOf p.parent = fs.startOf p := rfl
  rw [isDirectory_eq_true_iff]
  rcases List.eq_nil_or_concat p.names with he | ⟨ns, name, he⟩
  · have hn : p.parent.names = [] := by rw [Path.parent, he, List.dropLast_nil]
    refine ⟨fs.startOf p, lookup_eq_ok_iff_walk.mpr ⟨Path.permit_parent hp, ?_, ?_⟩⟩
    · rw [hs, hn, walk]
    · exact h.node?_startOf p
  · have hn : p.parent.names = ns := by
      rw [Path.parent, he, List.concat_eq_append, List.dropLast_concat]
    rw [he, List.concat_eq_append, walk_append] at hw
    split at hw
    · cases hw
    · next l' hl' =>
      rw [walk] at hw
      split at hw
      · cases hw
      · next hd =>
        refine ⟨l', lookup_eq_ok_iff_walk.mpr ⟨Path.permit_parent hp, ?_, ?_⟩⟩
        · rw [hs, hn, hl']
        · exact directoryAt_eq_ok_iff.mp hd

end Allowlist.Files
