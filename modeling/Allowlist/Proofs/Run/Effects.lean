import Allowlist.Proofs.Files.Effects
import Allowlist.Proofs.Run.Verify

/-!
# No partial effects

Generating a policy file does nothing before the surface is read and compiled. If the policy can
then not be stored, no file is changed or made; if it can, its own file is the only one.
-/
namespace Allowlist.Policy

variable {fs fs' : Files} {source destination : Text} {variant : Variant} {p : Policy} {f : Failure}

theorem exists_store_of_save_error (h : p.save fs destination = (fs', .error f)) :
    ∃ e, fs.store (Path.ofText destination) p.render = (fs', .error e) := by
  rw [save] at h
  generalize fs.store (Path.ofText destination) p.render = stored at h
  obtain ⟨mid, r⟩ := stored
  cases r with
  | ok u => cases h
  | error e =>
    refine ⟨e, ?_⟩
    cases e <;> exact congrArg (·, _) (Prod.mk.inj h).1

theorem generate_of_ofFile_error (h : ofFile fs source variant = .error f) :
    generate fs source destination variant = (fs, .error f) := by
  rw [generate, h]

theorem generate_of_save_error (hp : ofFile fs source variant = .ok p)
    (h : p.save fs destination = (fs', .error f)) :
    generate fs source destination variant = (fs', .error f) := by
  rw [generate, hp]
  simp only [h]

/-- A surface that cannot be read or compiled leaves all as it was. A policy that cannot be stored
leaves every file as it was and makes none; new are at most directories on the way to the
destination. A policy that is returned is in the file at the destination, every other file is as it
was, and no other is new. -/
theorem generate_no_partial_effects (fs : Files) (source destination : Text) (variant : Variant) :
    (∀ f, ofFile fs source variant = .error f →
      generate fs source destination variant = (fs, .error f)) ∧
    (∀ p f fs', p.save fs destination = (fs', .error f) →
      (ofFile fs source variant = .ok p →
        generate fs source destination variant = (fs', .error f)) ∧
      (∀ l content, fs'.node? l = some (.file content) ↔ fs.node? l = some (.file content)) ∧
      ∀ l, fs'.node? l = fs.node? l ∨
        Files.MadeOnWay (Path.ofText destination).parent fs fs' l) ∧
    ∀ p fs', generate fs source destination variant = (fs', .ok p) →
      ∃ l, fs'.lookup (Path.ofText destination) = .ok (l, .file p.render) ∧ ∀ l', l' ≠ l →
        (∀ content,
          fs'.node? l' = some (.file content) ↔ fs.node? l' = some (.file content)) ∧
        (fs'.node? l' = fs.node? l' ∨
          Files.MadeOnWay (Path.ofText destination).parent fs fs' l') := by
  refine ⟨fun f => generate_of_ofFile_error, ?_, ?_⟩
  · intro p f fs' h
    obtain ⟨e, he⟩ := exists_store_of_save_error h
    have hmade := (Files.extendsOnWay_of_store_error he).made
    exact ⟨fun hp => generate_of_save_error hp h,
      fun l => Files.file_iff_of_madeOnWay (hmade l), hmade⟩
  · intro p fs' h
    obtain ⟨l, hl, hmade⟩ := Files.exists_of_store_ok (generate_eq_ok_iff.mp h).2
    refine ⟨l, hl, fun l' hne => ?_⟩
    exact ⟨Files.file_iff_of_madeOnWay (hmade l' hne), hmade l' hne⟩

/-- What is left of a destination whose way leads through a file: the directory that comes first. -/
def strayFiles : Files := oneModuleFiles.place ["d"] .directory

def strayFailure : Failure := .policyUnwritable (Path.ofText "d/../s/p") .alreadyThere

/-- Nothing to read, a way that leads through a file, and a new directory for the policy. -/
theorem generate_stray :
    (ofFile oneModuleFiles "d" .permissive =
        .error (.surfaceUnreadable (Path.ofText "d") .notFound) ∧
      generate oneModuleFiles "d" "d/p" .permissive =
        (oneModuleFiles, .error (.surfaceUnreadable (Path.ofText "d") .notFound))) ∧
    (ofFile oneModuleFiles "s" .permissive = .ok oneModule ∧
      oneModule.save oneModuleFiles "d/../s/p" = (strayFiles, .error strayFailure) ∧
      generate oneModuleFiles "s" "d/../s/p" .permissive = (strayFiles, .error strayFailure) ∧
      ∀ l content, strayFiles.node? l = some (.file content) ↔
        oneModuleFiles.node? l = some (.file content)) ∧
    ∃ fs', generate oneModuleFiles "s" "d/p" .permissive = (fs', .ok oneModule) ∧
      ∃ l, fs'.lookup (Path.ofText "d/p") = .ok (l, .file oneModule.render) := by
  have hd : ofFile oneModuleFiles "d" .permissive =
      .error (.surfaceUnreadable (Path.ofText "d") .notFound) := by rfl
  have hp : ofFile oneModuleFiles "s" .permissive = .ok oneModule :=
    ofFile_eq_ok_iff.mpr ⟨_, load_oneModuleFiles, by rfl⟩
  have hs : oneModule.save oneModuleFiles "d/../s/p" = (strayFiles, .error strayFailure) := by rfl
  have hg : generate oneModuleFiles "s" "d/p" .permissive =
      (strayFiles.place ["d", "p"] (.file oneModule.render), .ok oneModule) :=
    generate_eq_ok_iff.mpr ⟨hp, by rfl⟩
  have hunread := (generate_no_partial_effects oneModuleFiles "d" "d/p" .permissive).1 _ hd
  obtain ⟨hgenerate, hfiles, -⟩ :=
    (generate_no_partial_effects oneModuleFiles "s" "d/../s/p" .permissive).2.1 _ _ _ hs
  obtain ⟨l, hl, -⟩ :=
    (generate_no_partial_effects oneModuleFiles "s" "d/p" .permissive).2.2 _ _ hg
  exact ⟨⟨hd, hunread⟩, ⟨hp, hs, hgenerate hp, hfiles⟩, _, hg, l, hl⟩

end Allowlist.Policy
