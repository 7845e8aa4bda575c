import Allowlist.Proofs.Files.Apart
import Allowlist.Proofs.Run.Unexpected

/-!
# Generating again

A policy file that was generated is up to date, and generating it again changes nothing, since the
surface is read and compiled as before. This takes a destination that does not name the surface file:
otherwise the policy has taken the place of the surface, and a policy is no surface.
-/
namespace Allowlist

theorem Surface.load_congr {fs fs' : Files} {source : Text}
    (h : fs'.read (Path.ofText source) = fs.read (Path.ofText source)) :
    load fs' source = load fs source := by
  rw [load, load, h]

/-- The schema tag of a policy is not that of a surface. -/
theorem Surface.ofJson_fields (p : Policy) :
    ofJson (.obj p.fields) = .error (.wrongSchema (.str policySchema)) := by rfl

namespace Policy

variable {fs fs' : Files} {source destination : Text} {variant : Variant} {p : Policy}

theorem canonical_of_ofFile (h : ofFile fs source variant = .ok p) : p.Canonical := by
  obtain ⟨surface, hs, hc⟩ := ofFile_eq_ok_iff.mp h
  obtain ⟨x, hx, hp⟩ := compile_eq_ok_iff.mp hc
  have hr : surface.Readable := Surface.readable_of_load hs
  exact canonical_of_ofExports (Exports.grouped_of_ofSurface hx) (Surface.joined_of_load hs)
    (fun m e he => Exports.joined_of_has hr hx he) hp

theorem exists_read_of_ofFile (h : ofFile fs source variant = .ok p) :
    ∃ content, fs.read (Path.ofText source) = .ok content := by
  obtain ⟨surface, hs, -⟩ := ofFile_eq_ok_iff.mp h
  obtain ⟨content, -, hr, -⟩ := Surface.exists_read_of_load hs
  exact ⟨content, hr⟩

/-- A stored policy is no surface. -/
theorem ofFile_of_read_render (hp : p.Canonical)
    (hr : fs.read (Path.ofText source) = .ok p.render) (variant : Variant) :
    ofFile fs source variant = .error (.rejected (.wrongSchema (.str policySchema))) := by
  have hs : Surface.load fs source = .ok (.obj p.fields) := Surface.load_canonical hp.storable hr
  have hx : Exports.ofSurface (.obj p.fields) = .error (.wrongSchema (.str policySchema)) := by
    rw [Exports.ofSurface, Surface.ofJson_fields]
  rw [ofFile, hs]
  simp only [compile, hx]

theorem read_of_generate (h : generate fs source destination variant = (fs', .ok p)) :
    fs'.read (Path.ofText destination) = .ok p.render := by
  obtain ⟨l, hl, -⟩ := Files.exists_of_store_ok (generate_eq_ok_iff.mp h).2
  exact Files.read_eq_ok_iff.mpr ⟨l, hl⟩

/-- What was read before the policy was stored is read after it, unless the policy has taken its
place. -/
theorem read_eq_of_generate (h : generate fs source destination variant = (fs', .ok p)) {q : Path}
    {content : Utf8.Bytes} (hq : fs.read q = .ok content)
    (hne : ¬fs'.SameFile (Path.ofText destination) q) : fs'.read q = fs.read q := by
  rw [hq]
  exact Files.read_of_store (generate_eq_ok_iff.mp h).2 hq hne

/-- The surface still compiles to the same, under any variant. -/
theorem ofFile_of_generate (h : generate fs source destination variant = (fs', .ok p))
    (hne : ¬fs'.SameFile (Path.ofText destination) (Path.ofText source)) (v : Variant) :
    ofFile fs' source v = ofFile fs source v := by
  obtain ⟨content, hr⟩ := exists_read_of_ofFile (generate_eq_ok_iff.mp h).1
  have hs : Surface.load fs' source = Surface.load fs source :=
    Surface.load_congr (read_eq_of_generate h hr hne)
  rw [ofFile, ofFile, hs]

theorem ofFile_of_sameFile (h : generate fs source destination variant = (fs', .ok p))
    (hsame : fs'.SameFile (Path.ofText destination) (Path.ofText source)) (v : Variant) :
    ofFile fs' source v = .error (.rejected (.wrongSchema (.str policySchema))) := by
  have hr : fs'.read (Path.ofText source) = .ok p.render :=
    hsame.read_eq.trans (read_of_generate h)
  exact ofFile_of_read_render (canonical_of_ofFile (generate_eq_ok_iff.mp h).1) hr v

theorem grounded_of_generate (hg : fs.Grounded)
    (h : generate fs source destination variant = (fs', .ok p)) : fs'.Grounded := by
  have hg' := grounded_generate hg source destination variant
  rwa [h] at hg'

/-- A policy that was generated checks clean, and is generated again without any change, exactly if
the destination does not name the surface file in the state that is left. -/
theorem generate_idempotent (hg : fs.Grounded)
    (h : generate fs source destination variant = (fs', .ok p)) :
    (verify fs' source destination variant = .ok [] ∧
        generate fs' source destination variant = (fs', .ok p)) ↔
      ¬fs'.SameFile (Path.ofText destination) (Path.ofText source) := by
  have hg' : fs'.Grounded := grounded_of_generate hg h
  constructor
  · rintro ⟨-, hagain⟩ hsame
    have herror := ofFile_of_sameFile h hsame variant
    rw [(generate_eq_ok_iff.mp hagain).1] at herror
    cases herror
  · intro hne
    have hp : ofFile fs' source variant = .ok p := by
      rw [ofFile_of_generate h hne]
      exact (generate_eq_ok_iff.mp h).1
    have hr : fs'.read (Path.ofText destination) = .ok p.render := read_of_generate h
    have hverify : enforce fs' source destination variant = .ok () :=
      enforce_eq_ok_iff.mpr ⟨p, hp, hr⟩
    exact ⟨enforce_eq_ok_iff_verify.mp hverify, (generate_eq_self_iff hg').mpr ⟨hp, hr⟩⟩

/-- A way that has to be made first, and leads up again. -/
def windingPath : Text := "d/./q/..//p/"

/-- The directories on that way, and the policy at its end. -/
def windingFiles : Files :=
  ((oneModuleFiles.place ["d"] .directory).place ["d", "q"] .directory).place ["d", "p"]
    (.file oneModule.render)

theorem generate_windingPath :
    (oneModuleFiles.Grounded ∧
      generate oneModuleFiles "s" windingPath .permissive = (windingFiles, .ok oneModule) ∧
      ¬windingFiles.SameFile (Path.ofText windingPath) (Path.ofText "s")) ∧
    verify windingFiles "s" windingPath .permissive = .ok [] ∧
    generate windingFiles "s" windingPath .permissive = (windingFiles, .ok oneModule) := by
  have hg : oneModuleFiles.Grounded := by decide
  have hp : ofFile oneModuleFiles "s" .permissive = .ok oneModule :=
    ofFile_eq_ok_iff.mpr ⟨_, load_oneModuleFiles, by rfl⟩
  have h : generate oneModuleFiles "s" windingPath .permissive = (windingFiles, .ok oneModule) :=
    generate_eq_ok_iff.mpr ⟨hp, by rfl⟩
  have hd : windingFiles.lookup (Path.ofText windingPath) =
      .ok (["d", "p"], .file oneModule.render) := by rfl
  have hs : windingFiles.lookup (Path.ofText "s") =
      .ok (["s"], .file (Utf8.encode oneEntry.canonical)) := by rfl
  have hne : ¬windingFiles.SameFile (Path.ofText windingPath) (Path.ofText "s") :=
    Files.not_sameFile_of_lookup hd hs (by decide)
  exact ⟨⟨hg, h, hne⟩, (generate_idempotent hg h).mpr hne⟩

end Policy

end Allowlist
