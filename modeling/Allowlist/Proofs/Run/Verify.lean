import Allowlist.Proofs.Policy.Canonical
import Allowlist.Proofs.Policy.Compiled
import Allowlist.Proofs.Run.Generate
import Allowlist.Proofs.Run.Load
import Allowlist.Run.Verify

/-!
# Verification is exact

What compiling gives for a surface file is canonical, since the strings of the file are joined once
they are read and the path of a file that was read is joined as well. So each check accepts its
bytes, and the last check accepts nothing else.
-/
namespace Allowlist

namespace Policy

theorem checkContent_of_ofExports {x : Exports} {source : Text} {variant : Variant} {p : Policy}
    (hx : x.Grouped) (h : ofExports x source variant.required = .ok p) :
    checkContent p.fields x source variant = [] := by
  rw [checkContent, checkSurface_of_ofExports h]
  cases hr : variant.required with
  | none => rfl
  | some names =>
    rw [hr] at h
    exact checkAllowed_of_ofExports hx h

section

variable {surface : Json} {source : Text} {variant : Variant} {p : Policy}

/-- No check finds anything wrong with the bytes of a policy that was just compiled. -/
theorem checkAll_render (hr : surface.Readable) (hs : source.Joined)
    (h : compile surface source variant.required = .ok p) :
    checkAll p.render surface source variant p = .ok [] := by
  obtain ⟨x, hx, hp⟩ := compile_eq_ok_iff.mp h
  have hg : x.Grouped := Exports.grouped_of_ofSurface hx
  have hc : p.Canonical :=
    canonical_of_ofExports hg hs (fun m e he => Exports.joined_of_has hr hx he) hp
  have hcontent : checkContent p.fields x source variant = [] := checkContent_of_ofExports hg hp
  rw [checkAll, hc.checkBytes_render]
  simp only [hc.decode_render, hx, hcontent, checkGenerated, ↓reduceIte, List.append_nil]

/-- All checks together accept the bytes of the compiled policy and no others. -/
theorem checkAll_eq_ok_nil_iff (hr : surface.Readable) (hs : source.Joined)
    (h : compile surface source variant.required = .ok p) (committed : Utf8.Bytes) :
    checkAll committed surface source variant p = .ok [] ↔ committed = p.render := by
  constructor
  · intro hc
    rw [checkAll] at hc
    split at hc
    · cases hc
    · have hn := (List.append_eq_nil_iff.mp (Except.ok.inj hc)).2
      by_contra hne
      rw [checkGenerated, if_neg hne] at hn
      cases hn
  · rintro rfl
    exact checkAll_render hr hs h

end

section

variable {fs : Files} {source destination : Text} {variant : Variant} {surface : Json}
  {generated : Policy} {committed : Utf8.Bytes}

theorem verify_of_read (hs : Surface.load fs source = .ok surface)
    (hg : compile surface source variant.required = .ok generated)
    (hc : fs.read (Path.ofText destination) = .ok committed) :
    verify fs source destination variant =
      checkAll committed surface source variant generated := by
  obtain ⟨l, hl⟩ := Files.read_eq_ok_iff.mp hc
  have ht : isThere fs (Path.ofText destination) = .ok true := by
    rw [isThere, hl]
  rw [verify, hs]
  simp only [hg, ht, hc]

/-- A check that finds nothing wrong has compiled the surface and read a policy file. -/
theorem exists_of_verify (h : verify fs source destination variant = .ok []) :
    ∃ p committed, ofFile fs source variant = .ok p ∧
      fs.read (Path.ofText destination) = .ok committed := by
  rw [verify] at h
  split at h
  · cases h
  next surface hs =>
  split at h
  · cases h
  next p hp =>
  have hf : ofFile fs source variant = .ok p := ofFile_eq_ok_iff.mpr ⟨surface, hs, hp⟩
  split at h
  · cases h
  · cases h
  · split at h
    · cases h
    · cases h
    · next committed hc => exact ⟨p, committed, hf, hc⟩

theorem enforce_eq_ok_iff_verify : enforce fs source destination variant = .ok () ↔
    verify fs source destination variant = .ok [] := by
  rw [enforce]
  split
  · next hv => simp [hv]
  · next hv => simp [hv]
  · next vs hne hv =>
    rw [hv]
    simpa using hne

/-- Enforcing succeeds exactly if the file at the destination holds what compiling gives now. -/
theorem enforce_eq_ok_iff : enforce fs source destination variant = .ok () ↔
    ∃ p, ofFile fs source variant = .ok p ∧
      fs.read (Path.ofText destination) = .ok p.render := by
  rw [enforce_eq_ok_iff_verify]
  constructor
  · intro h
    obtain ⟨p, committed, hf, hc⟩ := exists_of_verify h
    obtain ⟨surface, hs, hp⟩ := ofFile_eq_ok_iff.mp hf
    rw [verify_of_read hs hp hc, checkAll_eq_ok_nil_iff (Surface.readable_of_load hs)
      (Surface.joined_of_load hs) hp] at h
    exact ⟨p, hf, h ▸ hc⟩
  · rintro ⟨p, hf, hc⟩
    obtain ⟨surface, hs, hp⟩ := ofFile_eq_ok_iff.mp hf
    rw [verify_of_read hs hp hc]
    exact checkAll_render (Surface.readable_of_load hs) (Surface.joined_of_load hs) hp

/-- Whatever surface is compiled, verification finds nothing wrong exactly if the file at the
destination holds the bytes of the compiled policy. -/
theorem verify_eq_ok_nil_iff (hs : Surface.load fs source = .ok surface)
    (hg : compile surface source variant.required = .ok generated)
    (hc : fs.read (Path.ofText destination) = .ok committed) :
    verify fs source destination variant = .ok [] ↔ committed = generated.render := by
  rw [verify_of_read hs hg hc]
  exact checkAll_eq_ok_nil_iff (Surface.readable_of_load hs) (Surface.joined_of_load hs) hg _

end

/-- A surface with one entry. -/
def oneEntry : Json := .obj [("schema", .str surfaceSchema), ("entries",
  .arr [.obj [("module", .str "m"), ("export", .str "e")]])]

def oneModule : Policy := ⟨"s", [("m", ["e"])]⟩

/-- The surface and its policy, each in a file of its own. -/
def oneModuleFiles : Files where
  workingDirectory := []
  nodes := [(["s"], .file (Utf8.encode oneEntry.canonical)), (["p"], .file oneModule.render)]

theorem load_oneModuleFiles : Surface.load oneModuleFiles "s" = .ok oneEntry :=
  Surface.load_canonical (by decide) (by rfl)

theorem read_oneModuleFiles : oneModuleFiles.read (Path.ofText "p") = .ok oneModule.render := by
  rfl

/-- A variant may require a module twice. -/
def twice : Variant := ⟨"twice", some ["m", "m"]⟩

theorem verify_oneModule :
    compile oneEntry "s" twice.required = .ok oneModule ∧
      verify oneModuleFiles "s" "p" twice = .ok [] := by
  have hg : compile oneEntry "s" twice.required = .ok oneModule := by rfl
  exact ⟨hg, (verify_eq_ok_nil_iff load_oneModuleFiles hg read_oneModuleFiles).mpr rfl⟩

end Policy

end Allowlist
