import Allowlist.Proofs.Files.Store
import Allowlist.Run.Generate

/-!
# Generating without change

A policy file is generated if the surface file compiles and the result can be stored. Nothing
changes by that exactly if the result is there already.
-/
namespace Allowlist.Policy

variable {fs fs' : Files} {source destination : Text} {variant : Variant} {p : Policy}

theorem ofFile_eq_ok_iff : ofFile fs source variant = .ok p ↔
    ∃ surface, Surface.load fs source = .ok surface ∧
      compile surface source variant.required = .ok p := by
  rw [ofFile]
  cases Surface.load fs source with
  | error f => simp
  | ok surface =>
    simp only [Except.ok.injEq, exists_eq_left']
    cases compile surface source variant.required <;> simp

theorem save_eq_ok_iff : p.save fs destination = (fs', .ok ()) ↔
    fs.store (Path.ofText destination) p.render = (fs', .ok ()) := by
  rw [save]
  obtain ⟨mid, r⟩ := fs.store (Path.ofText destination) p.render
  cases r with
  | ok u => simp
  | error e => cases e <;> simp

theorem generate_eq_ok_iff : generate fs source destination variant = (fs', .ok p) ↔
    ofFile fs source variant = .ok p ∧
      fs.store (Path.ofText destination) p.render = (fs', .ok ()) := by
  rw [generate]
  cases ofFile fs source variant with
  | error f => simp
  | ok q =>
    simp only [Except.ok.injEq]
    rw [← save_eq_ok_iff]
    constructor
    · intro h
      split at h
      · cases h
      · next hs =>
        obtain ⟨rfl, hq⟩ := Prod.mk.inj h
        obtain rfl := Except.ok.inj hq
        exact ⟨rfl, hs⟩
    · rintro ⟨rfl, hs⟩
      rw [hs]

/-- A policy file is generated without any change exactly if it is there with the same bytes. -/
theorem generate_eq_self_iff (hg : fs.Grounded) :
    generate fs source destination variant = (fs, .ok p) ↔
      ofFile fs source variant = .ok p ∧ fs.read (Path.ofText destination) = .ok p.render := by
  rw [generate_eq_ok_iff, Files.store_eq_self_iff hg]

theorem fst_save (p : Policy) (fs : Files) (destination : Text) :
    (p.save fs destination).1 = (fs.store (Path.ofText destination) p.render).1 := by
  rw [save]
  obtain ⟨mid, r⟩ := fs.store (Path.ofText destination) p.render
  cases r with
  | ok u => rfl
  | error e => cases e <;> rfl

theorem grounded_generate (hg : fs.Grounded) (source destination : Text) (variant : Variant) :
    (generate fs source destination variant).1.Grounded := by
  rw [generate]
  split
  · exact hg
  · next q _ =>
    have hq : (q.save fs destination).1.Grounded := by
      rw [fst_save]
      exact hg.store _ _
    split
    · next he =>
      rw [he] at hq
      exact hq
    · next he =>
      rw [he] at hq
      exact hq

end Allowlist.Policy
