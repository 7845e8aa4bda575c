import Allowlist.Proofs.Files.Lookup
import Allowlist.Proofs.Json.Canonical
import Allowlist.Proofs.Json.Reading
import Allowlist.Run.Generate

/-!
# Loading a surface

A surface that was loaded has joined strings, and so has the path that it was loaded from. A file
with the canonical form of a value is loaded as that value: it is one line, so there are no line
ends to be unified.
-/
namespace Allowlist

theorem Lines.unify_eq_self {cs : List Char} (h : ∀ c ∈ cs, 0x20 ≤ c.toNat) : unify cs = cs := by
  fun_induction unify cs with
  | case1 => rfl
  | case2 cs ih => exact absurd (h '\r' (by simp)) (by decide)
  | case3 cs hcs ih => exact absurd (h '\r' (by simp)) (by decide)
  | case4 c cs hr hcs ih => rw [ih fun d hd => h d (List.mem_cons_of_mem _ hd)]

namespace Surface

variable {fs : Files} {source : Text} {surface : Json}

theorem exists_read_of_load (h : load fs source = .ok surface) :
    ∃ content cs, fs.read (Path.ofText source) = .ok content ∧ Json.read cs = .ok surface := by
  rw [load] at h
  split at h
  · cases h
  · cases h
  · next content hc =>
    split at h
    · cases h
    · next cs _ =>
      split at h
      · cases h
      · cases h
      · next v hv =>
        obtain rfl := Except.ok.inj h
        exact ⟨content, _, hc, hv⟩

theorem readable_of_load (h : load fs source = .ok surface) : surface.Readable := by
  obtain ⟨_, _, _, hv⟩ := exists_read_of_load h
  exact Json.readable_of_read hv

/-- The path of a surface that was loaded is joined. -/
theorem joined_of_load (h : load fs source = .ok surface) : source.Joined := by
  obtain ⟨_, _, hc, _⟩ := exists_read_of_load h
  obtain ⟨_, hl⟩ := Files.read_eq_ok_iff.mp hc
  exact Path.joined_of_permit (Files.permit_of_lookup hl)

/-- A storable value is loaded from its canonical form. -/
theorem load_canonical (hs : surface.Storable)
    (h : fs.read (Path.ofText source) = .ok (Utf8.encode surface.canonical)) :
    load fs source = .ok surface := by
  have hu : Lines.unify surface.canonical = surface.canonical :=
    Lines.unify_eq_self (Json.blank_le_of_mem_canonical (Json.floatFree_of_storable hs))
  rw [load, h]
  simp only [Utf8.decode_encode, hu, Json.read_canonical hs]

end Surface

end Allowlist
