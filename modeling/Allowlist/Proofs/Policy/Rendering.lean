import Allowlist.Proofs.Json.Delimited
import Allowlist.Proofs.Policy.Canonical
import Allowlist.Proofs.Policy.Exact

/-!
# Policies and their bytes

No two policies have the same bytes, whatever their texts are. With what is known of compiled
policies this makes the bytes a canonical form of what the surface says: they tell source and facts,
and nothing else of the document that they were made from.
-/
namespace Allowlist.Policy

theorem numberFree_moduleFields (modules : Fields (List Text)) :
    (Json.obj (moduleFields modules)).NumberFree := by
  refine Json.all_obj.mpr ⟨trivial, ?_⟩
  intro f hf
  obtain ⟨m, _, rfl⟩ := List.mem_map.mp hf
  refine Json.all_arr.mpr ⟨trivial, ?_⟩
  intro v hv
  obtain ⟨e, _, rfl⟩ := List.mem_map.mp hv
  trivial

theorem numberFree_fields (p : Policy) : (Json.obj p.fields).NumberFree := by
  refine Json.all_obj.mpr ⟨trivial, ?_⟩
  intro f hf
  simp only [fields, threeFields, List.mem_cons, List.not_mem_nil, or_false] at hf
  rcases hf with rfl | rfl | rfl
  · trivial
  · trivial
  · exact numberFree_moduleFields p.modules

theorem fields_injective : Function.Injective fields := by
  intro p q h
  obtain ⟨s, ms⟩ := p
  obtain ⟨t, ns⟩ := q
  simp only [fields, threeFields, List.cons.injEq, Prod.mk.injEq, Json.str.injEq, Json.obj.injEq,
    true_and, and_true] at h
  obtain ⟨rfl, hm⟩ := h
  rw [← listed_moduleFields ms, hm, listed_moduleFields]

/-- Policies with the same bytes are the same. -/
theorem render_injective : Function.Injective render := by
  intro p q h
  rw [render_eq, render_eq] at h
  have hv := Json.eq_of_canonical (numberFree_fields p) (numberFree_fields q)
    (Utf8.encode_injective h)
  exact fields_injective (Json.obj.inj hv)

section

variable {surface₁ surface₂ : Json} {source₁ source₂ : Text} {required : Option (List Text)}
  {p₁ p₂ : Policy}

/-- Two policies compiled for one variant have the same bytes exactly if their sources are the same
and the surfaces state the same facts about the modules that are kept. -/
theorem render_eq_render_iff (h₁ : compile surface₁ source₁ required = .ok p₁)
    (h₂ : compile surface₂ source₂ required = .ok p₂) :
    p₁.render = p₂.render ↔ source₁ = source₂ ∧ ∀ m e, Kept required m →
      (Surface.States surface₁ m e ↔ Surface.States surface₂ m e) := by
  have hp₁ : p₁.Exact surface₁ source₁ required := exact_of_compile h₁
  have hp₂ : p₂.Exact surface₂ source₂ required := exact_of_compile h₂
  rw [render_injective.eq_iff]
  constructor
  · rintro rfl
    refine ⟨hp₁.source.symm.trans hp₂.source, fun m e hk => ?_⟩
    have h := (hp₁.lists m e).symm.trans (hp₂.lists m e)
    simpa only [hk, and_true] using h
  · rintro ⟨rfl, hs⟩
    -- the first policy is also the one that the second surface asks for
    refine Exact.unique ⟨hp₁.source, hp₁.inOrder, fun m e => ?_⟩ hp₂
    rw [hp₁.lists]
    exact and_congr_left (hs m e)

end

/-- The facts of `noisySurface` about the required modules in another order and without repetition,
between fields that do not matter. -/
def tidySurface : Json :=
  .obj [("note", .null), ("entries", .arr [
    .obj [("export", .str "e"), ("module", .str "m"), ("since", .int 3)],
    Entry.toJson ⟨"n", "d"⟩, Entry.toJson ⟨"y", "h"⟩, Entry.toJson ⟨"n", "f"⟩]),
    ("schema", .str surfaceSchema)]

/-- From equal bytes to equal facts, and from another source to other bytes. -/
theorem render_tidySurface :
    (compile noisySurface "s" noisyRequired = .ok noisyPolicy ∧
      compile tidySurface "s" noisyRequired = .ok noisyPolicy ∧
      compile tidySurface "t" noisyRequired = .ok { noisyPolicy with source := "t" }) ∧
    (∀ m e, Kept noisyRequired m →
      (Surface.States noisySurface m e ↔ Surface.States tidySurface m e)) ∧
    noisyPolicy.render ≠ { noisyPolicy with source := "t" }.render := by
  have hn : compile noisySurface "s" noisyRequired = .ok noisyPolicy := by rfl
  have ht : compile tidySurface "s" noisyRequired = .ok noisyPolicy := by rfl
  have ht' : compile tidySurface "t" noisyRequired = .ok { noisyPolicy with source := "t" } := by
    rfl
  refine ⟨⟨hn, ht, ht'⟩, ((render_eq_render_iff hn ht).mp rfl).2, fun he => ?_⟩
  exact absurd ((render_eq_render_iff hn ht').mp he).1 (by decide)

end Allowlist.Policy
