import Allowlist.Proofs.Policy.Form

/-!
# Canonical policies and their bytes

The bytes of a canonical policy are read back as its fields, and the check of the form finds nothing
wrong with them. Whatever else it finds nothing wrong with does not exist.
-/
namespace Allowlist.Policy

open Json (Storable Readable)

theorem storable_exports {es : List Text} (h : ∀ e ∈ es, e.Joined) :
    (Json.arr (es.map .str)).Storable := by
  refine Json.all_arr.mpr ⟨trivial, ?_⟩
  intro v hv
  obtain ⟨e, he, rfl⟩ := List.mem_map.mp hv
  exact h e he

theorem storable_moduleFields {modules : Fields (List Text)} (hm : InOrder modules)
    (hn : ∀ m ∈ modules, m.1.Joined) (he : ∀ m ∈ modules, ∀ e ∈ m.2, e.Joined) :
    (Json.obj (moduleFields modules)).Storable := by
  refine Json.all_obj.mpr ⟨⟨?_, ?_⟩, ?_⟩
  · rw [keys_moduleFields]
    exact Ascending.nodup_of_pairwise hm.names
  · rw [keys_moduleFields]
    intro k hk
    obtain ⟨m, hm, rfl⟩ := List.mem_map.mp hk
    exact hn m hm
  · intro f hf
    obtain ⟨m, hm, rfl⟩ := List.mem_map.mp hf
    exact storable_exports (he m hm)

/-- A canonical policy is kept by canonical JSON. -/
theorem Canonical.storable {p : Policy} (h : p.Canonical) : (Json.obj p.fields).Storable := by
  have hnames : fieldNames.Nodup ∧ ∀ k ∈ fieldNames, k.Joined := by decide
  refine Json.all_obj.mpr ⟨hnames, ?_⟩
  intro f hf
  simp only [fields, threeFields, List.mem_cons, List.not_mem_nil, or_false] at hf
  rcases hf with rfl | rfl | rfl
  · exact (by decide : policySchema.Joined)
  · exact h.source
  · exact storable_moduleFields h.inOrder h.names h.exports

theorem render_eq (p : Policy) : p.render = Utf8.encode (Json.obj p.fields).canonical := rfl

/-- The bytes of a canonical policy are read back, and so they are with blanks behind them. -/
theorem Canonical.decode_render_append {p : Policy} (h : p.Canonical) {bs : List Char}
    (hb : ∀ c ∈ bs, Json.isBlank c = true) :
    decode (p.render ++ Utf8.encode bs) = .ok (.ok (.obj p.fields)) := by
  rw [decode, render_eq, ← Utf8.encode_append, Utf8.decode_encode]
  simp only [Json.read_canonical_append h.storable hb]

theorem Canonical.decode_render {p : Policy} (h : p.Canonical) :
    decode p.render = .ok (.ok (.obj p.fields)) := by
  rw [decode, render_eq, Utf8.decode_encode]
  simp only [Json.read_canonical h.storable]

theorem checkLines_eq_nil {raw : Utf8.Bytes} (h : ∀ b ∈ raw, 0x20 ≤ b) : checkLines raw = [] := by
  have hb (b : UInt8) (hb : b ∈ raw) : ¬b = 0x0A ∧ ¬b = 0x0D ∧ ¬b = 0x09 := by
    refine ⟨?_, ?_, ?_⟩ <;> (rintro rfl; exact absurd (h _ hb) (by decide))
  have hany : raw.any (fun b => b = 0x0A || b = 0x0D || b = 0x09) = false := by
    rw [List.any_eq_false]
    intro b hmem
    simp [hb b hmem]
  have hlast : raw.getLast? ≠ some 0x0A := by
    intro he
    exact (hb _ (List.mem_of_getLast? he)).1 rfl
  rw [checkLines, hany, if_neg hlast]
  rfl

theorem render_ne_nil (p : Policy) : p.render ≠ [] := by
  have he : (Json.obj p.fields).canonical =
      '\x7b' :: (Json.renderFields Json.canonicalStyle p.fields ++ ['\x7d']) := by
    rw [Json.canonical, Json.render]
  rw [render_eq, he, Utf8.encode_cons]
  exact List.append_ne_nil_of_left_ne_nil (by decide) _

/-- The form of a canonical policy is right. -/
theorem Canonical.checkBytes_render {p : Policy} (h : p.Canonical) :
    checkBytes p.render = .ok [] := by
  have hblank : ∀ b ∈ p.render, 0x20 ≤ b := fun b hb =>
    Utf8.blank_le_of_mem_encode
      (Json.blank_le_of_mem_canonical (Json.floatFree_of_storable h.storable)) hb
  have hlines : checkLines p.render = [] := checkLines_eq_nil hblank
  have hfields : checkFields p.fields = [] := checkFields_eq_nil_iff.mpr ⟨p, h.inOrder, rfl⟩
  rw [checkBytes, if_neg (render_ne_nil p), h.decode_render]
  simp only [hlines, hfields, ← render_eq, ↓reduceIte, List.append_nil]

theorem readable_of_decode {raw : Utf8.Bytes} {v : Json} (h : decode raw = .ok (.ok v)) :
    v.Readable := by
  rw [decode] at h
  split at h
  · cases h
  split at h
  · next w hr =>
    obtain rfl : w = v := by simpa using h
    exact Json.readable_of_read hr
  · cases h
  · cases h

theorem canonical_of_readable {p : Policy} (hp : InOrder p.modules)
    (h : (Json.obj p.fields).Readable) : p.Canonical := by
  have hf := (Json.all_obj.mp h).2
  have hs : p.source.Joined := hf ("source", .str p.source) (by simp [fields, threeFields])
  have hm : (Json.obj (moduleFields p.modules)).Readable :=
    hf ("modules", .obj (moduleFields p.modules)) (by simp [fields, threeFields])
  obtain ⟨⟨-, hnames⟩, hvalues⟩ := Json.all_obj.mp hm
  refine ⟨hp, hs, ?_, ?_⟩
  · intro m hmem
    exact hnames m.1 (by rw [keys_moduleFields]; exact Assoc.mem_keys_of_mem hmem)
  · intro m hmem e he
    have hv : (Json.arr (m.2.map .str)).Readable :=
      hvalues (m.1, .arr (m.2.map .str)) (List.mem_map_of_mem hmem)
    exact (Json.all_arr.mp hv).2 (.str e) (List.mem_map_of_mem he)

/-- Bytes whose form is right are those of a canonical policy. -/
theorem exists_canonical_of_checkBytes {raw : Utf8.Bytes} (h : checkBytes raw = .ok []) :
    ∃ p : Policy, p.Canonical ∧ raw = p.render := by
  rw [checkBytes] at h
  split at h
  · cases h
  split at h
  · cases h
  · next v _ =>
    have h := Except.ok.inj h
    simp at h
  · next v hd =>
    split at h
    · next policy =>
      have h := Except.ok.inj h
      simp only [List.append_eq_nil_iff, ite_eq_left_iff, List.cons_ne_nil, imp_false,
        Decidable.not_not] at h
      obtain ⟨⟨-, hfields⟩, hbytes⟩ := h
      obtain ⟨p, hp, rfl⟩ := checkFields_eq_nil_iff.mp hfields
      exact ⟨p, canonical_of_readable hp (readable_of_decode hd), hbytes.symm⟩
    · have h := Except.ok.inj h
      simp at h

/-- The check of the form accepts the bytes of canonical policies and no others. In particular it
rejects every other spelling of a canonical policy. -/
theorem checkBytes_eq_ok_nil_iff (raw : Utf8.Bytes) :
    (checkBytes raw = .ok [] ↔ ∃ p : Policy, p.Canonical ∧ raw = p.render) ∧
    ∀ p : Policy, p.Canonical → decode raw = decode p.render → raw ≠ p.render →
      checkBytes raw ≠ .ok [] := by
  constructor
  · constructor
    · exact exists_canonical_of_checkBytes
    · rintro ⟨p, hp, rfl⟩
      exact hp.checkBytes_render
  · intro p hp hd hne hc
    obtain ⟨q, hq, rfl⟩ := exists_canonical_of_checkBytes hc
    rw [hp.decode_render, hq.decode_render] at hd
    have hf : q.fields = p.fields := by simpa using hd
    exact hne (by rw [render_eq, render_eq, hf])

/-- One module, whose export is a surrogate that stands alone. -/
def surrogatePolicy : Policy := ⟨"s", [("m", [[.firstHigh]])]⟩

theorem surrogatePolicy_canonical : surrogatePolicy.Canonical where
  inOrder := ⟨by decide, by decide⟩
  source := by decide
  names := by decide
  exports := by decide

/-- A blank behind the object is one character too many. -/
theorem checkBytes_trailing_blank :
    decode (surrogatePolicy.render ++ Utf8.encode [' ']) = decode surrogatePolicy.render ∧
      checkBytes (surrogatePolicy.render ++ Utf8.encode [' ']) ≠ .ok [] := by
  have hc : surrogatePolicy.Canonical := surrogatePolicy_canonical
  have hd : decode (surrogatePolicy.render ++ Utf8.encode [' ']) =
      decode surrogatePolicy.render := by
    rw [hc.decode_render_append (by simp [Json.isBlank]), hc.decode_render]
  have hne : Utf8.encode [' '] ≠ [] := by decide
  exact ⟨hd, (checkBytes_eq_ok_nil_iff _).2 surrogatePolicy hc hd (by simpa using hne)⟩

end Allowlist.Policy
