import Allowlist.Proofs.Json.Characters
import Allowlist.Proofs.Json.RoundTrip
import Allowlist.Proofs.Json.Surrogates

/-!
# Canonical JSON is faithful

On storable values canonical JSON and reading are inverse to each other, down to the bytes. Hence
each value has one canonical form, and no two values share theirs.
-/
namespace Allowlist.Json

theorem floatFree_of_storable {v : Json} (h : v.Storable) : v.FloatFree := by
  refine h.mono ?_
  intro w hw
  cases w with
  | float x => exact hw
  | _ => trivial

/-- A text of characters has no surrogates. -/
theorem isSurrogate_of_mem_ofChars {cs : List Char} {p : CodePoint} (h : p ∈ Text.ofChars cs) :
    p.isSurrogate = false := by
  obtain ⟨c, _, rfl⟩ := List.mem_map.mp h
  exact CodePoint.isSurrogate_ofChar c

theorem decode_encode_canonical {v : Json} (h : v.Storable) :
    ∃ cs, Utf8.decode (Utf8.encode v.canonical) = .ok cs ∧ Json.read cs = .ok v :=
  ⟨v.canonical, Utf8.decode_encode v.canonical, read_canonical h⟩

/-- Values with one canonical form are one value. -/
theorem eq_of_encode_canonical {v w : Json} (hv : v.Storable) (hw : w.Storable)
    (h : Utf8.encode v.canonical = Utf8.encode w.canonical) : v = w := by
  have hr := read_canonical hv
  rw [Utf8.encode_injective h, read_canonical hw] at hr
  exact (Except.ok.inj hr).symm

/-- The canonical form of a storable value is one line of characters, made in two passes; its bytes
are read back as the value, and are those of no other value. -/
theorem canonical_faithful (v : Json) (h : v.Storable) :
    v.canonical = escapeSurrogates v.raw ∧
    (∀ p ∈ Text.ofChars v.canonical, p.isSurrogate = false ∧ 0x20 ≤ p.val) ∧
    (∀ b ∈ Utf8.encode v.canonical, 0x20 ≤ b) ∧
    (∃ cs, Utf8.decode (Utf8.encode v.canonical) = .ok cs ∧ Json.read cs = .ok v) ∧
    ∀ w : Json, w.Storable → Utf8.encode w.canonical = Utf8.encode v.canonical → w = v := by
  have hle := blank_le_of_mem_canonical (floatFree_of_storable h)
  refine ⟨(escapeSurrogates_raw v).symm, ?_, fun b hb => Utf8.blank_le_of_mem_encode hle hb,
    decode_encode_canonical h, fun w hw he => eq_of_encode_canonical hw h he⟩
  intro p hp
  refine ⟨isSurrogate_of_mem_ofChars hp, ?_⟩
  obtain ⟨c, hc, rfl⟩ := List.mem_map.mp hp
  exact hle c hc

/-- A backslash before a high surrogate, keys out of order, and a negative integer. -/
def faithfulExample : Json :=
  .obj [("b", .arr [.int (-7), .null, .bool true]),
    ("a", .str [.ofChar '\\', .firstHigh, .ofChar 'A', .firstLow])]

theorem canonical_faithful_example :
    faithfulExample.Storable ∧
    ∃ cs, Utf8.decode (Utf8.encode faithfulExample.canonical) = .ok cs ∧
      Json.read cs = .ok faithfulExample := by
  have h : faithfulExample.Storable := by decide
  exact ⟨h, (canonical_faithful faithfulExample h).2.2.2.1⟩

end Allowlist.Json
