import Allowlist.Proofs.Assoc
import Allowlist.Proofs.Text.Joined
import Allowlist.Text.Uppercase

/-!
# Upper case and surrogates

No letter is a surrogate, and none has one in its upper-case form. So a text in upper case has surrogates
exactly if the text has.
-/
namespace Allowlist.Text

/-- Not the number of a surrogate. -/
def Outside (n : Nat) : Prop := n < 0xD800 ∨ 0xDFFF < n

theorem isSurrogate_eq_false_iff {c : CodePoint} : c.isSurrogate = false ↔ Outside c.val := by
  rw [← Bool.not_eq_true, CodePoint.isSurrogate_iff, Outside]
  omega

/-- Each run lies on one side of the surrogates, and so does what it leads to. -/
theorem upperRuns_outside : upperRuns.all (fun (first, last, _, d) =>
    (last < 0xD800 || 0xDFFF < first) && (last + d < 0xD800 || 0xDFFF < first + d)) = true := by
  decide +kernel

theorem upperSequences_outside : upperSequences.all (fun (n, us) =>
    (n < 0xD800 || 0xDFFF < n) && us.all (fun u => u < 0xD800 || 0xDFFF < u)) = true := by
  decide +kernel

theorem val_codePoint? {n : Nat} {c : CodePoint} (h : codePoint? n = some c) : c.val = n := by
  rw [codePoint?] at h
  split at h
  · rw [← Option.some.inj h]
  · cases h

theorem isSurrogate_shift (c : CodePoint) :
    (shift upperRuns c).isSurrogate = c.isSurrogate := by
  rw [shift]
  split
  · next first last step d hrun =>
    have hc := List.find?_some hrun
    have houtside := List.all_eq_true.mp upperRuns_outside _ (List.mem_of_find?_eq_some hrun)
    simp only [Bool.and_eq_true, Bool.or_eq_true, decide_eq_true_eq] at hc houtside
    have hfrom : c.isSurrogate = false := by
      rw [isSurrogate_eq_false_iff, Outside]
      omega
    rw [hfrom]
    cases hp : codePoint? (c.val + d).toNat with
    | none => exact hfrom
    | some p =>
      have hval := val_codePoint? hp
      show p.isSurrogate = false
      rw [isSurrogate_eq_false_iff, hval, Outside]
      omega
  · rfl

theorem any_isSurrogate_upperCodePoint (c : CodePoint) :
    (upperCodePoint c).any CodePoint.isSurrogate = c.isSurrogate := by
  rw [upperCodePoint]
  split
  · next us hus =>
    have hmem : (c.val, us) ∈ upperSequences := Assoc.mem_of_get? hus
    have houtside := List.all_eq_true.mp upperSequences_outside _ hmem
    simp only [Bool.and_eq_true, Bool.or_eq_true, decide_eq_true_eq, List.all_eq_true] at houtside
    obtain ⟨hc, hus⟩ := houtside
    rw [isSurrogate_eq_false_iff.mpr hc, List.any_eq_false]
    intro p hp
    obtain ⟨u, hu, hup⟩ := List.mem_filterMap.mp hp
    rw [Bool.not_eq_true, isSurrogate_eq_false_iff, val_codePoint? hup]
    exact hus u hu
  · rw [List.any_cons, List.any_nil, Bool.or_false, isSurrogate_shift]

theorem hasSurrogate_toUpper (t : Text) : t.toUpper.hasSurrogate = t.hasSurrogate := by
  rw [hasSurrogate, toUpper, List.any_flatMap, hasSurrogate]
  simp only [any_isSurrogate_upperCodePoint]

end Allowlist.Text
