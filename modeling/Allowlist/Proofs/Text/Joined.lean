import Allowlist.Text.Basic

/-!
# Code points, characters and joined texts

A code point is either a character or a surrogate. Joining the pairs of a text gives a joined
text: the character of a pair is no surrogate, so it makes no pair with what stands beside it.
-/
namespace Allowlist

namespace CodePoint

/-- The first high and the first low surrogate. -/
def firstHigh : CodePoint := ⟨0xD800, by decide⟩

def firstLow : CodePoint := ⟨0xDC00, by decide⟩

theorem toNat_ofNatAux (n : Nat) (h : n.isValidChar) : (Char.ofNatAux n h).toNat = n := rfl

@[simp] theorem char?_ofChar (c : Char) : (ofChar c).char? = some c := by
  have h : (ofChar c).val.isValidChar := c.valid
  rw [char?, dif_pos h]
  exact congrArg some (Char.toNat_inj.mp (toNat_ofNatAux _ h))

theorem ofChar_of_char? {p : CodePoint} {c : Char} (h : p.char? = some c) : ofChar c = p := by
  by_cases hv : p.val.isValidChar
  · rw [char?, dif_pos hv] at h
    rw [← Option.some.inj h]
    exact Fin.ext (toNat_ofNatAux _ hv)
  · rw [char?, dif_neg hv] at h
    cases h

theorem isSurrogate_iff (p : CodePoint) :
    p.isSurrogate = true ↔ 0xD800 ≤ p.val ∧ p.val ≤ 0xDFFF := by
  simp only [isSurrogate, isHighSurrogate, isLowSurrogate, Bool.or_eq_true, Bool.and_eq_true,
    decide_eq_true_eq]
  omega

theorem char?_eq_none_iff (p : CodePoint) : p.char? = none ↔ p.isSurrogate = true := by
  have hp := p.isLt
  rw [isSurrogate_iff]
  by_cases hv : p.val.isValidChar
  · rw [char?, dif_pos hv]
    constructor
    · intro hn
      cases hn
    · intro hs
      rcases hv with h | h <;> omega
  · rw [char?, dif_neg hv]
    simp only [Nat.isValidChar] at hv
    simp only [true_iff]
    omega

theorem isSurrogate_ofChar (c : Char) : (ofChar c).isSurrogate = false := by
  rw [Bool.eq_false_iff, ne_eq, ← char?_eq_none_iff, char?_ofChar]
  simp

theorem isSurrogate_join (c d : CodePoint) : (join c d).isSurrogate = false := by
  rw [Bool.eq_false_iff, ne_eq, isSurrogate_iff]
  simp only [join]
  omega

theorem isHighSurrogate_of_isSurrogate {p : CodePoint} (h : p.isSurrogate = false) :
    p.isHighSurrogate = false ∧ p.isLowSurrogate = false := by
  simpa [isSurrogate] using h

end CodePoint

namespace Text

open CodePoint (isSurrogate_join isHighSurrogate_of_isSurrogate)

theorem joined_cons {c : CodePoint} {t : Text} (ht : Joined t)
    (hc : ∀ d ∈ t.head?, ¬(c.isHighSurrogate = true ∧ d.isLowSurrogate = true)) :
    Joined (c :: t) := by
  cases t with
  | nil => trivial
  | cons d t => exact ⟨hc d rfl, ht⟩

theorem joined_of_forall {t : Text} (h : ∀ c ∈ t, c.isHighSurrogate = false) : t.Joined := by
  induction t with
  | nil => trivial
  | cons c t ih =>
    obtain ⟨hc, ht⟩ := List.forall_mem_cons.mp h
    refine joined_cons (ih ht) ?_
    intro d _ hp
    rw [hc] at hp
    cases hp.1

/-- A text of characters has no surrogates, so no pair. -/
theorem ofChars_inj {cs ds : List Char} (h : ofChars cs = ofChars ds) : cs = ds := by
  refine List.map_inj_right (fun c d hcd => ?_) |>.mp h
  have hsome : some c = some d := by rw [← CodePoint.char?_ofChar c, hcd, CodePoint.char?_ofChar]
  exact Option.some.inj hsome

theorem joined_ofChars (cs : List Char) : Joined (ofChars cs) := by
  refine joined_of_forall fun p hp => ?_
  obtain ⟨c, -, rfl⟩ := List.mem_map.mp hp
  exact (isHighSurrogate_of_isSurrogate (CodePoint.isSurrogate_ofChar c)).1

/-- Joining puts no low surrogate in front that was not there before. -/
theorem head_joinPairs {d e : CodePoint} {t : Text} (h : e ∈ (joinPairs (d :: t)).head?)
    (he : e.isLowSurrogate = true) : e = d := by
  cases t with
  | nil => simpa [joinPairs, eq_comm] using h
  | cons c t =>
    simp only [joinPairs] at h
    split at h
    · have hn := (isHighSurrogate_of_isSurrogate (isSurrogate_join d c)).2
      simp only [List.head?_cons, Option.mem_def, Option.some.injEq] at h
      rw [← h, hn] at he
      cases he
    · simpa [eq_comm] using h

theorem joined_joinPairs (t : Text) : Joined (joinPairs t) := by
  fun_induction joinPairs t with
  | case1 => trivial
  | case2 c => trivial
  | case3 c d t h ih =>
    refine joined_cons ih ?_
    intro e _ hp
    have hn := (isHighSurrogate_of_isSurrogate (isSurrogate_join c d)).1
    simp [hn] at hp
  | case4 c d t h ih =>
    refine joined_cons ih ?_
    rintro e he ⟨hc, hd⟩
    obtain rfl := head_joinPairs he hd
    simp [hc, hd] at h

end Text

end Allowlist
