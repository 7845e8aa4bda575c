import Allowlist.Files.Basic
import Allowlist.Proofs.Text.Joined
import Mathlib.Data.List.TakeWhile

/-!
# Paths that a file can have

A path that is permitted has no surrogate but the escaped bytes, all of which are low ones; so the
text that the path was read from is joined. The parent of a permitted path is permitted.
-/
namespace Allowlist

namespace Text

theorem join_append_singleton (sep : Text) {ts : List Text} (h : ts ≠ []) (t : Text) :
    join sep (ts ++ [t]) = join sep ts ++ sep ++ t := by
  induction ts with
  | nil => exact absurd rfl h
  | cons u ts ih =>
    cases ts with
    | nil => simp [join]
    | cons v ts =>
      have hi : join sep (v :: ts ++ [t]) = join sep (v :: ts) ++ sep ++ t := ih (by simp)
      simp only [join, List.cons_append, List.intercalate_cons_cons] at hi ⊢
      rw [hi]
      simp only [List.append_assoc]

theorem mem_join {sep : Text} {ts : List Text} {t : Text} (ht : t ∈ ts) {c : CodePoint}
    (hc : c ∈ t) : c ∈ join sep ts := by
  induction ts with
  | nil => cases ht
  | cons u ts ih =>
    cases ts with
    | nil =>
      obtain rfl := List.mem_singleton.mp ht
      simpa [join] using hc
    | cons v ts =>
      simp only [join, List.intercalate_cons_cons, List.mem_append] at ih ⊢
      rcases List.mem_cons.mp ht with rfl | ht
      · exact .inl (.inl hc)
      · exact .inr (ih ht)

end Text

namespace Path

theorem text_of_names (anchor : Anchor) {names : List Text} (h : names ≠ []) :
    (Path.mk anchor names).text = Anchor.text anchor ++ Text.join [slash] names := by
  rw [text.eq_def]
  split
  · next he => exact absurd he h
  · rfl

theorem mem_split {t : Text} {c : CodePoint} (h : c ∈ t) (hc : c ≠ slash) :
    ∃ n ∈ split t, c ∈ n := by
  induction t with
  | nil => cases h
  | cons d t ih =>
    rw [split]
    split
    · next hd =>
      rcases List.mem_cons.mp h with rfl | h
      · exact absurd hd hc
      · obtain ⟨n, hn, hm⟩ := ih h
        exact ⟨n, List.mem_cons_of_mem _ hn, hm⟩
    split
    · next he =>
      rcases List.mem_cons.mp h with rfl | h
      · exact ⟨[c], by simp, by simp⟩
      · obtain ⟨n, hn, -⟩ := ih h
        rw [he] at hn
        cases hn
    · next part rest he =>
      rcases List.mem_cons.mp h with rfl | h
      · exact ⟨c :: part, by simp, by simp⟩
      · obtain ⟨n, hn, hm⟩ := ih h
        rw [he] at hn
        rcases List.mem_cons.mp hn with rfl | hn
        · exact ⟨d :: n, by simp, by simp [hm]⟩
        · exact ⟨n, by simp [hn], hm⟩

/-- Reading a path drops nothing but slashes and points. -/
theorem mem_text_ofText {t : Text} {c : CodePoint} (h : c ∈ t) (hs : c ≠ slash)
    (hp : c ≠ .ofChar '.') : c ∈ (ofText t).text := by
  obtain ⟨n, hn, hc⟩ := mem_split h hs
  have hname : n ∈ (ofText t).names := by
    have hne : n ≠ [] := List.ne_nil_of_mem hc
    have hnp : n ≠ "." := by
      rintro rfl
      exact hp (by simpa [Text.ofString] using hc)
    simp [ofText, hn, hne, hnp]
  rw [text_of_names _ (List.ne_nil_of_mem hname)]
  exact List.mem_append_right _ (Text.mem_join hname hc)

theorem faultOf_eq_none_iff {t : Text} : faultOf t = none ↔
    (∀ c ∈ t, c.isSurrogate = true → isEscapedByte c = true) ∧ 0 ∉ t := by
  have hd : t.dropWhile (fun c => !c.isSurrogate || isEscapedByte c) = [] ↔
      ∀ c ∈ t, c.isSurrogate = true → isEscapedByte c = true := by
    rw [List.dropWhile_eq_nil_iff]
    refine forall₂_congr fun c _ => ?_
    cases c.isSurrogate <;> simp
  rw [faultOf, ← hd]
  split
  · next he => simp [he]
  · next he => simp [he]

theorem isHighSurrogate_of_isEscapedByte {c : CodePoint} (h : isEscapedByte c = true) :
    c.isHighSurrogate = false := by
  simp only [isEscapedByte, Bool.and_eq_true, decide_eq_true_eq] at h
  simp only [CodePoint.isHighSurrogate, Bool.and_eq_false_iff, decide_eq_false_iff_not]
  omega

/-- A text that names a permitted path has no high surrogate. -/
theorem joined_of_permit {t : Text} (h : Files.permit (ofText t) = .ok ()) : t.Joined := by
  have hf : faultOf (ofText t).text = none := by
    rw [Files.permit] at h
    split at h
    · cases h
    · next hf => exact hf
  refine Text.joined_of_forall fun c hc => ?_
  by_cases hs : c.isSurrogate = true
  · have hm : c ∈ (ofText t).text := by
      refine mem_text_ofText hc ?_ ?_
      · rintro rfl
        exact absurd hs (by decide)
      · rintro rfl
        exact absurd hs (by decide)
    exact isHighSurrogate_of_isEscapedByte ((faultOf_eq_none_iff.mp hf).1 c hm hs)
  · exact (CodePoint.isHighSurrogate_of_isSurrogate (by simpa using hs)).1

theorem foldl_width (t : Text) (n : Nat) : t.foldl (fun n c => n + width c) n = n + size t := by
  rw [size]
  induction t generalizing n with
  | nil => rfl
  | cons c t ih =>
    rw [List.foldl_cons, List.foldl_cons, ih (n + width c), ih (0 + width c)]
    omega

theorem size_append (s t : Text) : size (s ++ t) = size s + size t := by
  rw [size, List.foldl_append, ← size, foldl_width]

/-- The text of the parent is a beginning of the text, unless nothing but the working directory is
left. -/
theorem text_parent (p : Path) : p.parent.text = "." ∨ p.parent.text <+: p.text := by
  obtain ⟨anchor, names⟩ := p
  rcases List.eq_nil_or_concat names with rfl | ⟨ns, n, rfl⟩
  · exact .inr (List.prefix_refl _)
  · have hp : (Path.mk anchor (ns.concat n)).parent = ⟨anchor, ns⟩ := by
      simp [parent]
    rw [hp, List.concat_eq_append]
    cases ns with
    | nil =>
      cases anchor with
      | here => exact .inl rfl
      | root => exact .inr ⟨n, by simp [text, Text.join]⟩
      | doubleRoot => exact .inr ⟨n, by simp [text, Text.join]⟩
    | cons m ns =>
      refine .inr ⟨[slash] ++ n, ?_⟩
      rw [text_of_names _ (by simp), text_of_names _ (by simp),
        Text.join_append_singleton _ (by simp)]
      simp only [List.append_assoc]

/-- Whatever is wrong with the parent is wrong with the path. -/
theorem fault?_parent {p : Path} (h : p.fault? = none) : p.parent.fault? = none := by
  rcases text_parent p with he | ⟨rest, he⟩
  · rw [fault?, he]
    rfl
  · rw [fault?, ← he, faultOf_eq_none_iff] at h
    rw [fault?, faultOf_eq_none_iff]
    refine ⟨fun c hc => h.1 c (List.mem_append_left _ hc), ?_⟩
    intro h0
    exact h.2 (List.mem_append_left _ h0)

theorem permit_parent {p : Path} (h : Files.permit p = .ok ()) :
    Files.permit p.parent = .ok () := by
  rw [Files.permit] at h
  split at h
  · cases h
  split at h
  · cases h
  next hf hs =>
  rw [Files.permit, fault?_parent hf]
  rcases text_parent p with he | ⟨rest, he⟩
  · rw [he]
    rfl
  · rw [← he, size_append] at hs
    have hsize : ¬maxPath < size p.parent.text := by omega
    exact if_neg hsize

end Path

end Allowlist
