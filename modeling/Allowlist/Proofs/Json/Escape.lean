import Allowlist.Json.Canonical
import Allowlist.Json.Literal
import Allowlist.Proofs.Number.Digits
import Allowlist.Proofs.Text.Joined

/-!
# Strings read back

Whatever stands for one code point is scanned as that code point, as long as the string goes on.
So the scanner never takes a part of one escape for another: it is at the start of an escape
whenever it looks.
-/
namespace Allowlist.Json

open Digits (fixed)

/-- The result of a scan with one more code point in front. -/
def scanned (p : CodePoint) (r : Text × List Char) : Text × List Char := (p :: r.1, r.2)

theorem hexCodePoint?_fixed {n : Nat} (h : n < 0x10000) {a b c d : Char}
    (hf : fixed 16 4 n = [a, b, c, d]) : hexCodePoint? a b c d = some ⟨n, by omega⟩ := by
  have hv := Digits.value_fixed_four h
  have hx := Digits.isHex_fixed 4 n
  rw [hf] at hv hx
  have hn : n < 0x110000 := by omega
  simp only [hexCodePoint?, hx, ↓reduceIte, hv, hn, ↓reduceDIte]

theorem scanString_hexEscape {n : Nat} (h : n < 0x10000) (start : List Char) (e : Char)
    (more : List Char) : scanString start (hexEscape n ++ e :: more) =
      scanned ⟨n, by omega⟩ <$> scanString start (e :: more) := by
  have hp := hexCodePoint?_fixed h (Digits.fixed_four n)
  simp only [hexEscape, Digits.fixed_four, List.cons_append, List.nil_append]
  rw [scanString.eq_def]
  simp only [hp]
  cases scanString start (e :: more) <;> rfl

/-- A short escape stands for the character that the reader makes of it. -/
theorem escaped?_of_shortEscape? {p : CodePoint} {e : List Char}
    (h : shortEscape? p.val = some e) :
    ∃ x c, e = ['\\', x] ∧ escaped? x = some c ∧ CodePoint.ofChar c = p := by
  unfold shortEscape? at h
  split at h
  case h_8 => cases h
  all_goals
    next hp =>
    obtain rfl := Option.some.inj h
    exact ⟨_, _, rfl, rfl, Fin.ext (Eq.symm hp)⟩

theorem scanString_shortEscape {p : CodePoint} {e : List Char} (h : shortEscape? p.val = some e)
    (start rest : List Char) : scanString start (e ++ rest) =
      scanned p <$> scanString start rest := by
  obtain ⟨x, c, rfl, hc, rfl⟩ := escaped?_of_shortEscape? h
  simp only [List.cons_append, List.nil_append]
  rw [scanString.eq_def]
  split
  case h_1 he => cases he
  case h_2 he => cases he
  case h_3 he =>
    cases he
    cases hc
  case h_4 he =>
    cases he
    simp only [hc]
    cases scanString start rest <;> rfl
  case h_5 he => cases he
  case h_6 hn _ he =>
    cases he
    exact False.elim (hn x rest rfl rfl)

/-- A character that no escape is needed for. -/
theorem scanString_plain {c : Char} (hq : c ≠ '"') (hb : c ≠ '\\') (hc : ' ' ≤ c)
    (start rest : List Char) : scanString start (c :: rest) =
      scanned (.ofChar c) <$> scanString start rest := by
  have hn : ¬c < ' ' := Nat.not_lt.mpr hc
  rw [scanString.eq_def]
  split
  case h_1 h => cases h
  case h_2 h => exact absurd (List.cons.inj h).1 hq
  case h_3 h => exact absurd (List.cons.inj h).1 hb
  case h_4 h => exact absurd (List.cons.inj h).1 hb
  case h_5 h => exact absurd (List.cons.inj h).1 hb
  case h_6 h =>
    obtain ⟨rfl, rfl⟩ := List.cons.inj h
    rw [if_neg hn]
    cases scanString start rest <;> rfl

/-- The characters with a short escape are no plain characters. -/
theorem ne_of_shortEscape?_eq_none {p : CodePoint} {c : Char} (h : shortEscape? p.val = none)
    (hc : p.char? = some c) : c ≠ '"' ∧ c ≠ '\\' := by
  obtain rfl := CodePoint.ofChar_of_char? hc
  constructor
  · rintro rfl
    cases h
  · rintro rfl
    cases h

theorem scanString_canonicalEscape (p : CodePoint) (start : List Char) (e : Char)
    (more : List Char) : scanString start (canonicalEscape p ++ e :: more) =
      scanned p <$> scanString start (e :: more) := by
  unfold canonicalEscape
  split
  · next e' h => exact scanString_shortEscape h start _
  · next c h hc =>
    obtain ⟨hq, hb⟩ := ne_of_shortEscape?_eq_none h hc
    have hp := CodePoint.ofChar_of_char? hc
    split
    · next hlt =>
      have hn : p.val < 0x10000 := by
        have : c.toNat < 0x20 := hlt
        rw [← hp]
        simp only [CodePoint.ofChar]
        omega
      exact scanString_hexEscape hn start e more
    · next hle =>
      rw [← hp]
      exact scanString_plain hq hb (Nat.not_lt.mp hle) start _
  · next h hc =>
    have hs := (CodePoint.isSurrogate_iff p).mp ((CodePoint.char?_eq_none_iff p).mp hc)
    exact scanString_hexEscape (by omega) start e more

/-- If what stands for each code point is scanned as some code points, so is a string of them. -/
theorem scanString_flatMap_of {escape : CodePoint → List Char} (units : CodePoint → Text)
    (h : ∀ p start e more, scanString start (escape p ++ e :: more) =
      (units p).foldr (fun u r => scanned u <$> r) (scanString start (e :: more)))
    (t : Text) (start rest : List Char) :
    scanString start (t.flatMap escape ++ '"' :: rest) = .ok (t.flatMap units, rest) := by
  induction t with
  | nil => rw [scanString.eq_def]; rfl
  | cons p t ih =>
    obtain ⟨e, more, he⟩ : ∃ e more, t.flatMap escape ++ '"' :: rest = e :: more :=
      List.exists_cons_of_ne_nil (by simp)
    rw [List.flatMap_cons, List.append_assoc, he, h, ← he, ih, List.flatMap_cons]
    induction units p with
    | nil => rfl
    | cons u us ihu => rw [List.foldr_cons, ihu]; rfl

/-- The code points of a string are read back one by one, surrogates included. -/
theorem scanString_flatMap (t : Text) (start rest : List Char) :
    scanString start (t.flatMap canonicalEscape ++ '"' :: rest) = .ok (t, rest) := by
  rw [scanString_flatMap_of (fun p => [p]) scanString_canonicalEscape, List.flatMap_singleton']

/-- A joined text is read back from its quoted form. -/
theorem readString_quote {t : Text} (h : t.Joined) (rest : List Char) :
    readString (t.flatMap canonicalEscape ++ '"' :: rest) = .ok (t, rest) := by
  rw [readString, scanString_flatMap]
  exact congrArg (fun u => Except.ok (u, rest)) (Text.joinPairs_of_joined t h)

end Allowlist.Json
