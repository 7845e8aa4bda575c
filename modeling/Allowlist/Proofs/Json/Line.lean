import Allowlist.Json.Line
import Allowlist.Proofs.Json.Canonical
import Allowlist.Proofs.Json.Writable

/-!
# One-line JSON read back

One-line JSON is visible ASCII, and a storable value is read back from it. A character beyond U+FFFF
is written as two escapes and scanned as two surrogates; joining the pairs of what was scanned makes
it one character again, and touches nothing else of a joined text.
-/
namespace Allowlist

namespace CodePoint

open Json (surrogatePair)

/-- The surrogates that denote a character beyond U+FFFF together; any other code point alone. -/
def halves (p : CodePoint) : Text :=
  if p.val < 0x10000 then [p]
  else [⟨(surrogatePair p.val).1, by have := p.isLt; simp only [surrogatePair]; omega⟩,
    ⟨(surrogatePair p.val).2, by simp only [surrogatePair]; omega⟩]

theorem halves_of_lt {p : CodePoint} (h : p.val < 0x10000) : p.halves = [p] := if_pos h

theorem isHighSurrogate_iff (p : CodePoint) :
    p.isHighSurrogate = true ↔ 0xD800 ≤ p.val ∧ p.val ≤ 0xDBFF := by
  simp only [isHighSurrogate, Bool.and_eq_true, decide_eq_true_eq]

theorem isLowSurrogate_iff (p : CodePoint) :
    p.isLowSurrogate = true ↔ 0xDC00 ≤ p.val ∧ p.val ≤ 0xDFFF := by
  simp only [isLowSurrogate, Bool.and_eq_true, decide_eq_true_eq]

/-- The halves of a character make it again. -/
theorem exists_halves {p : CodePoint} (h : ¬p.val < 0x10000) :
    ∃ high low, p.halves = [high, low] ∧ high.isHighSurrogate = true ∧ low.isLowSurrogate = true ∧
      join high low = p := by
  have hp := p.isLt
  refine ⟨_, _, if_neg h, (isHighSurrogate_iff _).mpr ?_, (isLowSurrogate_iff _).mpr ?_,
    Fin.ext ?_⟩
  · simp only [surrogatePair]
    omega
  · simp only [surrogatePair]
    omega
  · simp only [surrogatePair, join]
    omega

/-- The first of the halves is a low surrogate only if it is the whole code point. -/
theorem eq_of_head_halves {p d : CodePoint} (hd : d ∈ p.halves.head?)
    (hl : d.isLowSurrogate = true) : d = p := by
  by_cases h : p.val < 0x10000
  · rw [halves_of_lt h] at hd
    exact (Option.some.inj hd).symm
  · obtain ⟨high, low, he, hhigh, -, -⟩ := exists_halves h
    rw [he] at hd
    obtain rfl := Option.some.inj hd
    have hh := (isHighSurrogate_iff _).mp hhigh
    have hlow := (isLowSurrogate_iff _).mp hl
    omega

theorem halves_ne_nil (p : CodePoint) : p.halves ≠ [] := by
  rw [halves]
  split <;> simp

end CodePoint

namespace Text

open CodePoint

theorem joinPairs_cons {c : CodePoint} {t : Text}
    (h : ∀ d ∈ t.head?, ¬(c.isHighSurrogate = true ∧ d.isLowSurrogate = true)) :
    joinPairs (c :: t) = c :: joinPairs t := by
  cases t with
  | nil => rfl
  | cons d t =>
    have hn : (c.isHighSurrogate && d.isLowSurrogate) = false := by simpa using h d rfl
    rw [joinPairs, hn]
    rfl

/-- A code point that makes no pair with what follows is joined from its halves alone. -/
theorem joinPairs_halves_append {c : CodePoint} {t : Text}
    (h : ∀ d ∈ t.head?, ¬(c.isHighSurrogate = true ∧ d.isLowSurrogate = true)) :
    joinPairs (c.halves ++ t) = c :: joinPairs t := by
  by_cases hc : c.val < 0x10000
  · rw [halves_of_lt hc]
    exact joinPairs_cons h
  · obtain ⟨high, low, he, hhigh, hlow, hjoin⟩ := exists_halves hc
    rw [he, List.cons_append, List.cons_append, List.nil_append, joinPairs, hhigh, hlow, hjoin]
    rfl

/-- Joining the pairs makes no difference between a character and its halves. -/
theorem joinPairs_flatMap_halves (t : Text) : joinPairs (t.flatMap halves) = joinPairs t := by
  fun_induction joinPairs t with
  | case1 => rfl
  | case2 c => exact joinPairs_halves_append (by simp)
  | case3 c d t h ih =>
    obtain ⟨hc, hd⟩ := Bool.and_eq_true_iff.mp h
    have hclt : c.val < 0x10000 := by have := (isHighSurrogate_iff _).mp hc; omega
    have hdlt : d.val < 0x10000 := by have := (isLowSurrogate_iff _).mp hd; omega
    rw [List.flatMap_cons, List.flatMap_cons, halves_of_lt hclt, halves_of_lt hdlt]
    change joinPairs (c :: d :: t.flatMap halves) = _
    rw [joinPairs, h, ih]
    rfl
  | case4 c d t h ih =>
    rw [List.flatMap_cons, ← ih]
    refine joinPairs_halves_append fun e he hp => ?_
    obtain ⟨u, us, hu⟩ := List.exists_cons_of_ne_nil (halves_ne_nil d)
    rw [List.flatMap_cons, hu] at he
    obtain rfl : e = d := eq_of_head_halves (hu ▸ he) hp.2
    simp [hp] at h

end Text

namespace Json

open CodePoint (halves halves_of_lt)

theorem lt_of_shortEscape? {n : Nat} {e : List Char} (h : shortEscape? n = some e) :
    n < 0x80 := by
  unfold shortEscape? at h
  split at h
  case h_8 => cases h
  all_goals decide

/-- A code point of visible ASCII is the character that is written for it. -/
theorem char?_of_visible {p : CodePoint} (h : 0x20 ≤ p.val ∧ p.val ≤ 0x7E) :
    p.char? = some (Char.ofNat p.val) := by
  cases hc : p.char? with
  | none =>
    have hs := (CodePoint.isSurrogate_iff p).mp ((CodePoint.char?_eq_none_iff p).mp hc)
    omega
  | some c =>
    obtain rfl := CodePoint.ofChar_of_char? hc
    exact congrArg some (Char.ofNat_toNat c).symm

/-- The escape of a code point is scanned as its halves. -/
theorem scanString_asciiEscape (p : CodePoint) (start : List Char) (e : Char) (more : List Char) :
    scanString start (asciiEscape p ++ e :: more) =
      p.halves.foldr (fun u r => scanned u <$> r) (scanString start (e :: more)) := by
  unfold asciiEscape
  split
  · next e' h =>
    rw [halves_of_lt (by have := lt_of_shortEscape? h; omega)]
    exact scanString_shortEscape h start _
  · next h =>
    split
    · next hv =>
      have hc := char?_of_visible hv
      obtain ⟨hq, hb⟩ := ne_of_shortEscape?_eq_none h hc
      have hp := CodePoint.ofChar_of_char? hc
      have hle : ' ' ≤ Char.ofNat p.val := by
        have hval : (Char.ofNat p.val).toNat = p.val := congrArg Fin.val hp
        exact Nat.le_trans hv.1 (Nat.le_of_eq hval.symm)
      have hs := scanString_plain hq hb hle start (e :: more)
      rw [hp] at hs
      rw [halves_of_lt (by omega)]
      exact hs
    · split
      · next hlt =>
        rw [halves_of_lt hlt]
        exact scanString_hexEscape hlt start e more
      · next hge =>
        have hp := p.isLt
        have hhigh : (surrogatePair p.val).1 < 0x10000 := by simp only [surrogatePair]; omega
        have hlow : (surrogatePair p.val).2 < 0x10000 := by simp only [surrogatePair]; omega
        have he : p.halves = [⟨(surrogatePair p.val).1, by omega⟩,
          ⟨(surrogatePair p.val).2, by omega⟩] := if_neg hge
        rw [he, List.append_assoc]
        exact (scanString_hexEscape hhigh start '\\' _).trans
          (congrArg _ (scanString_hexEscape hlow start e more))

/-- A text is read back from its quoted form with the pairs of its surrogates joined. -/
theorem readString_asciiQuote (t : Text) (rest : List Char) :
    readString (t.flatMap asciiEscape ++ '"' :: rest) = .ok (t.joinPairs, rest) := by
  rw [readString, scanString_flatMap_of halves scanString_asciiEscape]
  exact congrArg (fun u => Except.ok (u, rest)) (Text.joinPairs_flatMap_halves t)

theorem lineStyle_legible : lineStyle.Legible where
  null := rfl
  yes := rfl
  no := rfl
  quote t := ⟨_, rfl, fun h rest => by
    rw [List.append_assoc, List.cons_append, List.nil_append, readString_asciiQuote,
      Text.joinPairs_of_joined t h]⟩
  comma := ⟨[' '], rfl, List.forall_mem_singleton.mpr rfl⟩
  colon := ⟨[' '], rfl, List.forall_mem_singleton.mpr rfl⟩

/-- A storable value is read back from its line. -/
theorem read_line {v : Json} (h : v.Storable) : Json.read v.line = .ok v :=
  read_render lineStyle_legible h

theorem isWritable_of_storable {v : Json} (h : v.Storable) : v.isWritable = true := by
  induction v using Json.induction with
  | int n => exact decide_eq_true h
  | arr items ih =>
    exact isWritable_arr_iff.mpr fun w hw => ih w hw ((all_arr.mp h).2 w hw)
  | obj fields ih =>
    exact isWritable_obj_iff.mpr fun f hf => ih f hf ((all_obj.mp h).2 f hf)
  | _ => rfl

theorem visible_asciiEscape (p : CodePoint) : ∀ c ∈ asciiEscape p, Visible c := by
  unfold asciiEscape
  split
  · next e h => exact visible_shortEscape h
  · split
    · next hv =>
      have hp := CodePoint.ofChar_of_char? (char?_of_visible hv)
      have hval : (Char.ofNat p.val).toNat = p.val := congrArg Fin.val hp
      rw [List.forall_mem_singleton, Visible, hval]
      exact hv
    · split
      · exact visible_hexEscape _
      · rw [List.forall_mem_append]
        exact ⟨visible_hexEscape _, visible_hexEscape _⟩

theorem lineStyle_within : lineStyle.Within Visible where
  null := visible_of_all (by decide)
  yes := visible_of_all (by decide)
  no := visible_of_all (by decide)
  quote t := by
    simp only [lineStyle, quoteWith, List.forall_mem_cons, List.forall_mem_append,
      List.mem_flatMap]
    refine ⟨by decide, ?_, by decide, by simp⟩
    rintro c ⟨p, _, hc⟩
    exact visible_asciiEscape p c hc
  comma := visible_of_all (by decide)
  colon := visible_of_all (by decide)
  brackets := visible_of_all (by decide)
  integer := visible_integer

/-- A line is visible ASCII, so it has no line break. -/
theorem visible_of_mem_line {v : Json} (h : v.FloatFree) : ∀ c ∈ v.line, Visible c :=
  render_within lineStyle_within h

end Json

end Allowlist
