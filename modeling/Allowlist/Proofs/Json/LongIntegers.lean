import Allowlist.Proofs.Except
import Allowlist.Proofs.Json.RoundTrip

/-!
# Integers that are too long

Whatever a step of the reader leaves is the end of the text that the step was given. So the integer
that stops a later step stands in the text as a whole, and a text without that many digits in a row
is either read or misread.
-/
namespace Allowlist.Json

open Digits (isDecimal)

/-- The digits of an integer that is too long stand in a text one after the other. -/
def HoldsLong (n : LongInteger) (cs : List Char) : Prop :=
  maxIntegerDigits < n.digits ∧
    ∃ ds, ds <:+: cs ∧ ds.length = n.digits ∧ ∀ d ∈ ds, isDecimal d = true

theorem HoldsLong.of_isSuffix {n : LongInteger} {cs left : List Char} (h : HoldsLong n left)
    (hs : left <:+ cs) : HoldsLong n cs := by
  obtain ⟨hn, ds, hi, hd⟩ := h
  exact ⟨hn, ds, hi.trans hs.isInfix, hd⟩

/-- What a step may make of a text: it leaves an end of it, or is stopped by an integer in it. -/
def Within {α : Type} (cs : List Char) : Except Stop (α × List Char) → Prop
  | .ok (_, left) => left <:+ cs
  | .error (.longInteger n) => HoldsLong n cs
  | .error (.fault _ _) => True

section

variable {α β : Type} {cs left : List Char}

theorem Within.of_isSuffix {r : Except Stop (α × List Char)} (h : Within left r)
    (hs : left <:+ cs) : Within cs r :=
  match r, h with
  | .ok (_, _), h => List.IsSuffix.trans h hs
  | .error (.longInteger _), h => HoldsLong.of_isSuffix h hs
  | .error (.fault _ _), _ => trivial

/-- A step may go on with the text that the step before it left. -/
theorem Within.bind {x : Except Stop (α × List Char)} {f : α × List Char → Except Stop (β × List Char)}
    (h : Within cs x) (hf : ∀ a left, Within left (f (a, left))) : Within cs (x >>= f) :=
  match x, h with
  | .ok (a, left), h => (hf a left).of_isSuffix h
  | .error (.longInteger _), h => h
  | .error (.fault _ _), _ => trivial

theorem Within.map {x : Except Stop (α × List Char)} (h : Within cs x) (g : α → β) :
    Within cs (x >>= fun r => .ok (g r.1, r.2)) :=
  h.bind fun _ left => List.suffix_refl left

end

theorem skipBlanks_isSuffix (cs : List Char) : skipBlanks cs <:+ cs := List.dropWhile_suffix _

theorem isSuffix_of_skipBlanks {c : Char} {cs left : List Char} (h : skipBlanks cs = c :: left) :
    left <:+ cs :=
  (List.suffix_cons c left).trans (h ▸ skipBlanks_isSuffix cs)

/-! ## Strings and numbers -/

theorem within_scanString (start cs : List Char) : Within cs (scanString start cs) := by
  fun_induction scanString start cs with
  | case2 rest => exact List.suffix_cons _ rest
  | case3 a b c d e more p _ ih => exact (ih.map _).of_isSuffix ⟨['\\', 'u', a, b, c, d], rfl⟩
  | case6 e rest _ c _ ih => exact (ih.map _).of_isSuffix ⟨['\\', e], rfl⟩
  | case10 c rest _ _ _ _ _ ih => exact (ih.map _).of_isSuffix (List.suffix_cons c rest)
  | _ => trivial

theorem within_readString (rest : List Char) : Within rest (readString rest) :=
  (within_scanString rest rest).map _

/-- Digits are left where they stand if there are none. -/
theorem snd_digits_isSuffix {α : Type} {cs body : List Char} (h : body <:+ cs) (a : α) :
    (if (digitsOf body).1 = [] then (none, cs) else (some a, (digitsOf body).2)).2 <:+ cs := by
  split
  · exact List.suffix_refl cs
  · exact (List.dropWhile_suffix _).trans h

theorem takeSign_isSuffix (cs : List Char) : (takeSign cs).2 <:+ cs := by
  rw [takeSign.eq_def]
  split
  · exact List.suffix_cons _ _
  · exact List.suffix_refl _

theorem takeFraction_isSuffix (cs : List Char) : (takeFraction cs).2 <:+ cs := by
  rw [takeFraction.eq_def]
  split
  · next rest => exact snd_digits_isSuffix (List.suffix_cons _ rest) _
  · exact List.suffix_refl _

theorem takeExponent_isSuffix (cs : List Char) : (takeExponent cs).2 <:+ cs := by
  rw [takeExponent.eq_def]
  split
  · next e rest =>
    split
    · simp only
      split
      · next body => exact snd_digits_isSuffix ⟨[e, '-'], rfl⟩ _
      · next body => exact snd_digits_isSuffix ⟨[e, '+'], rfl⟩ _
      · exact snd_digits_isSuffix (List.suffix_cons e rest) _
    · exact List.suffix_refl _
  · exact List.suffix_refl _

theorem eq_append_of_takeWhole? {cs ds rest : List Char} (h : takeWhole? cs = some (ds, rest)) :
    cs = ds ++ rest ∧ ∀ d ∈ ds, isDecimal d = true := by
  rw [takeWhole?.eq_def] at h
  split at h
  · obtain ⟨rfl, rfl⟩ := Prod.mk.inj (Option.some.inj h)
    refine ⟨rfl, fun d hd => ?_⟩
    obtain rfl := List.mem_singleton.mp hd
    rfl
  · obtain ⟨-, he⟩ := Option.ite_none_left_eq_some.mp h
    obtain ⟨rfl, rfl⟩ := Prod.mk.inj (Option.some.inj he)
    exact ⟨List.takeWhile_append_dropWhile.symm, fun d hd => List.mem_takeWhile_imp hd⟩

/-- The whole part of a number is taken from the text as it stands there. -/
theorem whole_of_takeNumber? {cs rest : List Char} {p : NumberParts}
    (h : takeNumber? cs = some (p, rest)) :
    rest <:+ cs ∧ p.whole <:+: cs ∧ ∀ d ∈ p.whole, isDecimal d = true := by
  rw [takeNumber?, Option.bind_eq_bind, Option.bind_eq_some_iff] at h
  obtain ⟨⟨whole, afterWhole⟩, hw, he⟩ := h
  obtain ⟨rfl, rfl⟩ := Prod.mk.inj (Option.some.inj he)
  obtain ⟨hb, hd⟩ := eq_append_of_takeWhole? hw
  have hbody : whole ++ afterWhole <:+ cs := hb ▸ takeSign_isSuffix cs
  have hrest : (takeExponent (takeFraction afterWhole).2).2 <:+ afterWhole :=
    (takeExponent_isSuffix _).trans (takeFraction_isSuffix _)
  exact ⟨hrest.trans ((List.suffix_append _ _).trans hbody),
    (List.infix_append' [] whole afterWhole).trans hbody.isInfix, hd⟩

theorem longInteger_of_value {p : NumberParts} {e : Stop} (h : p.value = .error e) :
    maxIntegerDigits < p.whole.length ∧ e = .longInteger ⟨p.whole.length⟩ := by
  rw [NumberParts.value] at h
  split at h
  · split at h
    · next hl => exact ⟨hl, (Except.error.inj h).symm⟩
    · cases h
  · cases h

theorem within_readNumber (cs : List Char) : Within cs (readNumber cs) := by
  rw [readNumber]
  split
  · trivial
  · next p rest hp =>
    obtain ⟨hrest, hwhole, hd⟩ := whole_of_takeNumber? hp
    cases hv : p.value with
    | ok v => exact hrest
    | error e =>
      obtain ⟨hl, rfl⟩ := longInteger_of_value hv
      exact ⟨hl, p.whole, hwhole, rfl, hd⟩

/-! ## Values -/

/-- All that is read with a given amount of fuel. -/
structure ReadsWithin (fuel : Nat) : Prop where
  value : ∀ cs, Within cs (readValue fuel cs)
  items : ∀ cs, Within cs (readItems fuel cs)
  fields : ∀ cs, Within cs (readFields fuel cs)

variable {fuel : Nat}

theorem within_readValue_succ (ih : ReadsWithin fuel) (cs : List Char) :
    Within cs (readValue (fuel + 1) cs) := by
  rw [readValue.eq_def]
  simp only
  split
  case h_1 rest =>
    exact ((within_readString rest).map _).of_isSuffix (List.suffix_cons _ rest)
  case h_2 rest =>
    refine Within.of_isSuffix ?_ (List.suffix_cons _ rest)
    split
    · next left he => exact isSuffix_of_skipBlanks he
    · refine Within.of_isSuffix ?_ (skipBlanks_isSuffix rest)
      exact (ih.fields _).map fun ps => Json.obj (Assoc.ofPairs ps)
  case h_3 rest =>
    refine Within.of_isSuffix ?_ (List.suffix_cons _ rest)
    split
    · next left he => exact isSuffix_of_skipBlanks he
    · refine Within.of_isSuffix ?_ (skipBlanks_isSuffix rest)
      exact (ih.items _).map _
  case h_10 => exact within_readNumber cs
  -- a name is read as it stands
  all_goals simp only [Within, List.suffix_cons_iff, List.suffix_refl, or_true]

theorem within_readItems_succ (ih : ReadsWithin fuel) (cs : List Char) :
    Within cs (readItems (fuel + 1) cs) := by
  rw [readItems.eq_def]
  refine (ih.value cs).bind fun v rest => ?_
  simp only
  split
  · next left he => exact isSuffix_of_skipBlanks he
  · next more he =>
    refine Within.of_isSuffix ?_ ((skipBlanks_isSuffix more).trans (isSuffix_of_skipBlanks he))
    exact (ih.items _).map _
  · trivial

theorem within_readFields_succ (ih : ReadsWithin fuel) (cs : List Char) :
    Within cs (readFields (fuel + 1) cs) := by
  rw [readFields.eq_def]
  simp only
  split
  · next rest =>
    refine Within.of_isSuffix ?_ (List.suffix_cons _ rest)
    refine (within_readString rest).bind fun key afterKey => ?_
    simp only
    split
    · next body he =>
      refine Within.of_isSuffix ?_ ((skipBlanks_isSuffix body).trans (isSuffix_of_skipBlanks he))
      refine (ih.value _).bind fun v afterValue => ?_
      simp only
      split
      · next left he => exact isSuffix_of_skipBlanks he
      · next more he =>
        refine Within.of_isSuffix ?_ ((skipBlanks_isSuffix more).trans (isSuffix_of_skipBlanks he))
        exact (ih.fields _).map _
      · trivial
    · trivial
  · trivial

theorem readsWithin (fuel : Nat) : ReadsWithin fuel := by
  induction fuel with
  | zero =>
    constructor
    · intro cs
      rw [readValue.eq_def]
      trivial
    · intro cs
      rw [readItems.eq_def]
      trivial
    · intro cs
      rw [readFields.eq_def]
      trivial
  | succ fuel ih =>
    exact ⟨within_readValue_succ ih, within_readItems_succ ih, within_readFields_succ ih⟩

/-- Reading is stopped by an integer of the text only. -/
theorem holdsLong_of_read {cs : List Char} {n : LongInteger}
    (h : Json.read cs = .error (.longInteger n)) : HoldsLong n cs := by
  have hall : readAll cs = .error (.longInteger n) := by
    rw [Json.read] at h
    split at h
    · cases h
    · cases h
    · next he => rw [he, ReadError.longInteger.inj (Except.error.inj h)]
  rw [readAll.eq_def] at hall
  split at hall
  · cases hall
  · rcases bind_eq_error.mp hall with hv | ⟨⟨v, rest⟩, _, he⟩
    · have hw := (readsWithin (2 * cs.length + 2)).value (skipBlanks cs)
      rw [hv] at hw
      exact hw.of_isSuffix (skipBlanks_isSuffix cs)
    · simp only at he
      split at he
      · cases he
      · cases he

/-- Digits alone are an integer, which stops the reader if it is too long. -/
theorem read_digits {c : Char} {ds : List Char} (hc : c ≠ '0')
    (hd : ∀ d ∈ c :: ds, isDecimal d = true) (hl : maxIntegerDigits < (c :: ds).length) :
    Json.read (c :: ds) = .error (.longInteger ⟨(c :: ds).length⟩) := by
  have hb : Begins c := begins_of_isDecimal (hd c (by simp))
  have he : Ends [] := by simp [Ends]
  have hw := takeWhole?_digits hc hd he
  rw [List.append_nil] at hw
  have hn : readNumber (c :: ds) = .error (.longInteger ⟨(c :: ds).length⟩) := by
    simp only [readNumber, takeNumber?, takeSign_digit (hd c (by simp)), hw, Option.bind_eq_bind,
      Option.bind_some, takeFraction_of_ends he, takeExponent_of_ends he, NumberParts.value,
      Option.isNone_none, Bool.and_self, ↓reduceIte, if_pos hl]
    rfl
  have hall : readAll (c :: ds) = .error (.longInteger ⟨(c :: ds).length⟩) := by
    rw [readAll.eq_def]
    split
    · next hm => exact absurd (List.cons.inj hm).1 hb.notMark
    · rw [skipBlanks_cons hb.notBlank, readValue_digit _ (hd c (by simp)), hn]
      rfl
  rw [Json.read, hall]

end Allowlist.Json
