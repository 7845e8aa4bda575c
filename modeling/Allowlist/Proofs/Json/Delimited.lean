import Allowlist.Proofs.Json.RoundTrip

/-!
# Values that show where they end

The canonical form of a value without numbers is self-delimiting: nothing that follows it can be
mistaken for a part of it. A string ends at the first quote that is not escaped, an array or an
object at the bracket that no part begins with. So the form determines the value. Nothing is read
back for this, so two surrogates that reading would join are still told apart from the character
that they denote.
-/
namespace Allowlist.Json

def NumberFreeRoot : Json → Prop
  | .int _ => False
  | .float _ => False
  | _ => True

/-- There is no number at any depth. -/
abbrev NumberFree (v : Json) : Prop := v.All NumberFreeRoot

section

variable {α : Type} {P : α → Prop} {f : α → List Char}

/-- What follows the form of `a` does not belong to it, whatever value of a class it may be taken
for. -/
def Delimited (P : α → Prop) (f : α → List Char) (a : α) : Prop :=
  ∀ {b : α} {r s : List Char}, P b → f a ++ r = f b ++ s → a = b ∧ r = s

/-- Parts with a comma between neighbours, up to and with the closing bracket. -/
def parts (f : α → List Char) (close : Char) : List α → List Char
  | [] => [close]
  | a :: rest => f a ++ (rest.flatMap (fun b => ',' :: f b) ++ [close])

theorem eq_of_flatMap_comma {close : Char} (hcomma : close ≠ ',') {as bs : List α}
    (has : ∀ a ∈ as, Delimited P f a) (hbs : ∀ b ∈ bs, P b) {r s : List Char}
    (h : as.flatMap (fun a => ',' :: f a) ++ close :: r =
      bs.flatMap (fun b => ',' :: f b) ++ close :: s) : as = bs ∧ r = s := by
  induction as generalizing bs with
  | nil =>
    cases bs with
    | nil => exact ⟨rfl, (List.cons.inj h).2⟩
    | cons b bs => exact absurd (List.cons.inj h).1 hcomma
  | cons a as ih =>
    cases bs with
    | nil => exact absurd (List.cons.inj h).1.symm hcomma
    | cons b bs =>
      simp only [List.flatMap_cons, List.cons_append, List.append_assoc, List.cons.injEq,
        true_and] at h
      obtain ⟨rfl, hrest⟩ := has a (by simp) (hbs b (by simp)) h
      obtain ⟨rfl, hr⟩ :=
        ih (fun c hc => has c (by simp [hc])) (fun c hc => hbs c (by simp [hc])) hrest
      exact ⟨rfl, hr⟩

/-- Delimited parts make a delimited list if none begins with the closing bracket. -/
theorem eq_of_parts {close : Char} (hcomma : close ≠ ',')
    (hopen : ∀ a, P a → ∃ c cs, f a = c :: cs ∧ c ≠ close) {as bs : List α}
    (has : ∀ a ∈ as, P a ∧ Delimited P f a) (hbs : ∀ b ∈ bs, P b) {r s : List Char}
    (h : parts f close as ++ r = parts f close bs ++ s) : as = bs ∧ r = s := by
  have hclose {a : α} (ha : P a) {t u : List Char} : f a ++ t ≠ close :: u := by
    obtain ⟨c, cs, hc, hne⟩ := hopen a ha
    rw [hc]
    exact fun he => hne (List.cons.inj he).1
  cases as with
  | nil =>
    cases bs with
    | nil => exact ⟨rfl, (List.cons.inj h).2⟩
    | cons b bs =>
      simp only [parts, List.append_assoc] at h
      exact absurd h.symm (hclose (hbs b (by simp)))
  | cons a as =>
    cases bs with
    | nil =>
      simp only [parts, List.append_assoc] at h
      exact absurd h (hclose (has a (by simp)).1)
    | cons b bs =>
      simp only [parts, List.append_assoc] at h
      obtain ⟨rfl, hrest⟩ := (has a (by simp)).2 (hbs b (by simp)) h
      obtain ⟨rfl, hr⟩ := eq_of_flatMap_comma hcomma (fun c hc => (has c (by simp [hc])).2)
        (fun c hc => hbs c (by simp [hc])) hrest
      exact ⟨rfl, hr⟩

end

/-! ## The parts of a canonical form -/

theorem renderItems_cons (v w : Json) (more : List Json) :
    renderItems canonicalStyle (v :: w :: more) =
      v.canonical ++ ',' :: renderItems canonicalStyle (w :: more) := by
  rw [renderItems]
  rfl

/-- A field as it is written. -/
def fieldText (k : Text) (v : Json) : List Char :=
  '"' :: (k.flatMap canonicalEscape ++ '"' :: ':' :: v.canonical)

theorem renderFields_single (k : Text) (v : Json) :
    renderFields canonicalStyle [(k, v)] = fieldText k v := by
  rw [renderFields]
  simp [fieldText, canonicalStyle, quoteWith, canonical]

theorem renderFields_cons (k : Text) (v : Json) (f : Text × Json) (more : List (Text × Json)) :
    renderFields canonicalStyle ((k, v) :: f :: more) =
      fieldText k v ++ ',' :: renderFields canonicalStyle (f :: more) := by
  rw [renderFields]
  simp [fieldText, canonicalStyle, quoteWith, canonical]

theorem canonical_arr (items : List Json) :
    (Json.arr items).canonical = '[' :: parts canonical ']' items := by
  have hitems (v : Json) (rest : List Json) : renderItems canonicalStyle (v :: rest) =
      v.canonical ++ rest.flatMap fun w => ',' :: w.canonical := by
    induction rest generalizing v with
    | nil => simp [renderItems, canonical]
    | cons w rest ih => rw [renderItems_cons, ih, List.flatMap_cons, List.cons_append]
  rw [canonical, render]
  cases items with
  | nil => rfl
  | cons v rest => rw [hitems, parts, List.append_assoc]

theorem canonical_obj (fields : List (Text × Json)) :
    (Json.obj fields).canonical = '\x7b' :: parts (fun f => fieldText f.1 f.2) '\x7d' fields := by
  have hfields (f : Text × Json) (rest : List (Text × Json)) :
      renderFields canonicalStyle (f :: rest) =
        fieldText f.1 f.2 ++ rest.flatMap fun g => ',' :: fieldText g.1 g.2 := by
    induction rest generalizing f with
    | nil => exact (renderFields_single f.1 f.2).trans (List.append_nil _).symm
    | cons g rest ih => rw [renderFields_cons, ih, List.flatMap_cons, List.cons_append]
  rw [canonical, render]
  cases fields with
  | nil => rfl
  | cons f rest => rw [hfields, parts, List.append_assoc]

theorem eq_of_quote {t u : Text} {r s : List Char}
    (h : quoteWith canonicalEscape t ++ r = quoteWith canonicalEscape u ++ s) :
    t = u ∧ r = s := by
  simp only [quoteWith, List.cons_append, List.append_assoc, List.nil_append, List.cons.injEq,
    true_and] at h
  -- a scan of both sides gives the string and what is left behind its closing quote
  have hs := congrArg (scanString []) h
  rw [scanString_flatMap, scanString_flatMap] at hs
  exact Prod.mk.inj (Except.ok.inj hs)

theorem fieldText_eq (k : Text) (v : Json) :
    fieldText k v = quoteWith canonicalEscape k ++ ':' :: v.canonical := by
  simp [fieldText, quoteWith]

/-- A value without numbers begins with a character of its kind. -/
def opening : Json → Char
  | .null => 'n'
  | .bool true => 't'
  | .bool false => 'f'
  | .str _ => '"'
  | .arr _ => '['
  | .obj _ => '\x7b'
  | _ => '0'

theorem opening_ne_bracket (v : Json) : opening v ≠ ']' := by
  cases v with
  | bool b => cases b <;> simp [opening]
  | _ => simp [opening]

theorem canonical_opening {v : Json} (h : v.NumberFree) : ∃ cs, v.canonical = opening v :: cs := by
  cases v with
  | bool b => cases b <;> exact ⟨_, rfl⟩
  | int n => exact False.elim h
  | float x => exact False.elim h
  | _ => exact ⟨_, rfl⟩

/-! ## Values -/

section

variable {r s : List Char}

theorem eq_of_arr {items others : List Json}
    (hi : ∀ v ∈ items, v.NumberFree ∧ Delimited NumberFree canonical v)
    (ho : ∀ v ∈ others, v.NumberFree)
    (h : (Json.arr items).canonical ++ r = (Json.arr others).canonical ++ s) :
    items = others ∧ r = s := by
  rw [canonical_arr, canonical_arr] at h
  refine eq_of_parts (by decide) ?_ hi ho (List.cons.inj h).2
  intro v hv
  obtain ⟨cs, hcs⟩ := canonical_opening hv
  exact ⟨opening v, cs, hcs, opening_ne_bracket v⟩

theorem eq_of_obj {fields others : List (Text × Json)}
    (hf : ∀ f ∈ fields, f.2.NumberFree ∧ Delimited NumberFree canonical f.2)
    (ho : ∀ f ∈ others, f.2.NumberFree)
    (h : (Json.obj fields).canonical ++ r = (Json.obj others).canonical ++ s) :
    fields = others ∧ r = s := by
  rw [canonical_obj, canonical_obj] at h
  refine eq_of_parts (P := fun f => f.2.NumberFree) (by decide) ?_ ?_ ho (List.cons.inj h).2
  · intro f _
    exact ⟨_, _, rfl, by decide⟩
  · rintro ⟨k, v⟩ hm
    obtain ⟨hv, hd⟩ := hf (k, v) hm
    refine ⟨hv, ?_⟩
    rintro ⟨l, w⟩ t u hw he
    simp only [fieldText_eq, List.append_assoc] at he
    obtain ⟨rfl, hrest⟩ := eq_of_quote he
    obtain ⟨rfl, hr⟩ := hd hw (List.cons.inj hrest).2
    exact ⟨rfl, hr⟩

theorem opening_eq {v w : Json} (hv : v.NumberFree) (hw : w.NumberFree)
    (h : v.canonical ++ r = w.canonical ++ s) : opening v = opening w := by
  obtain ⟨cs, hcs⟩ := canonical_opening hv
  obtain ⟨ds, hds⟩ := canonical_opening hw
  rw [hcs, hds] at h
  exact (List.cons.inj h).1

/-- The canonical form of a value without numbers shows where it ends. -/
theorem delimited_canonical (v : Json) (h : v.NumberFree) : Delimited NumberFree canonical v := by
  induction v using Json.induction with
  | int n => exact False.elim h
  | float x => exact False.elim h
  | null =>
    intro w r s hw he
    have hopening := opening_eq h hw he
    cases w with
    | null => exact ⟨rfl, List.append_cancel_left he⟩
    | bool c => cases c <;> simp [opening] at hopening
    | _ => simp [opening] at hopening
  | bool b =>
    intro w r s hw he
    have hopening := opening_eq h hw he
    cases w with
    | bool c =>
      obtain rfl : b = c := by cases b <;> cases c <;> simp_all [opening]
      exact ⟨rfl, List.append_cancel_left he⟩
    | _ => cases b <;> simp [opening] at hopening
  | str t =>
    intro w r s hw he
    have hopening := opening_eq h hw he
    cases w with
    | str u =>
      obtain ⟨rfl, hr⟩ := eq_of_quote he
      exact ⟨rfl, hr⟩
    | bool c => cases c <;> simp [opening] at hopening
    | _ => simp [opening] at hopening
  | arr items ih =>
    intro w r s hw he
    have hopening := opening_eq h hw he
    cases w with
    | arr others =>
      have hitems := (all_arr.mp h).2
      obtain ⟨rfl, hr⟩ :=
        eq_of_arr (fun v hv => ⟨hitems v hv, ih v hv (hitems v hv)⟩) (all_arr.mp hw).2 he
      exact ⟨rfl, hr⟩
    | bool c => cases c <;> simp [opening] at hopening
    | _ => simp [opening] at hopening
  | obj fields ih =>
    intro w r s hw he
    have hopening := opening_eq h hw he
    cases w with
    | obj others =>
      have hfields := (all_obj.mp h).2
      obtain ⟨rfl, hr⟩ :=
        eq_of_obj (fun f hf => ⟨hfields f hf, ih f hf (hfields f hf)⟩) (all_obj.mp hw).2 he
      exact ⟨rfl, hr⟩
    | bool c => cases c <;> simp [opening] at hopening
    | _ => simp [opening] at hopening

/-- Values without numbers that have one canonical form are one value, whatever their strings. -/
theorem eq_of_canonical {v w : Json} (hv : v.NumberFree) (hw : w.NumberFree)
    (h : v.canonical = w.canonical) : v = w :=
  (delimited_canonical v hv hw (congrArg (· ++ []) h)).1

end

end Allowlist.Json
