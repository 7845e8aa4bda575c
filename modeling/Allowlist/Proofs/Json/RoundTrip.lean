import Allowlist.Proofs.Assoc
import Allowlist.Proofs.Json.Escape
import Allowlist.Proofs.Json.Nested
import Allowlist.Proofs.Json.Number
import Allowlist.Proofs.Text.Utf8
import Mathlib.Data.List.TakeWhile

/-!
# Renderings read back

A storable value is read back from its rendering in any legible style, with the order of its fields
and the surrogates in its strings; canonical JSON is such a style. The induction is on the value;
what a part is followed by is left open, so each statement is about a text that goes on behind the
part.
-/
namespace Allowlist.Json

open Digits (isDecimal decimal)

/-- What a storable value may be at its root. -/
def StorableRoot : Json → Prop
  | .int n => (decimal n.natAbs).length ≤ maxIntegerDigits
  | .float _ => False
  | .str t => t.Joined
  | .obj fields => (Assoc.keys fields).Nodup ∧ ∀ k ∈ Assoc.keys fields, k.Joined
  | _ => True

instance StorableRoot.decidable : DecidablePred StorableRoot
  | .null => isTrue trivial
  | .bool _ => isTrue trivial
  | .int n => inferInstanceAs (Decidable ((decimal n.natAbs).length ≤ maxIntegerDigits))
  | .float _ => isFalse id
  | .str t => inferInstanceAs (Decidable t.Joined)
  | .arr _ => isTrue trivial
  | .obj fields => inferInstanceAs (Decidable ((Assoc.keys fields).Nodup ∧ _))

/-- The values that a rendering keeps: no floating-point numbers, integers that can be read,
distinct keys and joined texts, at any depth. -/
abbrev Storable (v : Json) : Prop := v.All StorableRoot

/-- A style that the reader understands: the constants are the ones it knows, nothing but blanks
stands behind a comma or a colon, and a joined text is what its quoted form is read as. -/
structure Style.Legible (s : Style) : Prop where
  null : s.null = "null".toList
  yes : s.yes = "true".toList
  no : s.no = "false".toList
  quote : ∀ t, ∃ body, s.quote t = '"' :: body ∧
    (t.Joined → ∀ rest, readString (body ++ rest) = .ok (t, rest))
  comma : ∃ bs, s.comma = ',' :: bs ∧ ∀ c ∈ bs, isBlank c = true
  colon : ∃ bs, s.colon = ':' :: bs ∧ ∀ c ∈ bs, isBlank c = true

/-! ## One step of the reader -/

theorem skipBlanks_cons {c : Char} (h : isBlank c = false) (cs : List Char) :
    skipBlanks (c :: cs) = c :: cs := by
  rw [skipBlanks, List.dropWhile_cons_of_neg (by simp [h])]

theorem skipBlanks_append {bs : List Char} (h : ∀ c ∈ bs, isBlank c = true) (cs : List Char) :
    skipBlanks (bs ++ cs) = skipBlanks cs := by
  rw [skipBlanks, List.dropWhile_append_of_pos h, skipBlanks]

theorem readValue_quote (fuel : Nat) (rest : List Char) :
    readValue (fuel + 1) ('"' :: rest) =
      (readString rest).bind fun (t, left) => .ok (.str t, left) := by
  rw [readValue.eq_def]
  rfl

theorem readValue_digit (fuel : Nat) {c : Char} (h : isDecimal c = true) (rest : List Char) :
    readValue (fuel + 1) (c :: rest) = readNumber (c :: rest) := by
  rw [readValue.eq_def]
  simp only
  split
  case h_10 => rfl
  all_goals
    next he =>
    cases he
    cases h

theorem readValue_minus (fuel : Nat) {c : Char} (h : isDecimal c = true) (rest : List Char) :
    readValue (fuel + 1) ('-' :: c :: rest) = readNumber ('-' :: c :: rest) := by
  rw [readValue.eq_def]
  simp only
  split
  case h_9 he =>
    cases he
    cases h
  case h_10 => rfl
  all_goals next he => cases he

theorem readValue_items (fuel : Nat) {c : Char} (hb : isBlank c = false) (hc : c ≠ ']')
    (rest : List Char) : readValue (fuel + 1) ('[' :: c :: rest) =
      (readItems fuel (c :: rest)).bind fun (vs, left) => .ok (.arr vs, left) := by
  rw [readValue.eq_def]
  simp only [skipBlanks_cons hb]
  split
  · next he => exact absurd (List.cons.inj he).1 hc
  · rfl

theorem readValue_fields (fuel : Nat) (rest : List Char) :
    readValue (fuel + 1) ('\x7b' :: '"' :: rest) =
      (readFields fuel ('"' :: rest)).bind fun (ps, left) =>
        .ok (.obj (Assoc.ofPairs ps), left) := by
  rw [readValue.eq_def]
  rfl

theorem readItems_last {fuel : Nat} {cs rest : List Char} {v : Json}
    (hv : readValue fuel cs = .ok (v, ']' :: rest)) :
    readItems (fuel + 1) cs = .ok ([v], rest) := by
  rw [readItems.eq_def]
  simp only [hv]
  rfl

theorem readItems_more {fuel : Nat} {cs body next left : List Char} {v : Json} {vs : List Json}
    (hv : readValue fuel cs = .ok (v, ',' :: body)) (hb : skipBlanks body = next)
    (hr : readItems fuel next = .ok (vs, left)) :
    readItems (fuel + 1) cs = .ok (v :: vs, left) := by
  rw [readItems.eq_def]
  simp only [hv]
  change (readItems fuel (skipBlanks body)).bind _ = _
  rw [hb, hr]
  rfl

theorem readFields_last {fuel : Nat} {cs body next rest : List Char} {k : Text} {v : Json}
    (hk : readString cs = .ok (k, ':' :: body)) (hb : skipBlanks body = next)
    (hv : readValue fuel next = .ok (v, '\x7d' :: rest)) :
    readFields (fuel + 1) ('"' :: cs) = .ok ([(k, v)], rest) := by
  rw [readFields.eq_def]
  simp only [hk]
  change (readValue fuel (skipBlanks body)).bind _ = _
  rw [hb, hv]
  rfl

theorem readFields_more {fuel : Nat} {cs body next more following left : List Char} {k : Text}
    {v : Json} {ps : List (Text × Json)} (hk : readString cs = .ok (k, ':' :: body))
    (hb : skipBlanks body = next) (hv : readValue fuel next = .ok (v, ',' :: more))
    (hm : skipBlanks more = following) (hr : readFields fuel following = .ok (ps, left)) :
    readFields (fuel + 1) ('"' :: cs) = .ok ((k, v) :: ps, left) := by
  rw [readFields.eq_def]
  simp only [hk]
  change (readValue fuel (skipBlanks body)).bind _ = _
  rw [hb, hv]
  change (readFields fuel (skipBlanks more)).bind _ = _
  rw [hm, hr]
  rfl

/-! ## The first character of a value -/

/-- A value begins with no blank, no closing bracket and no byte order mark. -/
structure Begins (c : Char) : Prop where
  notBlank : isBlank c = false
  notBracket : c ≠ ']'
  notMark : c ≠ '\ufeff'

theorem begins_of_isDecimal {c : Char} (h : isDecimal c = true) : Begins c := by
  constructor
  · simp only [isBlank, Bool.or_eq_false_iff, decide_eq_false_iff_not]
    refine ⟨⟨⟨?_, ?_⟩, ?_⟩, ?_⟩ <;> (rintro rfl; cases h)
  · rintro rfl
    cases h
  · rintro rfl
    cases h

theorem decimal_head (n : Nat) : ∃ d ds, decimal n = d :: ds ∧ isDecimal d = true := by
  obtain ⟨d, ds, he⟩ := List.exists_cons_of_ne_nil (Digits.decimal_ne_nil n)
  exact ⟨d, ds, he, Digits.isDecimal_of_mem_decimal (n := n) (by simp [he])⟩

/-! ## Values -/

/-- A value is read back wherever a value may end, with fuel of twice its length. -/
def ReadsBack (s : Style) (v : Json) : Prop :=
  ∀ fuel rest, 2 * (v.render s).length ≤ fuel → Ends rest →
    readValue fuel (v.render s ++ rest) = .ok (v, rest)

theorem readsBack_int (s : Style) {n : Int} (h : (decimal n.natAbs).length ≤ maxIntegerDigits) :
    ReadsBack s (.int n) := by
  intro fuel rest hf hr
  have hn := readNumber_integer h hr
  rw [render] at hf ⊢
  cases n with
  | ofNat n =>
    obtain ⟨d, ds, he, hd⟩ := decimal_head n
    change 2 * (decimal n).length ≤ fuel at hf
    change readNumber (decimal n ++ rest) = _ at hn
    change readValue fuel (decimal n ++ rest) = _
    rw [he] at hf hn ⊢
    obtain ⟨fuel, rfl⟩ := Nat.exists_eq_succ_of_ne_zero (n := fuel) (by simp at hf; omega)
    rw [List.cons_append, readValue_digit fuel hd]
    exact hn
  | negSucc n =>
    obtain ⟨d, ds, he, hd⟩ := decimal_head (n + 1)
    change 2 * ('-' :: decimal (n + 1)).length ≤ fuel at hf
    change readNumber ('-' :: decimal (n + 1) ++ rest) = _ at hn
    change readValue fuel ('-' :: decimal (n + 1) ++ rest) = _
    rw [he] at hf hn ⊢
    obtain ⟨fuel, rfl⟩ := Nat.exists_eq_succ_of_ne_zero (n := fuel) (by simp at hf; omega)
    rw [List.cons_append, List.cons_append, readValue_minus fuel hd]
    exact hn

section Legible

variable {s : Style} (hs : s.Legible)
include hs

theorem render_head {v : Json} (h : v.Storable) : ∃ c cs, v.render s = c :: cs ∧ Begins c := by
  cases v with
  | null => exact ⟨_, _, by rw [render, hs.null]; rfl, by constructor <;> decide⟩
  | bool b =>
    cases b
    · exact ⟨_, _, by rw [render, hs.no]; rfl, by constructor <;> decide⟩
    · exact ⟨_, _, by rw [render, hs.yes]; rfl, by constructor <;> decide⟩
  | int n =>
    rw [render]
    cases n with
    | ofNat n =>
      obtain ⟨d, ds, he, hd⟩ := decimal_head n
      exact ⟨d, ds, he, begins_of_isDecimal hd⟩
    | negSucc n => exact ⟨_, _, rfl, by constructor <;> decide⟩
  | float x => exact False.elim h
  | str t =>
    obtain ⟨body, he, -⟩ := hs.quote t
    exact ⟨_, _, by rw [render, he], by constructor <;> decide⟩
  | arr items => exact ⟨_, _, by rw [render], by constructor <;> decide⟩
  | obj fields => exact ⟨_, _, by rw [render], by constructor <;> decide⟩

theorem readsBack_null : ReadsBack s .null := by
  intro fuel rest hf _
  rw [render, hs.null] at hf ⊢
  obtain ⟨fuel, rfl⟩ := Nat.exists_eq_succ_of_ne_zero (n := fuel) (by rintro rfl; cases hf)
  rw [readValue.eq_def]
  rfl

theorem readsBack_bool (b : Bool) : ReadsBack s (.bool b) := by
  intro fuel rest hf _
  cases b with
  | false =>
    rw [render, hs.no] at hf ⊢
    obtain ⟨fuel, rfl⟩ := Nat.exists_eq_succ_of_ne_zero (n := fuel) (by rintro rfl; cases hf)
    rw [readValue.eq_def]
    rfl
  | true =>
    rw [render, hs.yes] at hf ⊢
    obtain ⟨fuel, rfl⟩ := Nat.exists_eq_succ_of_ne_zero (n := fuel) (by rintro rfl; cases hf)
    rw [readValue.eq_def]
    rfl

theorem readsBack_str {t : Text} (h : t.Joined) : ReadsBack s (.str t) := by
  intro fuel rest hf _
  obtain ⟨body, he, hread⟩ := hs.quote t
  rw [render, he] at hf ⊢
  obtain ⟨fuel, rfl⟩ := Nat.exists_eq_succ_of_ne_zero (n := fuel) (by simp at hf; omega)
  rw [List.cons_append, readValue_quote, hread h]
  rfl

/-! ## Items and fields -/

theorem renderItems_head {v : Json} (h : v.Storable) (more : List Json) :
    ∃ c cs, renderItems s (v :: more) = c :: cs ∧ Begins c := by
  obtain ⟨c, cs, he, hc⟩ := render_head hs h
  cases more with
  | nil => exact ⟨c, cs, by rw [renderItems, he], hc⟩
  | cons w more => exact ⟨c, _, by rw [renderItems, he, List.cons_append], hc⟩

theorem skipBlanks_renderItems {v : Json} (h : v.Storable) (more : List Json) (rest : List Char) :
    skipBlanks (renderItems s (v :: more) ++ rest) = renderItems s (v :: more) ++ rest := by
  obtain ⟨c, cs, he, hc⟩ := renderItems_head hs h more
  rw [he, List.cons_append, skipBlanks_cons hc.notBlank]

/-- The items of an array are read up to and with the closing bracket. -/
theorem readItems_renderItems {v : Json} {more : List Json}
    (hv : ∀ w ∈ v :: more, w.Storable) (hb : ∀ w ∈ v :: more, ReadsBack s w) (fuel : Nat)
    (rest : List Char) (hf : 2 * (renderItems s (v :: more)).length + 1 ≤ fuel) :
    readItems fuel (renderItems s (v :: more) ++ ']' :: rest) = .ok (v :: more, rest) := by
  obtain ⟨fuel, rfl⟩ := Nat.exists_eq_succ_of_ne_zero (n := fuel) (by omega)
  induction more generalizing v fuel with
  | nil =>
    rw [renderItems] at hf ⊢
    exact readItems_last (hb v (by simp) fuel _ (by omega) (ends_bracket rest))
  | cons w more ih =>
    obtain ⟨bs, hcomma, hblank⟩ := hs.comma
    rw [renderItems, hcomma] at hf ⊢
    simp only [List.cons_append, List.length_append, List.length_cons] at hf
    obtain ⟨fuel, rfl⟩ := Nat.exists_eq_succ_of_ne_zero (n := fuel) (by omega)
    rw [List.append_assoc, List.cons_append, List.cons_append, List.append_assoc]
    refine readItems_more (hb v (by simp) _ _ (by omega) (ends_comma _))
      ((skipBlanks_append hblank _).trans
        (skipBlanks_renderItems hs (hv w (by simp)) more _)) ?_
    exact ih (fun u hu => hv u (by simp [hu])) (fun u hu => hb u (by simp [hu])) fuel (by omega)

theorem renderFields_head (f : Text × Json) (more : List (Text × Json)) :
    ∃ cs, renderFields s (f :: more) = '"' :: cs := by
  obtain ⟨body, he, -⟩ := hs.quote f.1
  cases more with
  | nil => exact ⟨_, by rw [renderFields, he, List.cons_append]⟩
  | cons g more => exact ⟨_, by rw [renderFields, he, List.cons_append]⟩

theorem skipBlanks_render {v : Json} (h : v.Storable) (rest : List Char) :
    skipBlanks (v.render s ++ rest) = v.render s ++ rest := by
  obtain ⟨c, cs, he, hc⟩ := render_head hs h
  rw [he, List.cons_append, skipBlanks_cons hc.notBlank]

/-- The fields of an object are read up to and with the closing brace. -/
theorem readFields_renderFields {f : Text × Json} {more : List (Text × Json)}
    (hk : ∀ g ∈ f :: more, g.1.Joined) (hv : ∀ g ∈ f :: more, g.2.Storable)
    (hb : ∀ g ∈ f :: more, ReadsBack s g.2) (fuel : Nat) (rest : List Char)
    (hf : 2 * (renderFields s (f :: more)).length + 1 ≤ fuel) :
    readFields fuel (renderFields s (f :: more) ++ '\x7d' :: rest) = .ok (f :: more, rest) := by
  obtain ⟨fuel, rfl⟩ := Nat.exists_eq_succ_of_ne_zero (n := fuel) (by omega)
  obtain ⟨cs, hcolon, hcolonBlank⟩ := hs.colon
  induction more generalizing f fuel with
  | nil =>
    obtain ⟨body, he, hread⟩ := hs.quote f.1
    rw [renderFields, he, hcolon] at hf ⊢
    simp only [List.cons_append, List.length_append, List.length_cons] at hf
    simp only [List.cons_append, List.append_assoc]
    exact readFields_last (hread (hk f (by simp)) _)
      ((skipBlanks_append hcolonBlank _).trans (skipBlanks_render hs (hv f (by simp)) _))
      (hb f (by simp) fuel _ (by omega) (ends_brace rest))
  | cons g more ih =>
    obtain ⟨body, he, hread⟩ := hs.quote f.1
    obtain ⟨bs, hcomma, hblank⟩ := hs.comma
    obtain ⟨ds, hg⟩ := renderFields_head hs g more
    rw [renderFields, he, hcolon, hcomma] at hf ⊢
    simp only [List.cons_append, List.length_append, List.length_cons] at hf
    obtain ⟨fuel, rfl⟩ := Nat.exists_eq_succ_of_ne_zero (n := fuel) (by omega)
    simp only [List.cons_append, List.append_assoc]
    have hnext : skipBlanks (bs ++ (renderFields s (g :: more) ++ '\x7d' :: rest)) =
        renderFields s (g :: more) ++ '\x7d' :: rest := by
      rw [skipBlanks_append hblank, hg, List.cons_append]
      exact skipBlanks_cons (by decide) _
    refine readFields_more (hread (hk f (by simp)) _)
      ((skipBlanks_append hcolonBlank _).trans (skipBlanks_render hs (hv f (by simp)) _))
      (hb f (by simp) _ _ (by omega) (ends_comma _)) hnext ?_
    exact ih (fun u hu => hk u (by simp [hu])) (fun u hu => hv u (by simp [hu]))
      (fun u hu => hb u (by simp [hu])) fuel (by omega)

theorem readsBack_arr {items : List Json} (hv : ∀ v ∈ items, v.Storable)
    (hb : ∀ v ∈ items, ReadsBack s v) : ReadsBack s (.arr items) := by
  intro fuel rest hf _
  rw [render] at hf ⊢
  simp only [List.length_append, List.length_cons, List.length_nil] at hf
  obtain ⟨fuel, rfl⟩ := Nat.exists_eq_succ_of_ne_zero (n := fuel) (by omega)
  cases items with
  | nil =>
    rw [readValue.eq_def]
    rfl
  | cons v more =>
    obtain ⟨c, cs, hc, hbegin⟩ := renderItems_head hs (hv v (by simp)) more
    have hr := readItems_renderItems hs hv hb fuel rest (by omega)
    rw [List.cons_append, List.append_assoc, List.cons_append, List.nil_append]
    rw [hc, List.cons_append] at hr ⊢
    rw [readValue_items fuel hbegin.notBlank hbegin.notBracket, hr]
    rfl

theorem readsBack_obj {fields : List (Text × Json)} (hr : StorableRoot (.obj fields))
    (hv : ∀ f ∈ fields, f.2.Storable) (hb : ∀ f ∈ fields, ReadsBack s f.2) :
    ReadsBack s (.obj fields) := by
  intro fuel rest hf _
  rw [render] at hf ⊢
  simp only [List.length_append, List.length_cons, List.length_nil] at hf
  obtain ⟨fuel, rfl⟩ := Nat.exists_eq_succ_of_ne_zero (n := fuel) (by omega)
  cases fields with
  | nil =>
    rw [readValue.eq_def]
    rfl
  | cons f more =>
    obtain ⟨cs, hc⟩ := renderFields_head hs f more
    have hk : ∀ g ∈ f :: more, g.1.Joined := fun g hg => hr.2 g.1 (Assoc.mem_keys_of_mem hg)
    have hread := readFields_renderFields hs hk hv hb fuel rest (by omega)
    rw [List.cons_append, List.append_assoc, List.cons_append, List.nil_append]
    rw [hc, List.cons_append] at hread ⊢
    rw [readValue_fields, hread]
    exact congrArg (fun ps => Except.ok (Json.obj ps, rest)) (Assoc.ofPairs_of_nodup hr.1)

/-- Every storable value is read back. -/
theorem readsBack_of_storable (v : Json) (h : v.Storable) : ReadsBack s v := by
  induction v using Json.induction with
  | null => exact readsBack_null hs
  | bool b => exact readsBack_bool hs b
  | int n => exact readsBack_int s h
  | float x => exact False.elim h
  | str t => exact readsBack_str hs h
  | arr items ih =>
    have hv := (all_arr.mp h).2
    exact readsBack_arr hs hv fun v hm => ih v hm (hv v hm)
  | obj fields ih =>
    obtain ⟨hr, hv⟩ := all_obj.mp h
    exact readsBack_obj hs hr hv fun f hm => ih f hm (hv f hm)

/-- The text of a storable value is read as that value, and so it is with blanks behind it. -/
theorem read_render_append {v : Json} (h : v.Storable) {bs : List Char}
    (hb : ∀ c ∈ bs, isBlank c = true) : Json.read (v.render s ++ bs) = .ok v := by
  have hv := readsBack_of_storable hs v h (2 * (v.render s ++ bs).length + 2) bs
    (by rw [List.length_append]; omega) (ends_of_blanks hb)
  have hend : skipBlanks bs = [] := List.dropWhile_eq_nil_iff.mpr hb
  obtain ⟨c, cs, he, hc⟩ := render_head hs h
  have hall : readAll (v.render s ++ bs) = .ok v := by
    rw [readAll.eq_def]
    split
    · next hm =>
      rw [he, List.cons_append] at hm
      exact absurd (List.cons.inj hm).1 hc.notMark
    · rw [skipBlanks_render hs h, hv]
      simp only [bind, Except.bind, hend]
  rw [Json.read, hall]

theorem read_render {v : Json} (h : v.Storable) : Json.read (v.render s) = .ok v := by
  have hn : ∀ c ∈ ([] : List Char), isBlank c = true := by simp
  have hr := read_render_append hs h hn
  rwa [List.append_nil] at hr

end Legible

/-! ## Canonical JSON -/

theorem canonicalStyle_legible : canonicalStyle.Legible where
  null := rfl
  yes := rfl
  no := rfl
  quote t := ⟨_, rfl, fun h rest => by
    rw [List.append_assoc, List.cons_append, List.nil_append, readString_quote h]⟩
  comma := ⟨[], rfl, by simp⟩
  colon := ⟨[], rfl, by simp⟩

theorem read_canonical_append {v : Json} (h : v.Storable) {bs : List Char}
    (hb : ∀ c ∈ bs, isBlank c = true) : Json.read (v.canonical ++ bs) = .ok v :=
  read_render_append canonicalStyle_legible h hb

theorem read_canonical {v : Json} (h : v.Storable) : Json.read v.canonical = .ok v :=
  read_render canonicalStyle_legible h

end Allowlist.Json
