import Allowlist.Json.Canonical
import Allowlist.Proofs.Json.Nested
import Allowlist.Proofs.Text.Joined

/-!
# Surrogates in canonical JSON

Canonical JSON can be made in two passes. The first writes the value with its surrogates as they
are, so the text is one of code points; the second replaces each surrogate, wherever it stands, by
its escape. The second pass does not know what is a string, and need not: outside of strings there
are no surrogates, and inside it meets no part of another escape.
-/
namespace Allowlist.Json

/-- The escape of one code point where surrogates may stay. -/
def rawEscape (p : CodePoint) : Text :=
  match shortEscape? p.val with
  | some e => .ofChars e
  | none => if p.val < 0x20 then .ofChars (hexEscape p.val) else [p]

def rawQuote (t : Text) : Text := .ofChar '"' :: (t.flatMap rawEscape ++ [.ofChar '"'])

mutual

/-- The value as compact JSON, its surrogates as they are. -/
def raw : Json → Text
  | .null => "null"
  | .bool true => "true"
  | .bool false => "false"
  | .int n => .ofChars (Digits.integer n)
  | .float x => .ofChars (x.render numberLayout)
  | .str t => rawQuote t
  | .arr items => .ofChar '[' :: (rawItems items ++ [.ofChar ']'])
  | .obj fields => .ofChar '\x7b' :: (rawFields fields ++ [.ofChar '\x7d'])

def rawItems : List Json → Text
  | [] => []
  | [v] => raw v
  | v :: w :: rest => raw v ++ .ofChar ',' :: rawItems (w :: rest)

def rawFields : List (Text × Json) → Text
  | [] => []
  | [(k, v)] => rawQuote k ++ .ofChar ':' :: raw v
  | (k, v) :: f :: rest =>
    rawQuote k ++ .ofChar ':' :: (raw v ++ .ofChar ',' :: rawFields (f :: rest))

end

/-- Every surrogate of a text replaced by its escape. -/
def escapeSurrogates (t : Text) : List Char :=
  t.flatMap fun p => match p.char? with
    | some c => [c]
    | none => hexEscape p.val

@[simp] theorem escapeSurrogates_nil : escapeSurrogates [] = [] := rfl

@[simp] theorem escapeSurrogates_append (t u : Text) :
    escapeSurrogates (t ++ u) = escapeSurrogates t ++ escapeSurrogates u := by
  simp [escapeSurrogates]

@[simp] theorem escapeSurrogates_ofChar (c : Char) (t : Text) :
    escapeSurrogates (.ofChar c :: t) = c :: escapeSurrogates t := by
  simp [escapeSurrogates]

@[simp] theorem escapeSurrogates_ofChars (cs : List Char) :
    escapeSurrogates (.ofChars cs) = cs := by
  induction cs with
  | nil => rfl
  | cons c cs ih => rw [Text.ofChars_cons, escapeSurrogates_ofChar, ih]

theorem escapeSurrogates_singleton {p : CodePoint} (h : p.char? = none) :
    escapeSurrogates [p] = hexEscape p.val := by
  simp [escapeSurrogates, h]

theorem escapeSurrogates_rawEscape (p : CodePoint) :
    escapeSurrogates (rawEscape p) = canonicalEscape p := by
  unfold rawEscape canonicalEscape
  cases hs : shortEscape? p.val with
  | some e => simp
  | none =>
    cases hc : p.char? with
    | some c =>
      obtain rfl := CodePoint.ofChar_of_char? hc
      by_cases hlt : c < ' '
      · have hn : (CodePoint.ofChar c).val < 0x20 := hlt
        simp [hn, hlt]
      · have hn : ¬(CodePoint.ofChar c).val < 0x20 := hlt
        simp [hn, hlt]
    | none =>
      have hp := (CodePoint.isSurrogate_iff p).mp ((CodePoint.char?_eq_none_iff p).mp hc)
      have hn : ¬p.val < 0x20 := by omega
      simp only [if_neg hn]
      exact escapeSurrogates_singleton hc

theorem escapeSurrogates_rawQuote (t : Text) :
    escapeSurrogates (rawQuote t) = quoteWith canonicalEscape t := by
  have ht : escapeSurrogates (t.flatMap rawEscape) = t.flatMap canonicalEscape := by
    induction t with
    | nil => rfl
    | cons p t ih =>
      rw [List.flatMap_cons, escapeSurrogates_append, ih, escapeSurrogates_rawEscape,
        List.flatMap_cons]
  simp [rawQuote, quoteWith, ht]

theorem escapeSurrogates_rawItems {items : List Json}
    (h : ∀ v ∈ items, escapeSurrogates v.raw = v.canonical) :
    escapeSurrogates (rawItems items) = renderItems canonicalStyle items := by
  induction items with
  | nil => simp [rawItems, renderItems]
  | cons v rest ih =>
    have hv := h v (by simp)
    have hrest := ih fun w hw => h w (by simp [hw])
    cases rest with
    | nil => rw [rawItems, renderItems, hv, canonical]
    | cons w rest =>
      rw [rawItems, renderItems, escapeSurrogates_append, escapeSurrogates_ofChar, hv, hrest]
      rfl

theorem escapeSurrogates_rawFields {fields : List (Text × Json)}
    (h : ∀ f ∈ fields, escapeSurrogates f.2.raw = f.2.canonical) :
    escapeSurrogates (rawFields fields) = renderFields canonicalStyle fields := by
  induction fields with
  | nil => simp [rawFields, renderFields]
  | cons f rest ih =>
    obtain ⟨k, v⟩ := f
    have hv : escapeSurrogates v.raw = v.canonical := h (k, v) (by simp)
    have hrest := ih fun g hg => h g (by simp [hg])
    cases rest with
    | nil =>
      rw [rawFields, renderFields, escapeSurrogates_append, escapeSurrogates_ofChar,
        escapeSurrogates_rawQuote, hv]
      rfl
    | cons g rest =>
      rw [rawFields, renderFields, escapeSurrogates_append, escapeSurrogates_ofChar,
        escapeSurrogates_append, escapeSurrogates_ofChar, escapeSurrogates_rawQuote, hv, hrest]
      rfl

/-- Replacing the surrogates of the whole text gives canonical JSON. -/
theorem escapeSurrogates_raw (v : Json) : escapeSurrogates v.raw = v.canonical := by
  induction v using Json.induction with
  | null => rfl
  | bool b => cases b <;> rfl
  | int n => rw [raw, escapeSurrogates_ofChars, canonical, render]
  | float x => rw [raw, escapeSurrogates_ofChars, canonical, render]; rfl
  | str t => rw [raw, escapeSurrogates_rawQuote, canonical, render]; rfl
  | arr items ih =>
    rw [raw, escapeSurrogates_ofChar, escapeSurrogates_append, escapeSurrogates_rawItems ih,
      canonical, render, escapeSurrogates_ofChar, escapeSurrogates_nil]
  | obj fields ih =>
    rw [raw, escapeSurrogates_ofChar, escapeSurrogates_append, escapeSurrogates_rawFields ih,
      canonical, render, escapeSurrogates_ofChar, escapeSurrogates_nil]

end Allowlist.Json
