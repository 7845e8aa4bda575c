/-!
# Text

A text is a list of code points, and a code point is any number below 0x110000. Surrogates are
included: an escape in a JSON string may denote one that stands alone, and such a name has to be
compared, sorted and written like any other. Order is by code point, then by length.

`Joined` texts are those in which no high surrogate stands directly before a low one; reading joins
such a pair into the character that it denotes.
-/
namespace Allowlist

abbrev CodePoint := Fin 0x110000

abbrev Text := List CodePoint

namespace CodePoint

theorem toNat_lt (c : Char) : c.toNat < 0x110000 := by
  have h : c.toNat < 0xd800 ∨ 0xdfff < c.toNat ∧ c.toNat < 0x110000 := c.valid
  omega

def ofChar (c : Char) : CodePoint := ⟨c.toNat, toNat_lt c⟩

/-- The character of a code point, if it is not a surrogate. -/
def char? (c : CodePoint) : Option Char :=
  if h : c.val.isValidChar then some (Char.ofNatAux c.val h) else none

def isHighSurrogate (c : CodePoint) : Bool := 0xD800 ≤ c.val && c.val ≤ 0xDBFF

def isLowSurrogate (c : CodePoint) : Bool := 0xDC00 ≤ c.val && c.val ≤ 0xDFFF

def isSurrogate (c : CodePoint) : Bool := c.isHighSurrogate || c.isLowSurrogate

/-- The character that a high and a low surrogate denote together. -/
def join (high low : CodePoint) : CodePoint :=
  ⟨0x10000 + (high.val % 0x400) * 0x400 + low.val % 0x400, by omega⟩

end CodePoint

namespace Text

def ofChars (cs : List Char) : Text := cs.map .ofChar

def ofString (s : String) : Text := ofChars s.toList

instance : Coe String Text := ⟨ofString⟩

instance decidableMem (t : Text) (ts : List Text) : Decidable (t ∈ ts) :=
  List.instDecidableMemOfLawfulBEq t ts

@[simp] theorem ofChars_nil : ofChars [] = [] := rfl

@[simp] theorem ofChars_cons (c : Char) (cs : List Char) :
    ofChars (c :: cs) = .ofChar c :: ofChars cs := rfl

@[simp] theorem ofChars_append (cs ds : List Char) :
    ofChars (cs ++ ds) = ofChars cs ++ ofChars ds := List.map_append

/-- The characters of a text without surrogates. -/
def chars? : Text → Option (List Char)
  | [] => some []
  | c :: t => do return (← c.char?) :: (← chars? t)

def hasSurrogate (t : Text) : Bool := t.any CodePoint.isSurrogate

/-- Joins each high surrogate with the low one directly after it, from left to right. -/
def joinPairs : Text → Text
  | [] => []
  | [c] => [c]
  | c :: d :: t =>
    if c.isHighSurrogate && d.isLowSurrogate then CodePoint.join c d :: joinPairs t
    else c :: joinPairs (d :: t)

/-- No high surrogate stands directly before a low one. -/
def Joined : Text → Prop
  | [] => True
  | [_] => True
  | c :: d :: t => ¬(c.isHighSurrogate = true ∧ d.isLowSurrogate = true) ∧ Joined (d :: t)

instance Joined.decidable : (t : Text) → Decidable (Joined t)
  | [] => isTrue trivial
  | [_] => isTrue trivial
  | c :: d :: t =>
    have := Joined.decidable (d :: t)
    inferInstanceAs (Decidable (¬(c.isHighSurrogate = true ∧ d.isLowSurrogate = true) ∧
      Joined (d :: t)))

theorem joinPairs_of_joined : (t : Text) → Joined t → joinPairs t = t
  | [], _ => rfl
  | [_], _ => rfl
  | c :: d :: t, h => by
    have hn : (c.isHighSurrogate && d.isLowSurrogate) = false := by
      simpa using fun hc => by simpa [hc] using h.1
    simp [joinPairs, hn, joinPairs_of_joined (d :: t) h.2]

/-- The texts one after the other, with `sep` between neighbours. -/
def join (sep : Text) (ts : List Text) : Text := sep.intercalate ts

end Text

end Allowlist
