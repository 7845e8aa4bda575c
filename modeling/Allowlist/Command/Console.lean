import Allowlist.Text.Basic

/-!
# Standard output

Which characters standard output can write depends on its encoding. Of a text with another one in it
nothing is written.
-/
namespace Allowlist.Command

/-- An encoding of standard output by what it can write, which includes ASCII. -/
structure Console where
  writes : CodePoint → Bool
  ascii : ∀ c : CodePoint, c.val < 0x80 → writes c = true

theorem not_isSurrogate_of_ascii (c : CodePoint) (h : c.val < 0x80) :
    (!c.isSurrogate) = true := by
  simp only [CodePoint.isSurrogate, CodePoint.isHighSurrogate, CodePoint.isLowSurrogate,
    Bool.not_eq_true', Bool.or_eq_false_iff, Bool.and_eq_false_iff, decide_eq_false_iff_not]
  omega

namespace Console

/-- All but surrogates. -/
def unicode : Console := ⟨fun c => !c.isSurrogate, not_isSurrogate_of_ascii⟩

/-- Whether a text is written. -/
def takes (console : Console) (t : Text) : Bool := t.all console.writes

end Console

end Allowlist.Command
