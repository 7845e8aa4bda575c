import Allowlist.Json.Render

/-!
# One-line JSON

The rendering of log records: a blank after each comma and colon, and nothing but ASCII from the
space to the tilde. All else is escaped, a character beyond U+FFFF as two surrogates.
-/
namespace Allowlist.Json

/-- The surrogates that denote a character beyond U+FFFF. -/
def surrogatePair (n : Nat) : Nat × Nat :=
  (0xD800 + (n - 0x10000) / 0x400, 0xDC00 + (n - 0x10000) % 0x400)

def asciiEscape (c : CodePoint) : List Char :=
  match shortEscape? c.val with
  | some e => e
  | none =>
    if 0x20 ≤ c.val ∧ c.val ≤ 0x7E then [Char.ofNat c.val]
    else if c.val < 0x10000 then hexEscape c.val
    else hexEscape (surrogatePair c.val).1 ++ hexEscape (surrogatePair c.val).2

def lineStyle : Style where
  null := "null".toList
  yes := "true".toList
  no := "false".toList
  number := numberLayout
  quote := quoteWith asciiEscape
  comma := [',', ' ']
  colon := [':', ' ']

def line (v : Json) : List Char := v.render lineStyle

end Allowlist.Json
