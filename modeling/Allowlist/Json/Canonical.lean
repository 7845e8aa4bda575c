import Allowlist.Json.Render

/-!
# Canonical JSON

The compact rendering in which policies are stored: no white space, and every character as itself
except the quote, the backslash and the control characters. A surrogate that stands alone has no
UTF-8 form, so it is written as its escape. The result is made of characters only, none of them
below U+0020.
-/
namespace Allowlist.Json

def canonicalEscape (c : CodePoint) : List Char :=
  match shortEscape? c.val, c.char? with
  | some e, _ => e
  | none, some ch => if ch < ' ' then hexEscape c.val else [ch]
  | none, none => hexEscape c.val

def canonicalStyle : Style where
  null := "null".toList
  yes := "true".toList
  no := "false".toList
  number := numberLayout
  quote := quoteWith canonicalEscape
  comma := [',']
  colon := [':']

def canonical (v : Json) : List Char := v.render canonicalStyle

end Allowlist.Json
