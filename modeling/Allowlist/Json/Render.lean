import Allowlist.Json.Basic
import Allowlist.Number.Shortest

/-!
# Rendering JSON values

A style says how the constants, numbers and strings are spelt and what stands between the parts;
the shape of the text is the same in all of them. Fields keep their order.
-/
namespace Allowlist.Json

structure Style where
  null : List Char
  yes : List Char
  no : List Char
  number : Binary64.Layout
  quote : Text → List Char
  /-- Between two items or two fields. -/
  comma : List Char
  /-- Between a key and its value. -/
  colon : List Char

mutual

def render (s : Style) : Json → List Char
  | .null => s.null
  | .bool true => s.yes
  | .bool false => s.no
  | .int n => Digits.integer n
  | .float x => x.render s.number
  | .str t => s.quote t
  | .arr items => '[' :: (renderItems s items ++ [']'])
  | .obj fields => '\x7b' :: (renderFields s fields ++ ['\x7d'])

def renderItems (s : Style) : List Json → List Char
  | [] => []
  | [v] => render s v
  | v :: w :: rest => render s v ++ (s.comma ++ renderItems s (w :: rest))

def renderFields (s : Style) : List (Text × Json) → List Char
  | [] => []
  | [(k, v)] => s.quote k ++ (s.colon ++ render s v)
  | (k, v) :: q :: rest =>
    s.quote k ++ (s.colon ++ (render s v ++ (s.comma ++ renderFields s (q :: rest))))

end

/-- Floating-point numbers, positional from 10 ^ -4 up to 10 ^ 16. -/
def numberLayout : Binary64.Layout := ⟨-4, 16, "Infinity".toList, "NaN".toList⟩

/-- An escape of four hexadecimal digits. -/
def hexEscape (n : Nat) : List Char := '\\' :: 'u' :: Digits.fixed 16 4 n

/-- The two-character escapes, where one exists. -/
def shortEscape? : Nat → Option (List Char)
  | 0x22 => some ['\\', '"']
  | 0x5C => some ['\\', '\\']
  | 0x08 => some ['\\', 'b']
  | 0x0C => some ['\\', 'f']
  | 0x0A => some ['\\', 'n']
  | 0x0D => some ['\\', 'r']
  | 0x09 => some ['\\', 't']
  | _ => none

/-- A string between double quotes, each code point written by `escape`. -/
def quoteWith (escape : CodePoint → List Char) (t : Text) : List Char :=
  '"' :: (t.flatMap escape ++ ['"'])

end Allowlist.Json
