import Allowlist.Text.Printable
import Allowlist.Number.Digits

/-!
# Quoted text

How a message shows a text: between single quotes, or between double quotes if it holds a single
one and no double one. The backslash, the quote in use and whatever is not printable are escaped,
so the result is characters that can be seen.
-/
namespace Allowlist.Text

def singleQuote : CodePoint := .ofChar '\x27'

def doubleQuote : CodePoint := .ofChar '"'

/-- The shortest numeric escape: two, four or eight hexadecimal digits. -/
def numericEscape (n : Nat) : List Char :=
  if n < 0x100 then '\\' :: 'x' :: Digits.fixed 16 2 n
  else if n < 0x10000 then '\\' :: 'u' :: Digits.fixed 16 4 n
  else '\\' :: 'U' :: Digits.fixed 16 8 n

def quotedCodePoint (mark c : CodePoint) : List Char :=
  match c.val with
  | 0x5C => ['\\', '\\']
  | 0x0A => ['\\', 'n']
  | 0x0D => ['\\', 'r']
  | 0x09 => ['\\', 't']
  | n =>
    match c.char? with
    | none => numericEscape n
    | some ch =>
      if c = mark then ['\\', ch]
      else if isPrintable c then [ch]
      else numericEscape n

/-- The text as messages show it. -/
def quoted (t : Text) : List Char :=
  if t.contains singleQuote && !t.contains doubleQuote then
    '"' :: (t.flatMap (quotedCodePoint doubleQuote) ++ ['"'])
  else '\x27' :: (t.flatMap (quotedCodePoint singleQuote) ++ ['\x27'])

def quotedByte (mark : Char) (b : UInt8) : List Char :=
  match b.toNat with
  | 0x5C => ['\\', '\\']
  | 0x0A => ['\\', 'n']
  | 0x0D => ['\\', 'r']
  | 0x09 => ['\\', 't']
  | n =>
    if n < 0x20 ∨ 0x7F ≤ n then numericEscape n
    else if Char.ofNat n = mark then ['\\', mark]
    else [Char.ofNat n]

/-- Bytes as messages show them: like a text of such characters, but with no other than ASCII. -/
def quotedBytes (bs : List UInt8) : List Char :=
  if bs.contains 0x27 && !bs.contains 0x22 then
    'b' :: '"' :: (bs.flatMap (quotedByte '"') ++ ['"'])
  else 'b' :: '\x27' :: (bs.flatMap (quotedByte '\x27') ++ ['\x27'])

/-- The characters of a text, a surrogate as its escape, so that every text can be encoded. -/
def encodable (t : Text) : List Char :=
  t.flatMap fun c => match c.char? with
    | some ch => [ch]
    | none => numericEscape c.val

/-- A list of texts as messages show it. -/
def quotedList (ts : List Text) : List Char :=
  '[' :: ([',', ' '].intercalate (ts.map quoted) ++ [']'])

end Allowlist.Text
