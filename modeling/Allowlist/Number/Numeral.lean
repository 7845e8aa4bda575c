import Allowlist.Json.Fault
import Allowlist.Number.Binary64
import Allowlist.Text.Decimal

/-!
# Numbers in text

How a text as a whole denotes an integer in some base, or a fraction. Blanks around the number do not
matter, and the decimal digits of all scripts are as good as those of ASCII.
-/
namespace Allowlist.Numeral

/-- First and last code point of each run of white space outside of ASCII, in ascending order. -/
def spaces : List (Nat × Nat) := [
  (0x85, 0x85), (0xA0, 0xA0), (0x1680, 0x1680), (0x2000, 0x200A), (0x2028, 0x2029), (0x202F, 0x202F),
  (0x205F, 0x205F), (0x3000, 0x3000)]

/-- The character of ASCII that a code point counts as, which no number has if there is none. -/
def simplify (c : CodePoint) : Char :=
  if c.val < 0x7F then c.char?.getD '?'
  else if Text.inRuns c.val spaces then ' '
  else
    match Text.decimalDigits.find? (fun (first, last) => first ≤ c.val && c.val ≤ last) with
    | some (first, _) => Digits.digit ((c.val - first) % 10)
    | none => '?'

def isBlank (c : Char) : Bool := c = ' ' || ('\t' ≤ c && c ≤ '\r')

/-- The characters of a text without the blanks around them. -/
def trimmed (t : Text) : List Char :=
  (((t.map simplify).dropWhile isBlank).reverse.dropWhile isBlank).reverse

def takeSign : List Char → Bool × List Char
  | '-' :: cs => (true, cs)
  | '+' :: cs => (false, cs)
  | cs => (false, cs)

/-- The letters that mark a base behind a zero. -/
def marks : Nat → List Char
  | 2 => ['b', 'B']
  | 8 => ['o', 'O']
  | 16 => ['x', 'X']
  | _ => []

def dropMark (base : Nat) : List Char → List Char
  | '0' :: c :: cs => if (marks base).contains c then cs else '0' :: c :: cs
  | cs => cs

/-- The integer in a base, perhaps with the mark of the base. In base ten its digits are counted before
anything behind them is looked at. -/
def integer? (base : Nat) (t : Text) : Except Json.LongInteger (Option Int) :=
  let (negative, cs) := takeSign (trimmed t)
  let cs := dropMark base cs
  let ds := cs.takeWhile fun c => (Digits.value? base c).isSome
  if base = 10 ∧ Json.maxIntegerDigits < ds.length then .error ⟨ds.length⟩
  else if ds = [] ∨ ds ≠ cs then .ok none
  else
    let n : Int := Digits.value base ds
    .ok (some (if negative then -n else n))

/-- An exponent behind its mark, or none. -/
def exponent? : List Char → Option Int
  | [] => some 0
  | 'e' :: cs =>
    let (negative, ds) := takeSign cs
    if ds ≠ [] ∧ ds.all Digits.isDecimal then
      let n : Int := Digits.value 10 ds
      some (if negative then -n else n)
    else none
  | _ => none

/-- The number that digits with a point or without denote, perhaps with an exponent. -/
def decimal? (negative : Bool) (cs : List Char) : Option Binary64 :=
  let whole := cs.takeWhile Digits.isDecimal
  let (fraction, rest) := match cs.drop whole.length with
    | '.' :: rest => (rest.takeWhile Digits.isDecimal, rest.dropWhile Digits.isDecimal)
    | rest => ([], rest)
  let ds := whole ++ fraction
  if ds = [] then none
  else
    (exponent? rest).map fun e =>
      .ofDecimal negative (Digits.value 10 ds) ds.length (e - fraction.length)

/-- The fraction, with letters in lower case. -/
def fraction? (t : Text) : Option Binary64 :=
  let (negative, cs) := takeSign (trimmed t)
  if cs = "inf".toList ∨ cs = "infinity".toList then some (.infinite negative)
  else if cs = "nan".toList then some .nan
  else decimal? negative cs

end Allowlist.Numeral
