import Allowlist.Text.Basic

/-!
# Digits

Natural numbers and integers in positional notation, bases two to sixteen, lower-case letters.
-/
namespace Allowlist.Digits

def digit (n : Nat) : Char :=
  if n < 10 then Char.ofNat (0x30 + n) else Char.ofNat (0x57 + n)

/-- The value of a digit in either letter case, below the base. -/
def value? (base : Nat) (c : Char) : Option Nat :=
  let v :=
    if '0' ≤ c ∧ c ≤ '9' then c.toNat - 0x30
    else if 'a' ≤ c ∧ c ≤ 'f' then c.toNat - 0x57
    else if 'A' ≤ c ∧ c ≤ 'F' then c.toNat - 0x37
    else base
  if v < base then some v else none

def isDecimal (c : Char) : Bool := '0' ≤ c && c ≤ '9'

def isHex (c : Char) : Bool := (value? 16 c).isSome

/-- The number that digits denote, first digit most significant. -/
def value (base : Nat) (cs : List Char) : Nat :=
  cs.foldl (fun n c => base * n + (value? base c).getD 0) 0

/-- Least significant digit last, in front of `rest`; `fuel` bounds the number of digits. -/
def ofNatFuel (base : Nat) : Nat → Nat → List Char → List Char
  | 0, _, rest => rest
  | fuel + 1, n, rest =>
    if n < base then digit n :: rest
    else ofNatFuel base fuel (n / base) (digit (n % base) :: rest)

/-- The digits of a number without leading zeros. -/
def ofNat (base n : Nat) : List Char := ofNatFuel base (n + 1) n []

/-- Exactly `width` digits: leading zeros are kept, higher digits are dropped. -/
def fixed (base : Nat) : Nat → Nat → List Char
  | 0, _ => []
  | width + 1, n => fixed base width (n / base) ++ [digit (n % base)]

@[simp] theorem length_fixed (base width n : Nat) : (fixed base width n).length = width := by
  induction width generalizing n with
  | zero => rfl
  | succ width ih => simp [fixed, ih]

def decimal (n : Nat) : List Char := ofNat 10 n

/-- Decimal notation, with a minus sign below zero. -/
def integer : Int → List Char
  | .ofNat n => decimal n
  | .negSucc n => '-' :: decimal (n + 1)

/-- Decimal notation in a message. -/
def text (n : Nat) : Text := Text.ofChars (decimal n)

end Allowlist.Digits
