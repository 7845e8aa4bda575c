/-!
# Binary floating-point numbers

A finite number is `± significand · 2 ^ exponent`. Reading a decimal rounds its exact value to the
nearest number with 53 significant bits and an exponent of at least -1074; a tie goes to the even
significand, and what is too large becomes infinite. Sums and products are exact before they are
rounded, on natural numbers and integers.
-/
namespace Allowlist

inductive Binary64 where
  | finite (negative : Bool) (significand : Nat) (exponent : Int)
  | infinite (negative : Bool)
  | nan
  deriving DecidableEq, Repr

namespace Binary64

def zero (negative : Bool) : Binary64 := .finite negative 0 (-1074)

/-- The quotient to the nearest natural number, a half to the even one. -/
def roundDiv (num den : Nat) : Nat :=
  let q := num / den
  let r := num % den
  if 2 * r < den then q
  else if den < 2 * r then q + 1
  else q + q % 2

/-- `num / (den · 2 ^ e)` as a pair of naturals. -/
def scale (num den : Nat) (e : Int) : Nat × Nat :=
  if 0 ≤ e then (num, den * Nat.pow 2 e.toNat) else (num * Nat.pow 2 (-e).toNat, den)

/-- The binary exponent at which `num / den` has 53 bits before the point, at least -1074. -/
def exponentFor (num den : Nat) : Int :=
  let e : Int := (num.log2 : Int) - (den.log2 : Int) - 53
  let (n, d) := scale num den e
  max (if n / d < Nat.pow 2 53 then e else e + 1) (-1074)

/-- The number nearest to `± num / den`. -/
def ofRatio (negative : Bool) (num den : Nat) : Binary64 :=
  if num = 0 then zero negative
  else
    let e := exponentFor num den
    let (n, d) := scale num den e
    let m := roundDiv n d
    let (m, e) := if m < Nat.pow 2 53 then (m, e) else (m / 2, e + 1)
    if m = 0 then zero negative
    else if e ≤ 971 then .finite negative m e
    else .infinite negative

/-- The number nearest to `± digits · 10 ^ exponent`; `count` is the number of `digits`. Outside
of 10 ^ ± 330 the answer is known without the power. -/
def ofDecimal (negative : Bool) (digits count : Nat) (exponent : Int) : Binary64 :=
  if digits = 0 then zero negative
  else if exponent < -330 - count then zero negative
  else if 310 < exponent then .infinite negative
  else if 0 ≤ exponent then ofRatio negative (digits * Nat.pow 10 exponent.toNat) 1
  else ofRatio negative digits (Nat.pow 10 (-exponent).toNat)

/-- The number nearest to `± m · 2 ^ e`. -/
def ofScaled (negative : Bool) (m : Nat) (e : Int) : Binary64 :=
  if 0 ≤ e then ofRatio negative (m * Nat.pow 2 e.toNat) 1
  else ofRatio negative m (Nat.pow 2 (-e).toNat)

/-- The number nearest to a natural number, unless that is too large. -/
def ofNat? (n : Nat) : Option Binary64 :=
  match ofRatio false n 1 with
  | .infinite _ => none
  | x => some x

/-- `± m · 2 ^ (e - low)`, for an exponent `low` that is not above `e`. -/
def scaledTo (low : Int) (negative : Bool) (m : Nat) (e : Int) : Int :=
  let n : Int := m * Nat.pow 2 (e - low).toNat
  if negative then -n else n

/-- The number nearest to a sum. A sum of zero is negative only if both numbers are. -/
def add : Binary64 → Binary64 → Binary64
  | .finite a m p, .finite b n q =>
    let low := min p q
    let x := scaledTo low a m p + scaledTo low b n q
    if x = 0 then zero (a && b) else ofScaled (x < 0) x.natAbs low
  | .finite _ _ _, y => y
  | .infinite a, .infinite b => if a = b then .infinite a else .nan
  | .infinite a, .finite _ _ _ => .infinite a
  | _, .nan => .nan
  | .nan, _ => .nan

/-- The number nearest to a product. -/
def mul : Binary64 → Binary64 → Binary64
  | .finite a m p, .finite b n q => ofScaled (a != b) (m * n) (p + q)
  | .nan, _ => .nan
  | _, .nan => .nan
  | .finite a m _, .infinite b => if m = 0 then .nan else .infinite (a != b)
  | .infinite a, .finite b n _ => if n = 0 then .nan else .infinite (a != b)
  | .infinite a, .infinite b => .infinite (a != b)

def neg : Binary64 → Binary64
  | .finite negative m e => .finite (!negative) m e
  | .infinite negative => .infinite (!negative)
  | .nan => .nan

/-- The integer that the number is, if it is one. -/
def toInt? : Binary64 → Option Int
  | .finite negative m e =>
    let signed (n : Nat) : Int := if negative then -(n : Int) else n
    if 0 ≤ e then some (signed (m * Nat.pow 2 e.toNat))
    else
      let d := Nat.pow 2 (-e).toNat
      if m % d = 0 then some (signed (m / d)) else none
  | _ => none

end Binary64

end Allowlist
