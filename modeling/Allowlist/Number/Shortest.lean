import Allowlist.Number.Binary64
import Allowlist.Number.Digits

/-!
# Shortest decimal notation

The text of a binary number has the fewest significant digits that read back as that number, and
among those the digits nearest to its value. A number is read back by rounding to nearest, so the
decimals that denote `m · 2 ^ q` are those within half a step of it, the ends included when `m` is
even. The two neighbours of the value on the grid of 1, 2, … 17 digits are tried in turn.
-/
namespace Allowlist.Binary64

/-- Where positional notation ends, and how the special values are spelt. -/
structure Layout where
  /-- The least decimal exponent written positionally. -/
  positionalFrom : Int
  /-- The first decimal exponent written with an exponent part again. -/
  positionalBelow : Int
  infinity : List Char
  nan : List Char

/-- `significand · 2 ^ exponent` and the bounds between which a decimal reads back as it, over one
denominator. Below a power of two the step is half as long. -/
structure Interval where
  value : Nat
  low : Nat
  high : Nat
  den : Nat
  closed : Bool

def interval (m : Nat) (q : Int) : Interval :=
  let lowStep := if m = Nat.pow 2 52 ∧ -1074 < q then 1 else 2
  if 0 ≤ q then
    let u := Nat.pow 2 q.toNat
    ⟨4 * m * u, (4 * m - lowStep) * u, (4 * m + 2) * u, 4, m % 2 = 0⟩
  else ⟨4 * m, 4 * m - lowStep, 4 * m + 2, 4 * Nat.pow 2 (-q).toNat, m % 2 = 0⟩

/-- Whether `d · 10 ^ e` lies between the bounds. -/
def Interval.contains (i : Interval) (d : Nat) (e : Int) : Bool :=
  let x := if 0 ≤ e then d * Nat.pow 10 e.toNat * i.den else d * i.den
  let t := if 0 ≤ e then 1 else Nat.pow 10 (-e).toNat
  if i.closed then i.low * t ≤ x && x ≤ i.high * t else i.low * t < x && x < i.high * t

/-- The exponent `k` with `10 ^ (k - 1) ≤ num / den < 10 ^ k`, found upwards from `k`. -/
def magnitudeFrom (num den : Nat) : Nat → Int → Int
  | 0, k => k
  | fuel + 1, k =>
    let below := if 0 ≤ k then num < den * Nat.pow 10 k.toNat else num * Nat.pow 10 (-k).toNat < den
    if below then k else magnitudeFrom num den fuel (k + 1)

/-- The decimal exponent is near three tenths of the binary one. -/
def magnitude (num den : Nat) : Int :=
  magnitudeFrom num den 6 ((((num.log2 : Int) - (den.log2 : Int)) * 30103) / 100000 - 1)

/-- The neighbour on the grid of `p` digits that reads back, the nearer one if both do, and of two
equally near the even one. -/
def Interval.digits? (i : Interval) (k : Int) (p : Nat) : Option (Nat × Int) :=
  let e := k - p
  let (num, den) :=
    if 0 ≤ e then (i.value, i.den * Nat.pow 10 e.toNat)
    else (i.value * Nat.pow 10 (-e).toNat, i.den)
  let f := num / den
  match i.contains f e, i.contains (f + 1) e with
  | true, true => some (roundDiv num den, e)
  | true, false => some (f, e)
  | false, true => some (f + 1, e)
  | false, false => none

/-- Drops zeros at the end of the digits. -/
def trim : Nat → Nat → Int → Nat × Int
  | 0, d, e => (d, e)
  | fuel + 1, d, e => if d % 10 = 0 then trim fuel (d / 10) (e + 1) else (d, e)

/-- Digits `d` and exponent `e`, the shortest with `d · 10 ^ e` reading back as `m · 2 ^ q`. -/
def shortest (m : Nat) (q : Int) : Nat × Int :=
  let i := interval m q
  let k := magnitude i.value i.den
  match (List.range 17).findSome? (fun p => i.digits? k (p + 1)) with
  | some (d, e) => trim 17 d e
  | none => (m, 0)

/-- Digits with a point after the first `point` of them; zeros fill the places without a digit. -/
def positional (ds : List Char) (point : Int) : List Char :=
  if point ≤ 0 then '0' :: '.' :: (List.replicate (-point).toNat '0' ++ ds)
  else
    let n := point.toNat
    if n < ds.length then ds.take n ++ '.' :: ds.drop n
    else ds ++ List.replicate (n - ds.length) '0' ++ ['.', '0']

/-- One digit before the point, and the exponent with its sign and at least two digits. -/
def scientific (ds : List Char) (exponent : Int) : List Char :=
  let mantissa := match ds with
    | [] => []
    | [d] => [d]
    | d :: rest => d :: '.' :: rest
  let e := Digits.decimal exponent.natAbs
  mantissa ++ 'e' :: (if exponent < 0 then '-' else '+') ::
    (List.replicate (2 - e.length) '0' ++ e)

def sign (negative : Bool) : List Char := if negative then ['-'] else []

def render (l : Layout) : Binary64 → List Char
  | .nan => l.nan
  | .infinite negative => sign negative ++ l.infinity
  | .finite negative m q =>
    if m = 0 then sign negative ++ ['0', '.', '0']
    else
      let (d, e) := shortest m q
      let ds := Digits.decimal d
      let exponent := e + ds.length - 1
      sign negative ++
        if l.positionalFrom ≤ exponent ∧ exponent < l.positionalBelow then
          positional ds (exponent + 1)
        else scientific ds exponent

end Allowlist.Binary64
