import Allowlist.Number.Numeral
import Allowlist.Text.Lowercase
import Allowlist.Yaml.Fault

/-!
# Numbers in scalars

Which plain scalars are spelt like numbers: integers in bases two, eight, ten, sixteen and sixty, and
decimal fractions, where an underscore may stand between digits, and an exponent needs a point before it
and a sign. Then the number that a text denotes. It is asked for more texts than these, as a tag may
call any scalar a number.
-/
namespace Allowlist.Yaml

namespace Plain

def isDigitOrScore (c : Char) : Bool := Digits.isDecimal c || c = '_'

/-- Whether there is a first character that satisfies `p`, and all others satisfy `q`. -/
def shaped (p q : Char → Bool) : List Char → Bool
  | [] => false
  | c :: cs => p c && cs.all q

/-- The parts between what is equal to `mark`. -/
def partsBetween {α : Type} [DecidableEq α] (mark : α) : List α → List (List α)
  | [] => [[]]
  | c :: cs =>
    if c = mark then [] :: partsBetween mark cs
    else
      match partsBetween mark cs with
      | [] => [[c]]
      | part :: rest => (c :: part) :: rest

/-- One or two digits below sixty. -/
def isSixtieth : List Char → Bool
  | [a] => Digits.isDecimal a
  | [a, b] => '0' ≤ a && a ≤ '5' && Digits.isDecimal b
  | _ => false

def isBit (c : Char) : Bool := c = '0' || c = '1' || c = '_'

def isOctal (c : Char) : Bool := ('0' ≤ c && c ≤ '7') || c = '_'

def isHexOrScore (c : Char) : Bool := Digits.isHex c || c = '_'

def isLeading (c : Char) : Bool := '1' ≤ c && c ≤ '9'

def isNatural (cs : List Char) : Bool :=
  match cs with
  | '0' :: 'b' :: ds => shaped isBit isBit ds
  | '0' :: 'x' :: ds => shaped isHexOrScore isHexOrScore ds
  | '0' :: ds => ds.all isOctal
  | _ =>
    match partsBetween ':' cs with
    | [] => false
    | ds :: parts => shaped isLeading isDigitOrScore ds && parts.all isSixtieth

def isInteger (cs : List Char) : Bool := isNatural (Numeral.takeSign cs).2

/-- An exponent with its sign and digits, or nothing. -/
def isExponent : List Char → Bool
  | [] => true
  | e :: sign :: ds =>
    (e = 'e' || e = 'E') && (sign = '-' || sign = '+') && ds ≠ [] && ds.all Digits.isDecimal
  | _ => false

/-- A number with a point: digits before it, perhaps with sixtieths, or digits behind it only and
no sign. -/
def isFraction (cs : List Char) : Bool :=
  let body := (Numeral.takeSign cs).2
  let whole := body.takeWhile (fun c => isDigitOrScore c || c = ':')
  match body.drop whole.length with
  | '.' :: rest =>
    let fraction := rest.takeWhile isDigitOrScore
    let tail := rest.drop fraction.length
    isExponent tail &&
      match partsBetween ':' whole with
      | [[]] => cs = body && shaped Digits.isDecimal isDigitOrScore fraction
      | [ds] => shaped Digits.isDecimal isDigitOrScore ds
      | ds :: parts =>
        shaped Digits.isDecimal isDigitOrScore ds && parts.all isSixtieth && tail = []
      | [] => false
  | _ => false

end Plain

namespace Scalar

def withoutScores (t : Text) : Text := t.filter (· ≠ .ofChar '_')

/-- The sign of a number, which has to have a first character. -/
def takeSign : Text → Except Fault (Bool × Text)
  | [] => .error .noCharacter
  | c :: t =>
    .ok (if c = .ofChar '-' then (true, t) else if c = .ofChar '+' then (false, t) else (false, c :: t))

def colons (t : Text) : List Text := Plain.partsBetween (.ofChar ':') t

def based (base : Nat) (t : Text) : Except Fault Int :=
  match Numeral.integer? base t with
  | .error n => .error (.longInteger n)
  | .ok none => .error (.notInteger base t)
  | .ok (some n) => .ok n

/-- The number without its sign, in the base that its first characters say or in sixtieths. -/
def unsigned (t : Text) : Except Fault Int :=
  if List.isPrefixOf "0b" t then based 2 (t.drop 2)
  else if List.isPrefixOf "0x" t then based 16 (t.drop 2)
  else
    match t with
    | [] => .error .noCharacter
    | c :: _ => do
      if c = .ofChar '0' then based 8 t
      else
        let parts ← (colons t).mapM (based 10)
        .ok (parts.foldl (fun n part => n * 60 + part) 0)

def integer (t : Text) : Except Fault Int := do
  let (negative, t) ← takeSign (withoutScores t)
  let n ← unsigned t
  .ok (if negative then -n else n)

def fractional (t : Text) : Except Fault Binary64 :=
  match Numeral.fraction? t with
  | some x => .ok x
  | none => .error (.notFraction t)

/-- Adds parts to `sum`, the last part first. Each counts sixty times as much as the one behind it, and
every product and sum is rounded. -/
def addSixtieths (sum : Binary64) (unit : Nat) : List Binary64 → Except Fault Binary64
  | [] => .ok sum
  | part :: rest =>
    match Binary64.ofNat? unit with
    | none => .error .unitTooLarge
    | some u => addSixtieths (sum.add (part.mul u)) (60 * unit) rest

/-- The fraction without its sign. -/
def unsignedFraction (t : Text) : Except Fault Binary64 := do
  if t = ".inf" then .ok (.infinite false)
  else if t = ".nan" then .ok .nan
  else
    match ← (colons t).mapM fractional with
    | [x] => .ok x
    | parts => addSixtieths (.zero false) 1 parts.reverse

def fraction (t : Text) : Except Fault Binary64 := do
  let (negative, t) ← takeSign (withoutScores t).toLower
  let x ← unsignedFraction t
  .ok (if negative then x.neg else x)

end Scalar

end Allowlist.Yaml
