import Allowlist.Number.Digits
import Allowlist.Text.Basic

/-!
# UTF-8

Encoding is total on characters. Decoding accepts exactly the shortest forms of characters, surrogates
excluded; otherwise it reports the longest start of a sequence that could still have been completed,
and why it was not.
-/
namespace Allowlist.Utf8

abbrev Bytes := List UInt8

/-- The tail byte that carries the lowest six bits of `n`. -/
def tail (n : Nat) : UInt8 := .ofNat (0x80 + n % 0x40)

def encodeChar (c : Char) : Bytes :=
  let n := c.toNat
  if n < 0x80 then [.ofNat n]
  else if n < 0x800 then [.ofNat (0xC0 + n / 0x40), tail n]
  else if n < 0x10000 then [.ofNat (0xE0 + n / 0x1000), tail (n / 0x40), tail n]
  else [.ofNat (0xF0 + n / 0x40000), tail (n / 0x1000), tail (n / 0x40), tail n]

def encode (cs : List Char) : Bytes := cs.flatMap encodeChar

@[simp] theorem encode_nil : encode [] = [] := rfl

@[simp] theorem encode_cons (c : Char) (cs : List Char) :
    encode (c :: cs) = encodeChar c ++ encode cs := rfl

theorem encode_append (cs ds : List Char) : encode (cs ++ ds) = encode cs ++ encode ds := by
  simp [encode]

inductive Reason where
  | invalidStart
  | invalidContinuation
  | unexpectedEnd
  deriving DecidableEq, Repr

structure Fault where
  /-- Index of the first byte of the sequence. -/
  position : Nat
  /-- How many bytes the sequence has before it fails. -/
  length : Nat
  first : UInt8
  reason : Reason
  deriving DecidableEq, Repr

def Reason.message : Reason → Text
  | .invalidStart => "invalid start byte"
  | .invalidContinuation => "invalid continuation byte"
  | .unexpectedEnd => "unexpected end of data"

def Fault.message (f : Fault) : Text :=
  let place : Text :=
    if f.length = 1 then
      "byte 0x" ++ .ofChars (Digits.fixed 16 2 f.first.toNat) ++ " in position " ++
        Digits.text f.position
    else
      "bytes in position " ++ Digits.text f.position ++ "-" ++
        Digits.text (f.position + f.length - 1)
  "'utf-8' codec can't decode " ++ place ++ ": " ++ f.reason.message

def isTail (b : UInt8) : Bool := 0x80 ≤ b && b ≤ 0xBF

/-- Whether `b` may follow the first byte `a` of a sequence of three or four: overlong forms,
surrogates and numbers beyond 0x10FFFF are ruled out here. -/
def isSecond (a b : UInt8) : Bool :=
  isTail b &&
    (if a = 0xE0 then 0xA0 ≤ b
    else if a = 0xED then b < 0xA0
    else if a = 0xF0 then 0x90 ≤ b
    else if a = 0xF4 then b < 0x90
    else true)

/-- The number that a first byte with `lead` marking bits and its tail bytes denote. -/
def assemble (lead : Nat) (a : UInt8) (tails : Bytes) : Char :=
  Char.ofNat (tails.foldl (fun n b => n * 0x40 + (b.toNat - 0x80)) (a.toNat - lead))

/-- Decodes from the byte at index `pos`. -/
def decodeFrom (pos : Nat) : Bytes → Except Fault (List Char)
  | [] => .ok []
  | a :: rest =>
    let fail (length : Nat) (reason : Reason) : Except Fault (List Char) :=
      .error ⟨pos, length, a, reason⟩
    if a < 0x80 then (assemble 0 a [] :: ·) <$> decodeFrom (pos + 1) rest
    else if a < 0xC2 then fail 1 .invalidStart
    else if a < 0xE0 then
      match rest with
      | [] => fail 1 .unexpectedEnd
      | b :: rest =>
        if isTail b then (assemble 0xC0 a [b] :: ·) <$> decodeFrom (pos + 2) rest
        else fail 1 .invalidContinuation
    else if a < 0xF0 then
      match rest with
      | [] => fail 1 .unexpectedEnd
      | b :: rest =>
        if !isSecond a b then fail 1 .invalidContinuation
        else match rest with
          | [] => fail 2 .unexpectedEnd
          | c :: rest =>
            if isTail c then (assemble 0xE0 a [b, c] :: ·) <$> decodeFrom (pos + 3) rest
            else fail 2 .invalidContinuation
    else if a < 0xF5 then
      match rest with
      | [] => fail 1 .unexpectedEnd
      | b :: rest =>
        if !isSecond a b then fail 1 .invalidContinuation
        else match rest with
          | [] => fail 2 .unexpectedEnd
          | c :: rest =>
            if !isTail c then fail 2 .invalidContinuation
            else match rest with
              | [] => fail 3 .unexpectedEnd
              | d :: rest =>
                if isTail d then (assemble 0xF0 a [b, c, d] :: ·) <$> decodeFrom (pos + 4) rest
                else fail 3 .invalidContinuation
    else fail 1 .invalidStart

def decode (bs : Bytes) : Except Fault (List Char) := decodeFrom 0 bs

end Allowlist.Utf8
