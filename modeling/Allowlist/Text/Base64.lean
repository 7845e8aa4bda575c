import Allowlist.Text.Basic
import Allowlist.Text.Utf8

/-!
# Base 64

Bytes written in 64 letters, each of which stands for six bits. Other characters are passed over.
Padding marks end the text once they complete a group of four that has two letters; before that they
are passed over as well. A text ends with a complete group.
-/
namespace Allowlist.Base64

def padding : CodePoint := .ofChar '='

/-- The six bits of a letter. -/
def value? (c : CodePoint) : Option Nat :=
  match c.char? with
  | none => none
  | some c =>
    if 'A' ≤ c ∧ c ≤ 'Z' then some (c.toNat - 0x41)
    else if 'a' ≤ c ∧ c ≤ 'z' then some (c.toNat - 0x61 + 26)
    else if '0' ≤ c ∧ c ≤ '9' then some (c.toNat - 0x30 + 52)
    else if c = '+' then some 62
    else if c = '/' then some 63
    else none

/-- Where in a group of four letters a text goes on: how many of them are there, the bits of the last
one that are not in a byte yet, and how many padding marks came behind it. -/
structure Place where
  letters : Nat
  bits : Nat
  marks : Nat

def Place.start : Place := ⟨0, 0, 0⟩

/-- The place behind a letter, and the byte that it completes. -/
def Place.next (p : Place) (v : Nat) : Place × Option UInt8 :=
  match p.letters with
  | 0 => (⟨1, v, 0⟩, none)
  | 1 => (⟨2, v % 16, 0⟩, some (.ofNat (p.bits * 4 + v / 16)))
  | 2 => (⟨3, v % 4, 0⟩, some (.ofNat (p.bits * 16 + v / 4)))
  | _ => (.start, some (.ofNat (p.bits * 64 + v)))

def decodeFrom (p : Place) : Text → Option Utf8.Bytes
  | [] => if p.letters = 0 then some [] else none
  | c :: t =>
    if c = padding then
      if p.letters < 2 then decodeFrom p t
      else if 4 ≤ p.letters + (p.marks + 1) then some []
      else decodeFrom { p with marks := p.marks + 1 } t
    else
      match value? c with
      | none => decodeFrom p t
      | some v =>
        let (p, byte) := p.next v
        (decodeFrom p t).map (byte.toList ++ ·)

/-- The bytes of a text, if it ends with a complete group. -/
def decode (t : Text) : Option Utf8.Bytes := decodeFrom .start t

end Allowlist.Base64
