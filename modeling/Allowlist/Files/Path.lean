import Allowlist.Text.Basic
import Allowlist.Number.Digits

/-!
# Paths

A path is a sequence of names, relative to the working directory or to the root. Empty names and
the name of the directory itself are dropped when a path is read, so repeated and trailing slashes
do not matter; the name of the parent directory stays.
-/
namespace Allowlist

/-- Where a path starts. Two leading slashes are kept as they are. -/
inductive Anchor where
  | here
  | root
  | doubleRoot
  deriving DecidableEq, Repr

structure Path where
  anchor : Anchor
  names : List Text
  deriving DecidableEq

namespace Path

def slash : CodePoint := .ofChar '/'

/-- The longest name and the longest path, in bytes. -/
def maxName : Nat := 255

def maxPath : Nat := 4095

/-- The parts between slashes. -/
def split : Text → List Text
  | [] => [[]]
  | c :: t =>
    if c = slash then [] :: split t
    else match split t with
      | [] => [[c]]
      | part :: rest => (c :: part) :: rest

def anchorOf (t : Text) : Anchor :=
  match (t.takeWhile (· = slash)).length with
  | 0 => .here
  | 2 => .doubleRoot
  | _ => .root

def ofText (t : Text) : Path :=
  ⟨anchorOf t, (split t).filter (fun n => n ≠ [] && n ≠ ".")⟩

def Anchor.text : Anchor → Text
  | .here => ""
  | .root => "/"
  | .doubleRoot => "//"

/-- The path as messages show it and as it is opened. -/
def text (p : Path) : Text :=
  match p.anchor, p.names with
  | .here, [] => "."
  | anchor, names => Anchor.text anchor ++ Text.join [slash] names

/-- The path without its last name; a path without names is its own parent. -/
def parent (p : Path) : Path := ⟨p.anchor, p.names.dropLast⟩

/-- A lone surrogate that stands for one undecodable byte of a name. -/
def isEscapedByte (c : CodePoint) : Bool := 0xDC80 ≤ c.val && c.val ≤ 0xDCFF

/-- The number of bytes of a code point in a name. -/
def width (c : CodePoint) : Nat :=
  if c.val < 0x80 then 1
  else if c.val < 0x800 then 2
  else if isEscapedByte c then 1
  else if c.val < 0x10000 then 3
  else 4

/-- The number of bytes of a name. -/
def size (t : Text) : Nat := t.foldl (fun n c => n + width c) 0

/-- Why no file can have a path: a surrogate that stands for no byte, the first of the run from
`start` up to `stop`, or the character that ends names. -/
inductive Fault where
  | surrogate (first : CodePoint) (start stop : Nat)
  | nullByte
  deriving DecidableEq, Repr

def Fault.message : Fault → Text
  | .nullByte => "embedded null byte"
  | .surrogate first start stop =>
    let place : Text :=
      if stop = start + 1 then
        "character '\\u" ++ .ofChars (Digits.fixed 16 4 first.val) ++ "' in position " ++
          Digits.text start
      else "characters in position " ++ Digits.text start ++ "-" ++ Digits.text (stop - 1)
    "'utf-8' codec can't encode " ++ place ++ ": surrogates not allowed"

def faultOf (t : Text) : Option Fault :=
  match t.dropWhile (fun c => !c.isSurrogate || isEscapedByte c) with
  | c :: rest =>
    let start := t.length - (c :: rest).length
    some (.surrogate c start (start + 1 + (rest.takeWhile (·.isSurrogate)).length))
  | [] => if t.contains 0 then some .nullByte else none

def fault? (p : Path) : Option Fault := faultOf p.text

end Path

end Allowlist
