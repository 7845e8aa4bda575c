import Allowlist.Json.Literal

/-!
# Reading JSON

White space is the blank, the tab, the line feed and the carriage return. `NaN`, `Infinity` and
`-Infinity` are numbers. Of a duplicate key the first place and the last value stay. The fuel of the
recursive functions is twice the length of the text, and no call goes without a character for more
than one step.
-/
namespace Allowlist.Json

def isBlank (c : Char) : Bool := c = ' ' || c = '\t' || c = '\n' || c = '\r'

def skipBlanks (cs : List Char) : List Char := cs.dropWhile isBlank

def expected (f : Fault) (cs : List Char) {α : Type} : Except Stop α :=
  .error (.fault f cs.length)

mutual

def readValue : Nat → List Char → Except Stop (Json × List Char)
  | 0, cs => expected .expectedValue cs
  | fuel + 1, cs =>
    match cs with
    | '"' :: rest => do
      let (t, left) ← readString rest
      .ok (.str t, left)
    | '\x7b' :: rest =>
      match skipBlanks rest with
      | '\x7d' :: left => .ok (.obj [], left)
      | body => do
        let (ps, left) ← readFields fuel body
        .ok (.obj (Assoc.ofPairs ps), left)
    | '[' :: rest =>
      match skipBlanks rest with
      | ']' :: left => .ok (.arr [], left)
      | body => do
        let (vs, left) ← readItems fuel body
        .ok (.arr vs, left)
    | 'n' :: 'u' :: 'l' :: 'l' :: rest => .ok (.null, rest)
    | 't' :: 'r' :: 'u' :: 'e' :: rest => .ok (.bool true, rest)
    | 'f' :: 'a' :: 'l' :: 's' :: 'e' :: rest => .ok (.bool false, rest)
    | 'N' :: 'a' :: 'N' :: rest => .ok (.float .nan, rest)
    | 'I' :: 'n' :: 'f' :: 'i' :: 'n' :: 'i' :: 't' :: 'y' :: rest =>
      .ok (.float (.infinite false), rest)
    | '-' :: 'I' :: 'n' :: 'f' :: 'i' :: 'n' :: 'i' :: 't' :: 'y' :: rest =>
      .ok (.float (.infinite true), rest)
    | _ => readNumber cs

/-- The items of an array that has at least one, up to and with the closing bracket. -/
def readItems : Nat → List Char → Except Stop (List Json × List Char)
  | 0, cs => expected .expectedValue cs
  | fuel + 1, cs => do
    let (v, rest) ← readValue fuel cs
    match skipBlanks rest with
    | ']' :: left => .ok ([v], left)
    | ',' :: more => do
      let (vs, left) ← readItems fuel (skipBlanks more)
      .ok (v :: vs, left)
    | other => expected .expectedComma other

/-- The fields of an object that has at least one, up to and with the closing brace. -/
def readFields : Nat → List Char → Except Stop (List (Text × Json) × List Char)
  | 0, cs => expected .expectedName cs
  | fuel + 1, cs =>
    match cs with
    | '"' :: rest => do
      let (key, afterKey) ← readString rest
      match skipBlanks afterKey with
      | ':' :: body => do
        let (v, afterValue) ← readValue fuel (skipBlanks body)
        match skipBlanks afterValue with
        | '\x7d' :: left => .ok ([(key, v)], left)
        | ',' :: more => do
          let (ps, left) ← readFields fuel (skipBlanks more)
          .ok ((key, v) :: ps, left)
        | other => expected .expectedComma other
      | other => expected .expectedColon other
    | _ => expected .expectedName cs

end

def readAll (cs : List Char) : Except Stop Json :=
  match cs with
  | '\ufeff' :: _ => expected .byteOrderMark cs
  | _ => do
    let (v, rest) ← readValue (2 * cs.length + 2) (skipBlanks cs)
    match skipBlanks rest with
    | [] => .ok v
    | other => expected .extraData other

/-- The value of a text that holds one JSON value and white space. -/
def read (cs : List Char) : Except ReadError Json :=
  match readAll cs with
  | .ok v => .ok v
  | .error (.fault f left) => .error (.misread (.locate cs f left))
  | .error (.longInteger n) => .error (.longInteger n)

end Allowlist.Json
