import Allowlist.Yaml.Token

/-!
# Nodes

The one document of a settings file as a tree, before its scalars are given a type. A missing key or value
is an empty plain scalar. Each function takes the tokens of one construct off the front; the fuel is a
bound on the length of the run. Where the tokens end, the fault behind them is met.
-/
namespace Allowlist.Yaml

/-- What decides the type of a node: the content of a scalar, its form, or a tag. -/
inductive Typing where
  | content
  | form
  | named (tag : Name)
  deriving DecidableEq, Repr

inductive Node where
  | scalar (typing : Typing) (t : Text)
  | sequence (typing : Typing) (items : List Node)
  | mapping (typing : Typing) (pairs : List (Node × Node))
  /-- Another node once more; within a collection itself, an empty one in its place. -/
  | alias (target : Node)

namespace Node

def empty : Node := .scalar .content []

structure Reader where
  tokens : List Token
  ending : Fault
  /-- The nodes that have names. -/
  anchors : Assoc Name Node
  /-- What handles stand for by directives. -/
  handles : Assoc Name Name

abbrev Read := StateT Reader (Except Fault)

namespace Read

def peek : Read Token := do
  match (← get).tokens with
  | [] => throw (← get).ending
  | t :: _ => return t

def drop : Read Unit := modify fun r => { r with tokens := r.tokens.drop 1 }

/-- Whether one of the tokens comes next. -/
def nextIs (these : List Token) : Read Bool := return these.contains (← peek)

/-- Takes a token if it is `t`. -/
def accept (t : Token) : Read Bool := do
  let found ← nextIs [t]
  if found then drop
  return found

def expect (t : Token) : Read Unit := do
  if !(← accept t) then throw .malformed

/-- An anchor and a tag, in either order. -/
def properties : Read (Option Name × Option Tag) := do
  match ← peek with
  | .anchor a =>
    drop
    match ← peek with
    | .tag t => drop; return (some a, some t)
    | _ => return (some a, none)
  | .tag t =>
    drop
    match ← peek with
    | .anchor a => drop; return (some a, some t)
    | _ => return (none, some t)
  | _ => return (none, none)

/-- A tag in full. -/
def resolve (t : Tag) : Read Name := do
  match t.handle with
  | none => return t.rest
  | some h =>
    match ((← get).handles.get? h).or (Tag.handles.lookup h) with
    | some start => return start ++ t.rest
    | none => throw .malformed

/-- The type that a tag gives, or `untagged` without one. -/
def typing (t : Option Tag) (untagged : Typing) : Read Typing := do
  match t with
  | none => return untagged
  | some t => do
    let name ← resolve t
    return if name = Tag.unspecific then .content else .named name

/-- Gives a node a name, which must be new. -/
def declare (anchor : Option Name) (n : Node) : Read Unit := do
  match anchor with
  | none => pure ()
  | some a =>
    if ((← get).anchors.get? a).isSome then throw .malformed
    modify fun r => { r with anchors := r.anchors.put a n }

/-- The complete node of a name. -/
def complete (anchor : Option Name) (n : Node) : Read Node := do
  match anchor with
  | none => pure ()
  | some a => modify fun r => { r with anchors := r.anchors.put a n }
  return n

/-- The node of a name, wherever the name is used. -/
def named (a : Name) : Read Node := do
  match (← get).anchors.get? a with
  | some n => return .alias n
  | none => throw .malformed

end Read

open Read

mutual

/-- Any node; in a block it may also be a block collection, and behind a key an entry may stand at
the indentation of the key. -/
def read (block entries : Bool) : Nat → Read Node
  | 0 => throw .malformed
  | fuel + 1 => do
    match ← peek with
    | .alias a => drop; named a
    | _ =>
      let (anchor, tag) ← properties
      let typing ← typing tag .form
      let sequence (items : Read (List Node)) : Read Node := do
        declare anchor (.sequence typing [])
        complete anchor (.sequence typing (← items))
      let mapping (pairs : Read (List (Node × Node))) : Read Node := do
        declare anchor (.mapping typing [])
        complete anchor (.mapping typing (← pairs))
      let scalar (isPlain : Bool) (t : Text) : Read Node := do
        let n := Node.scalar (if isPlain ∧ tag = none then .content else typing) t
        declare anchor n
        return n
      match ← peek with
      | .scalar isPlain t => drop; scalar isPlain t
      | .listStart => sequence do drop; readList true fuel
      | .recordStart => mapping do drop; readRecord true fuel
      | .entry =>
        if entries then sequence (readEntries false fuel)
        else if anchor = none ∧ tag = none then throw .malformed
        else scalar true []
      | t =>
        if block ∧ t = .sequenceStart then sequence do drop; readEntries true fuel
        else if block ∧ t = .mappingStart then mapping do drop; readPairs fuel
        else if anchor = none ∧ tag = none then throw .malformed
        else scalar true []

/-- A node, or the empty one if one of `ends` comes next. -/
def readUnless (ends : List Token) (block entries : Bool) : Nat → Read Node
  | 0 => throw .malformed
  | fuel + 1 => do
    if ← nextIs ends then return empty else read block entries fuel

/-- The entries of a block sequence. One with an indentation of its own has an end. -/
def readEntries (closed : Bool) : Nat → Read (List Node)
  | 0 => throw .malformed
  | fuel + 1 => do
    if ← accept .entry then
      let ends := if closed then [Token.entry, .blockEnd] else [.entry, .key, .value, .blockEnd]
      let item ← readUnless ends true false fuel
      return item :: (← readEntries closed fuel)
    else
      if closed then expect .blockEnd
      return []

/-- The value behind a key, if there is one. -/
def readValue (ends : List Token) (block : Bool) : Nat → Read Node
  | 0 => throw .malformed
  | fuel + 1 => do
    if ← accept .value then readUnless ends block block fuel else return empty

/-- The pairs of a block mapping, with its end. -/
def readPairs : Nat → Read (List (Node × Node))
  | 0 => throw .malformed
  | fuel + 1 => do
    let ends := [Token.key, .value, .blockEnd]
    if ← accept .key then
      let k ← readUnless ends true true fuel
      let v ← readValue ends true fuel
      return (k, v) :: (← readPairs fuel)
    else
      expect .blockEnd
      return []

/-- The items of a list in brackets, with its end. A pair in it is a mapping of its own. -/
def readList (first : Bool) : Nat → Read (List Node)
  | 0 => throw .malformed
  | fuel + 1 => do
    if ← accept .listEnd then return []
    if !first then expect .comma
    if ← accept .key then
      let k ← readUnless [.value, .comma, .listEnd] false false fuel
      let v ← readValue [.comma, .listEnd] false fuel
      return .mapping .form [(k, v)] :: (← readList false fuel)
    else if ← accept .listEnd then return []
    else
      let item ← read false false fuel
      return item :: (← readList false fuel)

/-- The pairs of a mapping in braces, with its end. -/
def readRecord (first : Bool) : Nat → Read (List (Node × Node))
  | 0 => throw .malformed
  | fuel + 1 => do
    if ← accept .recordEnd then return []
    if !first then expect .comma
    if ← accept .key then
      let k ← readUnless [.value, .comma, .recordEnd] false false fuel
      let v ← readValue [.comma, .recordEnd] false fuel
      return (k, v) :: (← readRecord false fuel)
    else if ← accept .recordEnd then return []
    else
      let k ← read false false fuel
      return (k, empty) :: (← readRecord false fuel)

end

/-- The directives before a document. A version is given once at most and is a version 1; a handle is
given a meaning once at most. -/
def readDirectives (versioned : Bool) : Nat → Read Unit
  | 0 => throw .malformed
  | fuel + 1 => do
    match ← peek with
    | .directive d =>
      drop
      match d with
      | .version major =>
        if versioned ∨ major ≠ 1 then throw .malformed
        readDirectives true fuel
      | .handle name start =>
        if ((← get).handles.get? name).isSome then throw .malformed
        modify fun r => { r with handles := r.handles.put name start }
        readDirectives versioned fuel
      | .other => readDirectives versioned fuel
    | _ => pure ()

/-- Document ends, and then the end of the file. Of another document the directives are read before it
is refused. -/
def readEnd : Nat → Read Unit
  | 0 => throw .malformed
  | fuel + 1 => do
    if ← accept .documentEnd then readEnd fuel
    else if ← nextIs [.streamEnd] then pure ()
    else
      modify fun r => { r with handles := [] }
      readDirectives false fuel
      let _ ← peek
      throw .malformed

/-- The node of a document behind its marker. -/
def readContent (fuel : Nat) : Read Node := do
  match ← peek with
  | .directive _ => return empty
  | _ => readUnless [.documentStart, .documentEnd, .streamEnd] true false fuel

/-- The node of the only document, if there is a document. -/
def readOnly (fuel : Nat) : Read (Option Node) := do
  match ← peek with
  | .streamEnd => return none
  | t =>
    let marked : Bool := match t with
      | .directive _ => true
      | t => t = .documentStart
    let node ← if marked then do
        readDirectives false fuel
        expect .documentStart
        readContent fuel
      else read true false fuel
    readEnd fuel
    return some node

/-- The node of the only document of a settings file, if there is a document; a second one is
refused. -/
def ofSource (source : Source) : Except Fault (Option Node) :=
  let (tokens, fault) := Token.scan source
  (readOnly (4 * tokens.length + 4)).run' ⟨tokens, fault.getD .malformed, [], []⟩

end Node

end Allowlist.Yaml
