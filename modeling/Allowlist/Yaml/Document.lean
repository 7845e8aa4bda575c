import Allowlist.Yaml.Node
import Allowlist.Yaml.Value

/-!
# Documents

What a settings file holds: nothing, a mapping, or something else. The members of collections get their
values level by level, those of the outermost collection first, and the first member without a value is
what the file is refused for; so the order matters where several members have none. Within a mapping a
key comes before its value, and it must not be a collection. Merged mappings stand before the pairs of the
mapping that merges them. A tag may say that a mapping is a set, or that a sequence of mappings with one
pair each is a list of pairs.
-/
namespace Allowlist.Yaml

namespace Node

/-- Whether a tag gives a type of the core. -/
def hasTag (type : List Char) : Typing → Bool
  | .named tag => tag = Tag.core ++ type
  | _ => false

def isSequenceTag (typing : Typing) : Bool := hasTag "seq".toList typing

def isSetTag (typing : Typing) : Bool := hasTag "set".toList typing

def isMappingTag (typing : Typing) : Bool := hasTag "map".toList typing || isSetTag typing

/-- Whether a tag makes a node a sequence of mappings with one pair each. -/
def isPairsTag (typing : Typing) : Bool := hasTag "omap".toList typing || hasTag "pairs".toList typing

def isCollectionTag (typing : Typing) : Bool :=
  isSequenceTag typing || isMappingTag typing || isPairsTag typing

/-- Whether a node stands for a mark by its content, or by a tag of its type. -/
def isMark (mark : Text) (type : List Char) : Node → Bool
  | .scalar .content t => t = mark
  | .scalar typing _ => hasTag type typing
  | .sequence typing _ => hasTag type typing
  | .mapping typing _ => hasTag type typing
  | .alias n => n.isMark mark type

def isMerge (n : Node) : Bool := n.isMark Kind.mergeMark "merge".toList

def isDefault (n : Node) : Bool := n.isMark Kind.defaultMark "value".toList

mutual

/-- The text that a node has if it is to be a scalar: for a mapping, that of its first default value. -/
def scalarText? : Node → Option Text
  | .scalar _ t => some t
  | .alias n => n.scalarText?
  | .mapping _ pairs => defaultText? pairs
  | .sequence _ _ => none

def defaultText? : List (Node × Node) → Option Text
  | [] => none
  | (k, v) :: rest => if k.isDefault then v.scalarText? else defaultText? rest

end

/-- The value of a node with a tag. Whether a collection has the form that its tag says shows with its
members. -/
def tagged (tag : Name) (n : Node) : Except Fault Value :=
  if isCollectionTag (.named tag) then .ok .collection
  else
    match Kind.ofTag? tag, n, n.scalarText? with
    | some .timestamp, .mapping _ _, some _ => .error .notText
    | some kind, _, some t => Value.ofKind t kind
    | _, _, _ => .error .malformed

/-- The value of a node, without the members of a collection. -/
def value : Node → Except Fault Value
  | .scalar .content t => Value.ofKind t (Kind.ofContent t)
  | .scalar .form t => .ok (.str t)
  | .scalar (.named tag) t => tagged tag (.scalar (.named tag) t)
  | .sequence (.named tag) items => tagged tag (.sequence (.named tag) items)
  | .mapping (.named tag) pairs => tagged tag (.mapping (.named tag) pairs)
  | .sequence _ _ => .ok .collection
  | .mapping _ _ => .ok .collection
  | .alias n => n.value

/-- Whether a node has members. Those of an alias are looked at here if they were not before. -/
def isCollection (n : Node) : Bool :=
  match n.value with
  | .ok v => v = .collection
  | .error _ => false

mutual

/-- The pairs that a mapping, or the mappings of a sequence, contribute where they are merged. Of a
sequence the last mapping comes first. -/
def merged : Node → Except Fault (List (Node × Node))
  | .mapping _ pairs => do
    let (front, own) ← splitPairs pairs
    .ok (front ++ own)
  | .sequence _ items => mergedItems items
  | .alias n => n.merged
  | .scalar _ _ => .error .malformed

def mergedItems : List Node → Except Fault (List (Node × Node))
  | [] => .ok []
  | n :: rest => do
    let pairs ← n.mergedItem
    .ok ((← mergedItems rest) ++ pairs)

/-- The pairs of a mapping. -/
def mergedItem : Node → Except Fault (List (Node × Node))
  | .mapping _ pairs => do
    let (front, own) ← splitPairs pairs
    .ok (front ++ own)
  | .alias n => n.mergedItem
  | _ => .error .malformed

/-- What the merge marks among the pairs contribute, and the other pairs. -/
def splitPairs : List (Node × Node) → Except Fault (List (Node × Node) × List (Node × Node))
  | [] => .ok ([], [])
  | (k, v) :: rest => do
    if k.isMerge then
      let pairs ← v.merged
      let (front, own) ← splitPairs rest
      .ok (pairs ++ front, own)
    else
      let (front, own) ← splitPairs rest
      .ok (front, (k, v) :: own)

end

/-- The values of a pair. A mark of a default value is a string here. -/
def pairValue (p : Node × Node) : Except Fault (Value × Value) := do
  let (k, v) := p
  let key ← if k.isDefault then
      match k.scalarText? with
      | some t => .ok (.str t)
      | none => .error .malformed
    else k.value
  if key = .collection then .error .malformed
  else .ok (key, ← v.value)

/-- The one pair of a mapping. -/
def single : Node → Except Fault (Node × Node)
  | .mapping _ [pair] => .ok pair
  | .alias n => n.single
  | _ => .error .malformed

/-- The members of mappings with one pair each, where a key may be a collection. -/
def singleMembers : List Node → Except Fault (List Node)
  | [] => .ok []
  | n :: rest => do
    let (k, v) ← n.single
    let _ ← k.value
    let _ ← v.value
    .ok (k :: v :: (← singleMembers rest))

/-- Gives values to the members of a collection; those that are collections are left to the next
level. -/
def members : Node → Except Fault (List Node)
  | .mapping typing pairs => do
    if isSequenceTag typing || isPairsTag typing then .error .malformed
    else
      let pairs ← (Node.mapping typing pairs).mergedItem
      let _ ← pairs.mapM pairValue
      .ok ((pairs.map Prod.snd).filter isCollection)
  | .sequence typing items => do
    if isMappingTag typing then .error .malformed
    else if isPairsTag typing then
      .ok ((← singleMembers items).filter isCollection)
    else
      let _ ← items.mapM value
      .ok (items.filter isCollection)
  | .alias n => n.members
  | .scalar _ _ => .error .malformed

/-- Gives values to what is in a level of collections, and so on for `depth` levels at most. -/
def checkLevels : Nat → List Node → Except Fault Unit
  | 0, _ => .ok ()
  | _ + 1, [] => .ok ()
  | depth + 1, level => do
    let inner ← level.mapM members
    checkLevels depth inner.flatten

end Node

inductive Document where
  | empty
  | mapping (pairs : List (Value × Value))
  | other
  deriving DecidableEq

namespace Document

/-- The document with the node `n`, in which no more than `depth` collections are one within the
other. -/
def ofNode (depth : Nat) (n : Node) : Except Fault Document := do
  match ← n.value, n with
  | .null, _ => .ok .empty
  | .collection, .mapping typing _ =>
    Node.checkLevels depth [n]
    if Node.isSetTag typing then .ok .other
    else
      let pairs ← (← n.mergedItem).mapM Node.pairValue
      .ok (.mapping (pairs.foldl (fun m p => Value.put m p.1 p.2) []))
  | .collection, _ =>
    Node.checkLevels depth [n]
    .ok .other
  | _, _ => .ok .other

/-- What a settings file holds. -/
def read (content : Utf8.Bytes) : Except Fault Document := do
  let source := Source.ofBytes content
  match ← Node.ofSource source with
  | none => .ok .empty
  | some n => ofNode source.chars.length n

end Document

end Allowlist.Yaml
