import Allowlist.Json.Display
import Allowlist.Text.Base64
import Allowlist.Yaml.Number
import Allowlist.Yaml.Tag
import Allowlist.Yaml.Timestamp

/-!
# Values

A scalar whose content decides is a null, a truth value, a number or a date if it is spelt like one, and
a string otherwise; a tag may say of any scalar which of these it is, or that it stands for bytes.
Keys of a mapping are the same if their values are, where truth values are the numbers one and zero;
a key that comes twice keeps its place and takes its last value. What is inside of a collection is not
kept.
-/
namespace Allowlist.Yaml

inductive Value where
  | null
  | bool (b : Bool)
  | int (n : Int)
  | float (x : Binary64)
  | date (d : Date)
  | moment (t : Moment)
  | str (t : Text)
  | bytes (bs : Utf8.Bytes)
  | collection
  deriving DecidableEq, Repr

/-- The types of scalars. A mark has no value. -/
inductive Kind where
  | null
  | bool
  | int
  | float
  | timestamp
  | str
  | binary
  | mark
  deriving DecidableEq, Repr

namespace Kind

def nulls : List Text := ["", "~", "null", "Null", "NULL"]

def truths : List Text :=
  ["yes", "Yes", "YES", "true", "True", "TRUE", "on", "On", "ON",
    "no", "No", "NO", "false", "False", "FALSE", "off", "Off", "OFF"]

/-- The fractions that are written as words. -/
def words : List Text :=
  [".nan", ".NaN", ".NAN", ".inf", ".Inf", ".INF", "+.inf", "+.Inf", "+.INF", "-.inf", "-.Inf", "-.INF"]

/-- The mark of a default value, which is a string only as a key. -/
def defaultMark : Text := "="

/-- The mark of mappings to merge, which is good only as a key. -/
def mergeMark : Text := "<<"

/-- With the lone marks of a tag, an anchor and an alias. -/
def marks : List Text := [defaultMark, mergeMark, "!", "&", "*"]

/-- The type of a scalar whose content decides. -/
def ofContent (t : Text) : Kind :=
  if t ∈ nulls then .null
  else if t ∈ truths then .bool
  else if t ∈ words then .float
  else if t ∈ marks then .mark
  else
    match t.chars? with
    | none => .str
    | some cs =>
      if Plain.isInteger cs then .int
      else if Plain.isFraction cs then .float
      else if Plain.isTimestamp cs then .timestamp
      else .str

/-- The type that a tag names. -/
def ofTag? (tag : Name) : Option Kind :=
  [("null", null), ("bool", bool), ("int", int), ("float", float), ("timestamp", timestamp), ("str", str),
      ("binary", binary)]
    |>.findSome? fun (name, kind) => if tag = Tag.core ++ name.toList then some kind else none

end Kind

namespace Value

def yeses : List Text := ["yes", "true", "on"]

def noes : List Text := ["no", "false", "off"]

/-- A truth value in any letter case. -/
def truth (t : Text) : Except Fault Value :=
  let t := t.toLower
  if t ∈ yeses then .ok (.bool true)
  else if t ∈ noes then .ok (.bool false)
  else .error (.notTruth t)

/-- A date, with a time of day or without. A line may end behind it. -/
def timestamp (t : Text) : Except Fault Value :=
  let t : Text := if t.getLast? = some (.ofChar '\n') then t.dropLast else t
  match t.chars?.bind Plain.date?, t.chars?.bind Plain.moment? with
  | some d, _ => (Plain.checkDate d).map fun _ => .date d
  | none, some m => (Plain.checkMoment m).map fun _ => .moment m
  | none, none => .error .notDate

/-- The bytes that a text of ASCII characters stands for. -/
def binary (t : Text) : Except Fault Value :=
  if t.all (·.val < 0x80) then
    match Base64.decode t with
    | some bs => .ok (.bytes bs)
    | none => .error .malformed
  else .error .malformed

/-- The value that a text has as a scalar of a type. -/
def ofKind (t : Text) : Kind → Except Fault Value
  | .null => .ok .null
  | .bool => truth t
  | .int => (Scalar.integer t).map .int
  | .float => (Scalar.fraction t).map .float
  | .timestamp => timestamp t
  | .str => .ok (.str t)
  | .binary => binary t
  | .mark => .error .malformed

/-- The number that a key counts as, if it is an integer. -/
def integer? : Value → Option Int
  | .bool b => some (if b then 1 else 0)
  | .int n => some n
  | .float x => x.toInt?
  | _ => none

/-- Whether two keys of a mapping are the same one. What is no number counts as one key, however often
and in whatever spelling it comes. -/
def sameKey : Value → Value → Bool
  | .str a, .str b => a = b
  | .moment a, .moment b => a.same b
  | a, b =>
    match a.integer?, b.integer? with
    | some m, some n => m = n
    | none, none => a = b
    | _, _ => false

def put (pairs : List (Value × Value)) (k v : Value) : List (Value × Value) :=
  match pairs with
  | [] => [(k, v)]
  | (k', v') :: rest => if sameKey k' k then (k', v) :: rest else (k', v') :: put rest k v

/-- A key as messages show it. A truth value is shown as the number that it counts as, and an integer of
too many digits is not shown. -/
def display : Value → Text
  | .null => Json.null.display
  | .bool b => (Json.int (if b then 1 else 0)).display
  | .int n =>
    if Json.maxIntegerDigits < (Digits.decimal n.natAbs).length then "<unprintable int object>"
    else (Json.int n).display
  | .float x => (Json.float x).display
  | .date d => d.display
  | .moment t => t.display
  | .str t => t
  | .bytes bs => .ofChars (Text.quotedBytes bs)
  | .collection => []

end Value

end Allowlist.Yaml
