import Allowlist.Json.Display
import Allowlist.Json.Writable

/-!
# Messages

The message of a record is a format in which arguments are filled in. Further fields of the record may
take the place of the format, of the arguments, and of the question for the message, which then has
no answer.
-/
namespace Allowlist.Log

/-- Why there is no line for a record: an integer has too many digits, the record cannot be asked for
its message, or its format has more marks than there are arguments, or fewer. -/
inductive Fault where
  | longInteger
  | notCallable (className : Text)
  | tooFewArguments
  | tooManyArguments
  deriving DecidableEq, Repr

def Fault.message : Fault → Text
  | .longInteger =>
    "Exceeds the limit (" ++ Digits.text Json.maxIntegerDigits ++
      " digits) for integer string conversion; use sys.set_int_max_str_digits() to increase the limit"
  | .notCallable className => "'" ++ className ++ "' object is not callable"
  | .tooFewArguments => "not enough arguments for format string"
  | .tooManyArguments => "not all arguments converted during string formatting"

/-- The text of a value, if it has one. -/
def textOf (v : Json) : Except Fault Text :=
  if v.isWritable then .ok v.display else .error .longInteger

/-- A format with arguments filled in, and those that are left: each mark takes the next one, a doubled
percent sign is one percent sign. -/
def fill : Text → List Json → Except Fault (Text × List Json)
  | [], args => .ok ([], args)
  | [c], args => .ok ([c], args)
  | c :: d :: t, args =>
    if c = .ofChar '%' ∧ d = .ofChar '%' then
      (fill t args).map fun (s, left) => (c :: s, left)
    else if c = .ofChar '%' ∧ d = .ofChar 's' then
      match args with
      | a :: args => do
        let value ← textOf a
        (fill t args).map fun (s, left) => (value ++ s, left)
      | [] => .error .tooFewArguments
    else (fill (d :: t) args).map fun (s, left) => (c :: s, left)

/-- A format with all of the arguments filled in. -/
def filled (format : Text) (args : List Json) : Except Fault Text :=
  match fill format args with
  | .error f => .error f
  | .ok (s, []) => .ok s
  | .ok _ => .error .tooManyArguments

/-- Whether a value counts as no arguments. -/
def isVoid : Json → Bool
  | .null => true
  | .bool b => !b
  | .int n => n = 0
  | .float x => x.toInt? = some 0
  | .str t => t = []
  | .arr items => items.isEmpty
  | .obj fields => fields.isEmpty

/-- The name under which a record is asked for its message. -/
def question : Text := "getMessage"

/-- What a record says when it is asked for its message. -/
def asked (extras : Fields Json) (own : Except Fault Text) : Except Fault Text :=
  match extras.get? question with
  | some v => .error (.notCallable v.className)
  | none => own

/-- The message of a record. Without arguments a format is taken as it is. Arguments from a further field
are one value, of which a collection need not be used. -/
def messageOf (format : Text) (args : List Text) (extras : Fields Json) : Except Fault Text :=
  asked extras do
    let format ← ((extras.get? "msg").map textOf).getD (.ok format)
    match extras.get? "args" with
    | none => if args = [] then .ok format else filled format (args.map .str)
    | some v =>
      if isVoid v then .ok format
      else match v with
        | .arr _ => (fill format [v]).map Prod.fst
        | .obj _ => (fill format [v]).map Prod.fst
        | v => filled format [v]

end Allowlist.Log
