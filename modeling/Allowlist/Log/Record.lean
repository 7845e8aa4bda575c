import Allowlist.Json.Line
import Allowlist.Log.Clock
import Allowlist.Log.Level
import Allowlist.Log.Message

/-!
# Log records

A record has a logger, a level, a message and further fields in order. It is written as one line of
JSON or as a line for people. Further fields that have the name of a record attribute are not shown, but
those for the logger and the name of the level are what is shown for these; in JSON the others may take
the place of a field that is already there. There is no line for a record with an integer of too many
digits, nor for one that cannot be asked for its message.
-/
namespace Allowlist.Log

structure Record where
  logger : Text
  level : Level
  message : Text
  exception : Option Text
  extras : Fields Json

/-- The attributes that every record has. -/
def attributes : List Text :=
  ["name", "msg", "args", "levelname", "levelno", "pathname", "filename", "module", "exc_info",
    "exc_text", "stack_info", "lineno", "funcName", "created", "msecs", "relativeCreated",
    "thread", "threadName", "processName", "process"]

/-- Names of further fields that are not shown. -/
def hidden : List Text := "message" :: "taskName" :: attributes

/-- Names that further fields must not have. -/
def forbidden : List Text := "message" :: "asctime" :: attributes

inductive Layout where
  | json
  | human
  deriving DecidableEq, Repr

namespace Record

def shown (r : Record) : Fields Json := r.extras.filter (fun p => p.1 ∉ hidden)

/-- The current run id, if there is one and it is not empty. -/
def shownId (runId : Option Text) : Option Text := runId.filter (· ≠ [])

/-- What is shown of an attribute, unless a further field of its name says otherwise. -/
def attributeValue (r : Record) (name own : Text) : Json := (r.extras.get? name).getD (.str own)

def shownLevel (r : Record) : Json := r.attributeValue "levelname" (Level.name r.level)

def shownLogger (r : Record) : Json := r.attributeValue "name" r.logger

def base (r : Record) (clock : Clock) (runId : Option Text) : Fields Json :=
  let always : Fields Json :=
    [("timestamp", .str (.ofChars clock.universal.universal)),
      ("level", r.shownLevel), ("logger", r.shownLogger), ("message", .str r.message)]
  let id : Fields Json := match shownId runId with
    | some id => [("run_id", .str id)]
    | none => []
  let exception : Fields Json := match r.exception with
    | some e => [("exception", .str e)]
    | none => []
  always ++ id ++ exception

def toJson (r : Record) (clock : Clock) (runId : Option Text) : Json :=
  .obj (r.shown.foldl (fun fs p => Assoc.put fs p.1 p.2) (r.base clock runId))

/-- The first twelve code points of a run id. -/
def shortId (id : Text) : Text := id.take 12

/-- A further field in a line for people. -/
def pair (p : Text × Json) : Text := .ofChar ' ' :: (p.1 ++ .ofChar '=' :: p.2.display)

def human (r : Record) (clock : Clock) (runId : Option Text) : Text :=
  let id : Text := match shownId runId with
    | some id => "[" ++ shortId id ++ "] "
    | none => []
  Text.ofChars clock.civil.plain ++ " [" ++ r.shownLevel.display ++ "] " ++ r.shownLogger.display ++
    ": " ++ id ++ r.message ++ r.shown.flatMap pair

/-- The line of a record, if there is one. -/
def line (r : Record) (layout : Layout) (clock : Clock) (runId : Option Text) : Text :=
  match layout with
  | .json => .ofChars (r.toJson clock runId).line
  | .human => r.human clock runId

/-- Whether all values that a layout shows can be written. -/
def isWritable (r : Record) (layout : Layout) (clock : Clock) (runId : Option Text) : Bool :=
  match layout with
  | .json => (r.toJson clock runId).isWritable
  | .human =>
    r.shown.all (·.2.isWritable) && r.shownLevel.isWritable && r.shownLogger.isWritable

/-- The line of a record that says this when it is asked for its message. In JSON it is asked before
its values are written, and for people afterwards. -/
def write (r : Record) (message : Except Fault Text) (layout : Layout) (clock : Clock)
    (runId : Option Text) : Except Fault Text :=
  let line (m : Text) : Text := { r with message := m }.line layout clock runId
  match layout with
  | .json => message.bind fun m =>
    if r.isWritable .json clock runId then .ok (line m) else .error .longInteger
  | .human =>
    if r.isWritable .human clock runId then message.map line else .error .longInteger

/-- The line of a record with its own message. The name of a level has the number in it, unless the level
is one of those that are named. -/
def render (r : Record) (layout : Layout) (clock : Clock) (runId : Option Text) :
    Except Fault Text :=
  if Json.isShort r.level then r.write (asked r.extras (.ok r.message)) layout clock runId
  else .error .longInteger

end Record

/-- The exception of a record: its kind, and its message if it has one. -/
def exceptionText (kind message : Text) : Text :=
  if message = [] then kind else kind ++ ": " ++ message

/-- The exception of a record, unless a further field says that there is none. -/
def exceptionOf (own : Option Text) (extras : Fields Json) : Option Text :=
  if (extras.get? "exc_info").any isVoid then none else own

end Allowlist.Log
