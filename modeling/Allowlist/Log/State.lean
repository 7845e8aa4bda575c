import Allowlist.Log.Record

/-!
# The state of logging

Every handler writes every record, each in its own layout, from one level upwards; without a handler
warnings are written bare. Setting up takes away the handlers that are there and adds one. A run
context puts its id in the place of the current one while it is entered and then puts back what was
current.
-/
namespace Allowlist.Log

/-- Why a step fails: its level has no such name or too many digits, or a further field must not have
its name. -/
inductive Refusal where
  | unknownLevel (e : Level.Unknown)
  | longLevel
  | forbiddenField (key : Text)
  deriving DecidableEq

/-- What the handlers make of a record: its line, or why there is none. -/
abbrev Output := List (Except Fault Text)

structure State where
  level : Level
  /-- The layouts of the handlers, in the order in which they were added. -/
  handlers : List Layout
  runId : Option Text
  /-- How many run ids have been made. -/
  made : Nat

namespace State

def start : State := ⟨Level.warning, [], none, 0⟩

def setLevel (s : State) (level : Level) : State := { s with level }

def addHandler (s : State) (layout : Layout) : State :=
  { s with handlers := s.handlers ++ [layout] }

def removeHandler (s : State) (layout : Layout) : State :=
  { s with handlers := s.handlers.erase layout }

/-- Takes away one after the other the handlers that are there. -/
def removeHandlers (s : State) : State := s.handlers.foldl removeHandler s

/-- Sets the level, and a handler in the place of those that are there. -/
def set (s : State) (level : Level) (layout : Layout) : State :=
  ((s.setLevel level).removeHandlers).addHandler layout

/-- Sets level and layout by the name of the level. The level is looked up before anything is
changed. -/
def configure (s : State) (level : Text) (layout : Layout) : State × Except Level.Unknown Unit :=
  match Level.named level with
  | .error e => (s, .error e)
  | .ok l => (s.set l layout, .ok ())

def newline : Text := [.ofChar '\n']

/-- What the handlers make of a record. -/
def emit (s : State) (clock : Clock) (r : Record) : Output :=
  match s.handlers with
  | [] => if Level.warning ≤ r.level then [asked r.extras (.ok r.message)] else []
  | layouts => layouts.map fun layout => r.render layout clock s.runId

/-- Whether records of a level are looked at: the level is positive and not below the one set. -/
def enabled (s : State) (l : Level) : Bool := 0 < l && s.level ≤ l

/-- The logger without a name is the root logger. -/
def loggerName (name : Text) : Text := if name = [] then "root" else name

/-- What a call to log writes, or why it fails. The level gets its name before the further fields are
looked at. -/
def log (s : State) (clock : Clock) (r : Record) : Except Refusal Output :=
  if s.enabled r.level then
    if Json.isShort r.level then
      match r.extras.keys.find? (· ∈ forbidden) with
      | some key => .error (.forbiddenField key)
      | none => .ok (s.emit clock { r with logger := loggerName r.logger })
    else .error .longLevel
  else .ok []

end State

/-- What output writes: each line that there is. -/
def Output.text (o : Output) : Text :=
  o.flatMap fun
    | .ok line => line ++ State.newline
    | .error _ => []

/-- The message for a further field that a record must not have. -/
def forbiddenMessage (key : Text) : Text :=
  .ofChars (Text.quoted ("Attempt to overwrite " ++ .ofChars key.quoted ++ " in LogRecord"))

/-- The run id that is made as the given one in a sequence. -/
def runIdOf (n : Nat) : Text := "run-" ++ .ofChars (Digits.fixed 16 16 n)

/-- A run context has an id and, while it is entered, the run id that it replaced. -/
structure Context where
  id : Text
  replaced : Option (Option Text)

namespace Context

/-- A context with the given id; one is made if there is none or if it is empty. -/
def new (s : State) (id : Option Text) : Context × State :=
  match Record.shownId id with
  | some id => (⟨id, none⟩, s)
  | none => (⟨runIdOf (s.made + 1), none⟩, { s with made := s.made + 1 })

def enter (c : Context) (s : State) : Context × State :=
  ({ c with replaced := some s.runId }, { s with runId := some c.id })

/-- Puts back what the last entry replaced; a context that is not entered changes nothing. -/
def exit (c : Context) (s : State) : Context × State :=
  match c.replaced with
  | none => (c, s)
  | some old => ({ c with replaced := none }, { s with runId := old })

end Context

end Allowlist.Log
