import Allowlist.Settings.Basic
import Allowlist.Text.Decimal

/-!
# Options

The arguments of the command line. All of them get their role before any takes effect: a long option
may be cut short as long as it stays unique, and what looks like a negative number or holds a blank is
no option. Behind a double dash nothing is one.
-/
namespace Allowlist.Command

inductive Opt where
  | help
  | variant
  | strict
  | check
  | config
  | logLevel
  | logFormat
  deriving DecidableEq, Repr

namespace Opt

/-- Every spelling, in the order in which ambiguous ones are listed. -/
def spellings : List (Text × Opt) :=
  [("-h", .help), ("--help", .help), ("--variant", .variant), ("--strict", .strict),
    ("--check", .check), ("--config", .config), ("--log-level", .logLevel),
    ("--log-format", .logFormat)]

/-- How errors name an option. -/
def name (o : Opt) : Text :=
  Text.join "/" ((spellings.filter (·.2 = o)).map Prod.fst)

def takesValue : Opt → Bool
  | .variant => true
  | .config => true
  | .logLevel => true
  | .logFormat => true
  | _ => false

/-- The values that an option may take, if not any. -/
def choices? : Opt → Option (List Text)
  | .variant => some (Variant.all.map (·.name))
  | .logLevel => some (LevelName.all.map (·.name))
  | .logFormat => some (LogFormat.all.map (·.name))
  | _ => none

end Opt

inductive UsageError where
  | ambiguous (argument : Text) (spellings : List Text)
  | expectedArgument (o : Opt)
  | ignoredArgument (o : Opt) (argument : Text)
  | invalidChoice (o : Opt) (argument : Text) (choices : List Text)
  | notAllowedWith (o other : Opt)
  | unrecognized (arguments : List Text)
  deriving DecidableEq

namespace UsageError

def about (o : Opt) (text : Text) : Text := "argument " ++ o.name ++ ": " ++ text

def message : UsageError → Text
  | .ambiguous argument spellings =>
    "ambiguous option: " ++ argument ++ " could match " ++ Text.join ", " spellings
  | .expectedArgument o => about o "expected one argument"
  | .ignoredArgument o argument =>
    about o ("ignored explicit argument " ++ .ofChars argument.quoted)
  | .invalidChoice o argument choices =>
    about o ("invalid choice: " ++ .ofChars argument.quoted ++ " (choose from " ++
      Text.join ", " (choices.map fun c => .ofChars c.quoted) ++ ")")
  | .notAllowedWith o other => about o ("not allowed with argument " ++ other.name)
  | .unrecognized arguments => "unrecognized arguments: " ++ Text.join " " arguments

end UsageError

/-- What is attached to an option: a value behind an equals sign, or letters right behind a single
one. -/
inductive Attached where
  | nothing
  | value (t : Text)
  | letters (t : Text)

/-- The role of an argument; an unknown one has the form of an option. -/
inductive Role where
  | positional
  | separator
  | option (o : Opt) (attached : Attached)
  | unknown

def dash : CodePoint := .ofChar '-'

def equals : CodePoint := .ofChar '='

def separator : Text := [dash, dash]

/-- The part before the first equals sign, and the value behind it if there is one. -/
def splitValue (t : Text) : Text × Attached :=
  match t.dropWhile (· ≠ equals) with
  | _ :: value => (t.takeWhile (· ≠ equals), .value value)
  | [] => (t, .nothing)

/-- Digits, perhaps with a point, behind a dash. One line feed may stand at the end. -/
def isNegativeNumber (t : Text) : Bool :=
  let t := if t.getLast? = some (.ofChar '\n') then t.dropLast else t
  match t with
  | c :: rest =>
    c = dash &&
      match rest.dropWhile Text.isDecimalDigit with
      | [] => rest ≠ []
      | point :: digits => point = .ofChar '.' && digits ≠ [] && digits.all Text.isDecimalDigit
  | [] => false

/-- The options that an argument may stand for when it is no spelling: those that it begins, or the
one of a single letter that begins it. -/
def candidates (t : Text) : List (Text × Opt × Attached) :=
  if separator.isPrefixOf t then
    let (start, value) := splitValue t
    (Opt.spellings.filter (fun s => start.isPrefixOf s.1)).map fun s => (s.1, s.2, value)
  else
    Opt.spellings.filterMap fun s =>
      if s.1 = t.take 2 then some (s.1, s.2, .letters (t.drop 2))
      else if t.isPrefixOf s.1 then some (s.1, s.2, .nothing)
      else none

def spelt? (t : Text) : Option Opt := Opt.spellings.lookup t

def roleOf (t : Text) : Except UsageError Role :=
  if t.head? ≠ some dash ∨ t = [dash] then .ok .positional
  else
    let (start, value) := splitValue t
    match spelt? t, spelt? start with
    | some o, _ => .ok (.option o .nothing)
    | none, some o => .ok (.option o value)
    | none, none =>
      match candidates t with
      | [(_, o, attached)] => .ok (.option o attached)
      | [] =>
        if isNegativeNumber t || t.contains (.ofChar ' ') then .ok .positional else .ok .unknown
      | several => .error (.ambiguous t (several.map Prod.fst))

/-- An argument with its role. -/
abbrev Piece := Text × Role

def piecesOf : List Text → Except UsageError (List Piece)
  | [] => .ok []
  | t :: rest =>
    if t = separator then .ok ((t, .separator) :: rest.map fun t => (t, .positional))
    else do
      let role ← roleOf t
      let pieces ← piecesOf rest
      .ok ((t, role) :: pieces)

end Allowlist.Command
