import Allowlist.Command.Options

/-!
# Arguments

What the command line asks for. Arguments take effect from left to right. The first run of positional
ones gives the source and the destination, and is the only one that does; whatever is left over at
the end is an error, unless help was asked for before.
-/
namespace Allowlist.Command

structure Arguments where
  source : Option Text
  destination : Option Text
  variant : Option Variant
  check : Bool
  config : Option Text
  logLevel : Option LevelName
  logFormat : Option LogFormat

def Arguments.none : Arguments := ⟨.none, .none, .none, false, .none, .none, .none⟩

/-- The state of reading: what was asked for so far, whether the positional arguments are still to
come, which of the two options for the variant have occurred, and what could not be used. -/
structure Reading where
  arguments : Arguments
  pending : Bool
  named : Bool
  strict : Bool
  unused : List Text

def Reading.start : Reading := ⟨.none, true, false, false, []⟩

/-- Why reading stops before the end. -/
inductive Halt where
  | help
  | error (e : UsageError)

def isPositional : Piece → Bool
  | (_, .positional) => true
  | _ => false

def isSeparator : Piece → Bool
  | (_, .separator) => true
  | _ => false

/-- Whether the form of an argument is that of an option. -/
def isOption : Piece → Bool
  | (_, .option _ _) => true
  | (_, .unknown) => true
  | _ => false

/-- One positional argument with the separators around it, if it is there. -/
def takeGroup (ps : List Piece) : List Text × List Piece :=
  let before := ps.takeWhile isSeparator
  let rest := ps.drop before.length
  let one := (rest.take 1).takeWhile isPositional
  let rest := rest.drop one.length
  let after := rest.takeWhile isSeparator
  ((before ++ one ++ after).map Prod.fst, rest.drop after.length)

/-- The value of a group: what is left without the first double dash. -/
def groupValue (group : List Text) : Option Text := (group.erase separator).head?

/-- Takes source and destination, unless they were taken before. -/
def takePositionals (r : Reading) (ps : List Piece) : Reading × List Piece :=
  if r.pending then
    let (first, rest) := takeGroup ps
    let (second, rest) := takeGroup rest
    ({ r with
      pending := false
      arguments := { r.arguments with
        source := groupValue first
        destination := groupValue second } }, rest)
  else (r, ps)

/-- Refuses a value that is not one of the choices. -/
def accept (o : Opt) (value : Text) : Except UsageError Unit :=
  match o.choices? with
  | none => .ok ()
  | some choices => if value ∈ choices then .ok () else .error (.invalidChoice o value choices)

def Arguments.put (a : Arguments) (o : Opt) (value : Text) : Arguments :=
  match o with
  | .variant => { a with variant := Variant.named? value }
  | .config => { a with config := some value }
  | .logLevel => { a with logLevel := LevelName.named? value }
  | .logFormat => { a with logFormat := LogFormat.named? value }
  | _ => a

/-- Gives an option its value. -/
def assign (r : Reading) (o : Opt) (value : Text) : Except UsageError Reading := do
  accept o value
  if o = .variant ∧ r.strict then .error (.notAllowedWith .variant .strict)
  else .ok { r with named := r.named || o = .variant, arguments := r.arguments.put o value }

/-- Carries out an option that takes no value. -/
def apply (r : Reading) (o : Opt) : Except Halt Reading :=
  match o with
  | .help => .error .help
  | .strict =>
    if r.named then .error (.error (.notAllowedWith .strict .variant))
    else .ok { r with strict := true, arguments := { r.arguments with variant := some .strict } }
  | .check => .ok { r with arguments := { r.arguments with check := true } }
  | _ => .ok r

/-- What letters behind the one for help ask for: help, unless a dash or a value follows those that
repeat it. -/
def cluster (o : Opt) : Text → Halt
  | [] => .help
  | c :: rest =>
    if c = dash then .error (.ignoredArgument o (c :: rest))
    else if c = equals then .error (.ignoredArgument o rest)
    else if spelt? [dash, c] = some o then cluster o rest
    else .help

/-- Takes an option and its value off the front. -/
def takeOption (r : Reading) (o : Opt) (attached : Attached) (rest : List Piece) :
    Except Halt (Reading × List Piece) :=
  match attached with
  | .letters t => .error (cluster o t)
  | .value t =>
    if o.takesValue then do
      let r ← (assign r o t).mapError .error
      .ok (r, rest)
    else .error (.error (.ignoredArgument o t))
  | .nothing =>
    if o.takesValue then
      match rest with
      | (t, .positional) :: rest => do
        let r ← (assign r o t).mapError .error
        .ok (r, rest)
      | _ => .error (.error (.expectedArgument o))
    else do
      let r ← apply r o
      .ok (r, rest)

/-- Reads the pieces that are left; `fuel` bounds their number. -/
def readFrom : Nat → Reading → List Piece → Except Halt Reading
  | 0, r, _ => .ok r
  | fuel + 1, r, ps =>
    if ps.any isOption then
      match ps with
      | (_, .option o attached) :: rest => do
        let (r, rest) ← takeOption r o attached rest
        readFrom fuel r rest
      | (t, .unknown) :: rest => readFrom fuel { r with unused := r.unused ++ [t] } rest
      | _ =>
        let (r, rest) := takePositionals r ps
        let left := rest.takeWhile (fun p => !isOption p)
        readFrom fuel { r with unused := r.unused ++ left.map Prod.fst } (rest.drop left.length)
    else
      let (r, rest) := takePositionals r ps
      let unused := r.unused ++ rest.map Prod.fst
      if unused = [] then .ok r else .error (.error (.unrecognized unused))

/-- What the arguments of the command line ask for. -/
def readArguments (ts : List Text) : Except Halt Arguments :=
  match piecesOf ts with
  | .error e => .error (.error e)
  | .ok ps =>
    match readFrom (ts.length + 1) .start ps with
    | .error h => .error h
    | .ok r => .ok r.arguments

end Allowlist.Command
