import Allowlist.Command.Run
import Std.Time.Zoned

/-!
# The program

The command line on a real file system. What lies along the paths of a run is read first, the run
itself is that of the library, and what it changed is written afterwards.
-/
namespace Allowlist.Program

def string (t : Text) : String := String.ofList t.encodable

/-- The name of a location for the system. -/
def nameOf (l : Location) : String := "/" ++ string (Text.join "/" l)

def nodeAt (l : Location) : IO (Option Node) := do
  try
    let _ ← IO.FS.realPath (nameOf l ++ "/.")
    return some .directory
  catch _ =>
    try
      let content ← IO.FS.readBinFile (nameOf l)
      return some (.file content.toList)
    catch _ => return none

/-- The locations from `l` along names. -/
def along (l : Location) : List Text → List Location
  | [] => [l]
  | name :: rest =>
    l :: along (if Files.isParentName name then l.dropLast else l ++ [name]) rest

/-- Reads what lies along a path. -/
def survey (fs : Files) (path : Text) : IO Files := do
  let p := Path.ofText path
  if p.fault?.isSome then return fs
  (along (fs.startOf p) p.names).foldlM (fun (fs : Files) l => do
    match ← nodeAt l with
    | some n => return (if l = [] then fs else fs.place l n)
    | none => return fs) fs

/-- Reads what a run may look at: the settings file, and then the files that arguments and settings
name. -/
def surveyFor (c : Command.Call) (fs : Files) : IO Files := do
  match Command.readArguments c.arguments with
  | .error _ => return fs
  | .ok a =>
    let fs ← match Settings.fileOf a.config c.environment with
      | some path => survey fs path
      | none => pure fs
    match Settings.load fs a.config c.environment with
    | .error _ => return fs
    | .ok s =>
      let p := Command.Plan.of a s c.terminal
      survey (← survey fs p.source) p.destination

/-- Writes what has changed. -/
def store (before after : Files) : IO Unit := do
  for (l, n) in after.nodes do
    if before.nodes.get? l ≠ some n then
      match n with
      | .directory => IO.FS.createDir (nameOf l)
      | .file content => IO.FS.writeBinFile (nameOf l) ⟨content.toArray⟩

def environment : IO Settings.Environment := do
  let names := Settings.fileVariable :: Settings.Field.all.map (·.environmentName)
  names.filterMapM fun name => do
    return (← IO.getEnv (string name)).map fun v => (name, (v : Text))

def timestamp (d : Std.Time.PlainDateTime) : Log.Timestamp where
  year := d.year.toInt.toNat
  month := d.month.val.toNat
  day := d.day.val.toNat
  hour := d.hour.val.toNat
  minute := d.minute.val.toNat
  second := d.second.val.toNat
  microsecond := d.nanosecond.val.toNat / 1000

def clock : IO Log.Clock := do
  let now ← Std.Time.Timestamp.now
  let civil ← Std.Time.PlainDateTime.now
  return ⟨timestamp (.ofWallTime (now.toWallTime .zero)), timestamp civil⟩

/-- A random number of 64 bits, where the sequence of run ids starts. -/
def seed : IO Nat := do
  return (← IO.getRandomBytes 8).toList.foldl (fun n b => 256 * n + b.toNat) 0

def escapeMessage : Command.Escape → Text
  | .settings e => e.message
  | .failure f => f.message
  | .output t => "standard output does not take " ++ .ofChars t.quoted

/-- A run on the real file system, and its exit code. -/
def run (arguments : List Text) : IO UInt32 := do
  let terminal ← (← IO.getStderr).isTty
  let call : Command.Call :=
    ⟨arguments, ← environment, ← clock, "policygen.cli", terminal, .unicode⟩
  let here : Text := toString (← IO.currentDir)
  let files ← surveyFor call ⟨(Path.ofText here).names, []⟩
  let log := { Log.State.start with made := ← seed }
  let (world, result) := Command.run call ⟨files, log⟩
  store files world.files
  match result with
  | .ok r =>
    IO.print (string r.out)
    IO.eprint (string r.err)
    return UInt32.ofNat r.code
  | .error e =>
    IO.eprintln (string (escapeMessage e))
    return 1

end Allowlist.Program

def main (arguments : List String) : IO UInt32 := do
  try
    Allowlist.Program.run (arguments.map .ofString)
  catch e =>
    IO.eprintln ("❌ " ++ toString e)
    return 2
