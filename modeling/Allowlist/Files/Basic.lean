import Allowlist.Assoc
import Allowlist.Files.Path
import Allowlist.Text.Utf8

/-!
# Files and directories

The state of a file system: the directories and regular files below the root, each under its
location, and the working directory. A location is the list of names from the root; it holds no
name for a parent. The root itself is always a directory.
-/
namespace Allowlist

abbrev Location := List Text

inductive Node where
  | directory
  | file (content : Utf8.Bytes)
  deriving DecidableEq

structure Files where
  workingDirectory : Location
  nodes : Assoc Location Node
  deriving DecidableEq

namespace Files

/-- Why the file system refuses an operation. -/
inductive Refusal where
  | notFound
  | notDirectory
  | isDirectory
  | alreadyThere
  | nameTooLong
  deriving DecidableEq, Repr

def Refusal.message : Refusal → Text
  | .notFound => "No such file or directory"
  | .notDirectory => "Not a directory"
  | .isDirectory => "Is a directory"
  | .alreadyThere => "File exists"
  | .nameTooLong => "File name too long"

inductive Error where
  | refused (r : Refusal)
  | badPath (f : Path.Fault)
  deriving DecidableEq, Repr

def node? (fs : Files) (l : Location) : Option Node :=
  if l = [] then some .directory else fs.nodes.get? l

def place (fs : Files) (l : Location) (n : Node) : Files :=
  { fs with nodes := fs.nodes.put l n }

theorem node?_place (fs : Files) {l : Location} (n : Node) (l' : Location) (h : l ≠ []) :
    (fs.place l n).node? l' = if l' = l then some n else fs.node? l' := by
  by_cases hl : l' = []
  · subst hl
    simp [node?, Ne.symm h]
  · simp [node?, place, hl, Assoc.get?_put]

/-- Refuses what is not a directory. -/
def directoryAt (fs : Files) (l : Location) : Except Refusal Unit :=
  match fs.node? l with
  | some .directory => .ok ()
  | some (.file _) => .error .notDirectory
  | none => .error .notFound

def isParentName (name : Text) : Bool := name = ".."

/-- Follows names from a location, each of which has to be there. -/
def walk (fs : Files) (l : Location) : List Text → Except Refusal Location
  | [] => .ok l
  | name :: rest =>
    match fs.directoryAt l with
    | .error r => .error r
    | .ok () =>
      if isParentName name then walk fs l.dropLast rest
      else if Path.maxName < Path.size name then .error .nameTooLong
      else if (fs.node? (l ++ [name])).isNone then .error .notFound
      else walk fs (l ++ [name]) rest

def startOf (fs : Files) (p : Path) : Location :=
  match p.anchor with
  | .here => fs.workingDirectory
  | _ => []

/-- Refuses a path that no file can have. -/
def permit (p : Path) : Except Error Unit :=
  match p.fault? with
  | some f => .error (.badPath f)
  | none => if Path.maxPath < Path.size p.text then .error (.refused .nameTooLong) else .ok ()

/-- The location and node of a path that is there. -/
def lookup (fs : Files) (p : Path) : Except Error (Location × Node) :=
  match permit p with
  | .error e => .error e
  | .ok () =>
    match fs.walk (fs.startOf p) p.names with
    | .error r => .error (.refused r)
    | .ok l =>
      match fs.node? l with
      | some n => .ok (l, n)
      | none => .error (.refused .notFound)

/-- The location that a path names, where the last name need not be there; without a last name, or
if it is that of a parent, the location is a directory. -/
def target (fs : Files) (p : Path) : Except Error Location :=
  match permit p with
  | .error e => .error e
  | .ok () =>
    match p.names.getLast? with
    | none => .ok (fs.startOf p)
    | some name =>
      match fs.walk (fs.startOf p) p.names.dropLast with
      | .error r => .error (.refused r)
      | .ok l =>
        match fs.directoryAt l with
        | .error r => .error (.refused r)
        | .ok () =>
          if isParentName name then .ok l.dropLast
          else if Path.maxName < Path.size name then .error (.refused .nameTooLong)
          else .ok (l ++ [name])

/-- The content of a regular file. -/
def read (fs : Files) (p : Path) : Except Error Utf8.Bytes :=
  match fs.lookup p with
  | .error e => .error e
  | .ok (_, .directory) => .error (.refused .isDirectory)
  | .ok (_, .file content) => .ok content

/-- Gives a regular file its content, and makes the file if it is not there. -/
def write (fs : Files) (p : Path) (content : Utf8.Bytes) : Except Error Files :=
  match fs.target p with
  | .error e => .error e
  | .ok l =>
    match fs.node? l with
    | some .directory => .error (.refused .isDirectory)
    | _ => .ok (fs.place l (.file content))

/-- Makes one directory whose parent is there. -/
def makeDirectory (fs : Files) (p : Path) : Except Error Files :=
  match fs.target p with
  | .error e => .error e
  | .ok l =>
    match fs.node? l with
    | some _ => .error (.refused .alreadyThere)
    | none => .ok (fs.place l .directory)

def isDirectory (fs : Files) (p : Path) : Bool :=
  match fs.lookup p with
  | .ok (_, .directory) => true
  | _ => false

/-- Makes one directory unless it is there. -/
def ensureDirectory (fs : Files) (p : Path) : Except Error Files :=
  match fs.makeDirectory p with
  | .ok fs => .ok fs
  | .error (.refused .notFound) => .error (.refused .notFound)
  | .error (.refused r) => if fs.isDirectory p then .ok fs else .error (.refused r)
  | .error e => .error e

/-- What an operation leaves behind, and why it failed if it did. -/
abbrev Outcome := Files × Except Error Unit

/-- Makes a directory, and before it its parents if they are not there; the names come last one
first. A failure leaves the parents made so far. -/
def makeDirectoriesFrom (fs : Files) (anchor : Anchor) : List Text → Outcome
  | [] =>
    match fs.ensureDirectory ⟨anchor, []⟩ with
    | .ok fs => (fs, .ok ())
    | .error e => (fs, .error e)
  | name :: up =>
    let p : Path := ⟨anchor, (name :: up).reverse⟩
    match fs.ensureDirectory p with
    | .ok fs => (fs, .ok ())
    | .error (.refused .notFound) =>
      match makeDirectoriesFrom fs anchor up with
      | (fs, .error e) => (fs, .error e)
      | (fs, .ok ()) =>
        match fs.ensureDirectory p with
        | .ok fs => (fs, .ok ())
        | .error e => (fs, .error e)
    | .error e => (fs, .error e)

def makeDirectories (fs : Files) (p : Path) : Outcome :=
  fs.makeDirectoriesFrom p.anchor p.names.reverse

/-- Writes a file, and makes its directory if need be. -/
def store (fs : Files) (p : Path) (content : Utf8.Bytes) : Outcome :=
  match fs.makeDirectories p.parent with
  | (fs, .error e) => (fs, .error e)
  | (fs, .ok ()) =>
    match fs.write p content with
    | .ok fs => (fs, .ok ())
    | .error e => (fs, .error e)

end Files

end Allowlist
