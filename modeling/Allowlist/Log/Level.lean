import Allowlist.Number.Digits
import Allowlist.Text.Quoted
import Allowlist.Text.Uppercase

/-!
# Log levels

A level is a number; some have names, two of them two. A name is looked up in upper case.
-/
namespace Allowlist.Log

abbrev Level := Int

namespace Level

def debug : Level := 10
def info : Level := 20
def warning : Level := 30
def error : Level := 40
def critical : Level := 50

/-- The names under which a level can be asked for. -/
def names : List (Text × Level) :=
  [("NOTSET", 0), ("DEBUG", debug), ("INFO", info), ("WARNING", warning), ("WARN", warning),
    ("ERROR", error), ("CRITICAL", critical), ("FATAL", critical)]

/-- The name of a level in a record. -/
def name (l : Level) : Text :=
  if l = 0 then "NOTSET"
  else if l = debug then "DEBUG"
  else if l = info then "INFO"
  else if l = warning then "WARNING"
  else if l = error then "ERROR"
  else if l = critical then "CRITICAL"
  else "Level " ++ .ofChars (Digits.integer l)

/-- The default line format and the line formats by the character that marks a field. Their names
are looked up like those of levels. -/
def lineFormat : Text := "%(levelname)s:%(name)s:%(message)s"

def lineFormats : Text :=
  "\x7b'%': (<class 'logging.PercentStyle'>, '%(levelname)s:%(name)s:%(message)s'), " ++
  "'\x7b': (<class 'logging.StrFormatStyle'>, '\x7blevelname\x7d:\x7bname\x7d:\x7bmessage\x7d'), " ++
  "'$': (<class 'logging.StringTemplateStyle'>, '$\x7blevelname\x7d:$\x7bname\x7d:$\x7bmessage\x7d')\x7d"

/-- Why a name is not that of a level: there is nothing of that name, or something else. -/
inductive Unknown where
  | noSuchName (name : Text)
  | lineFormat
  | lineFormats
  deriving DecidableEq

def Unknown.message : Unknown → Text
  | .noSuchName name => "module 'logging' has no attribute " ++ "'" ++ name ++ "'"
  | .lineFormat => "Unknown level: " ++ .ofChars (Text.quoted Level.lineFormat)
  | .lineFormats => "Level not an integer or a valid string: " ++ Level.lineFormats

def named (name : Text) : Except Unknown Level :=
  let upper := name.toUpper
  match names.lookup upper with
  | some l => .ok l
  | none =>
    .error (if upper = "BASIC_FORMAT" then .lineFormat
      else if upper = "_STYLES" then .lineFormats
      else .noSuchName upper)

end Level

end Allowlist.Log
