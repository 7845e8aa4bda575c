import Allowlist.Json.Render
import Allowlist.Text.Quoted

/-!
# JSON values in messages

A value that a message shows has its constants capitalised and its strings quoted as text; a string
by itself is shown as it is.
-/
namespace Allowlist.Json

def messageStyle : Style where
  null := "None".toList
  yes := "True".toList
  no := "False".toList
  number := { numberLayout with infinity := "inf".toList, nan := "nan".toList }
  quote := Text.quoted
  comma := [',', ' ']
  colon := [':', ' ']

/-- The value inside a sentence. -/
def quoted (v : Json) : Text := Text.ofChars (v.render messageStyle)

/-- The value on its own: a string without quotes. -/
def display : Json → Text
  | .str s => s
  | v => v.quoted

/-- How a message names what kind of thing a value is. -/
def className : Json → Text
  | .null => "NoneType"
  | .bool _ => "bool"
  | .int _ => "int"
  | .float _ => "float"
  | .str _ => "str"
  | .arr _ => "list"
  | .obj _ => "dict"

end Allowlist.Json
