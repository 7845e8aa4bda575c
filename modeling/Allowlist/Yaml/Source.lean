import Allowlist.Text.Pieces
import Allowlist.Yaml.Fault

/-!
# The text of a settings file

A settings file is taken in loads: its first two pieces together, then one piece at a time. What is wrong
with a load, bytes that are no text or a character that is not permitted, is met by whoever needs a
character of it, and not before.
-/
namespace Allowlist.Yaml

/-- Characters, and the fault behind them; without one the text ends there. -/
structure Source where
  chars : List Char
  ending : Option Fault

namespace Source

/-- Whether a settings file may hold the character. -/
def isPermitted (c : Char) : Bool :=
  c = '\t' || c = '\n' || (' ' ≤ c && c ≤ '~') || c = '\x85' || ('\xa0' ≤ c && c ≤ '\ufffd') ||
    0x10000 ≤ c.toNat

def ofLoads (ending : Option Fault) : List (List Char) → Source
  | [] => ⟨[], ending⟩
  | load :: rest =>
    if load.all isPermitted then
      let s := ofLoads ending rest
      ⟨load ++ s.chars, s.ending⟩
    else ⟨[], some .malformed⟩

/-- A fault in one of the first two pieces leaves nothing. -/
def ofPieces (fault : Option Utf8.Fault) : List (List Char) → Source
  | a :: b :: rest => ofLoads (fault.map .notUtf8) ((a ++ b) :: rest)
  | pieces =>
    match fault with
    | some f => ⟨[], some (.notUtf8 f)⟩
    | none => ofLoads none pieces

def ofBytes (bs : Utf8.Bytes) : Source :=
  let (pieces, fault) := Pieces.read bs
  ofPieces fault pieces

end Source

end Allowlist.Yaml
