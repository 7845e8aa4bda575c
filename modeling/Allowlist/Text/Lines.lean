/-!
# Line ends

Text files end their lines with a line feed, a carriage return, or both; once read, all lines end
with a line feed.
-/
namespace Allowlist.Lines

def unify : List Char → List Char
  | [] => []
  | '\r' :: '\n' :: cs => '\n' :: unify cs
  | '\r' :: cs => '\n' :: unify cs
  | c :: cs => c :: unify cs

/-- The line and column, from one, of the place after `before`. Only a line feed ends a line. -/
def place (before : List Char) : Nat × Nat :=
  before.foldl (fun (line, column) c => if c = '\n' then (line + 1, 1) else (line, column + 1)) (1, 1)

end Allowlist.Lines
