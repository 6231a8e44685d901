import EmulationBindings.Text.Basic

/-!
# Lines

A text is cut at its line feeds and nowhere else.  A carriage return just before a line feed
belongs to the line ending and is dropped; every other one stays inside its line.
-/

namespace EmulationBindings.Text

def dropReturn (line : Text) : Text :=
  if line.getLast? = some '\r' then line.dropLast else line

/-- Drops the carriage return of every piece that a line feed follows, so of all but the last. -/
def dropReturns : List Text → List Text
  | [] => []
  | [last] => [last]
  | piece :: next :: rest => dropReturn piece :: dropReturns (next :: rest)

def lines (t : Text) : List Text := dropReturns (t.splitOn '\n')

/-- Reads every line ending, `\r\n` or a lone `\r`, as a line feed. -/
def unifyNewlines : Text → Text
  | [] => []
  | '\r' :: '\n' :: t => '\n' :: unifyNewlines t
  | c :: t => (if c = '\r' then '\n' else c) :: unifyNewlines t

end EmulationBindings.Text
