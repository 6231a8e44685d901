import EmulationBindings.Text.Basic
import EmulationBindings.Text.Printable

/-!
# Quoted texts

How a text that comes from outside is shown inside a message: between quotes, with the quote, the
backslash and everything that does not print written as an escape.
-/

namespace EmulationBindings.Text

/-- Apostrophes enclose the text, unless it holds one and no double quote. -/
def quoteMark (t : Text) : Char :=
  if t.contains '\'' && !t.contains '"' then '"' else '\''

def quotedChar (mark c : Char) : Text :=
  if c = mark ∨ c = '\\' then ['\\', c]
  else if c = '\n' then "\\n"
  else if c = '\r' then "\\r"
  else if c = '\t' then "\\t"
  else if isPrintable c then [c]
  else if c.toNat < 0x100 then "\\x" ++ hex 2 c.toNat
  else if c.toNat < 0x10000 then "\\u" ++ hex 4 c.toNat
  else "\\U" ++ hex 8 c.toNat

def quoted (t : Text) : Text :=
  let mark := quoteMark t
  mark :: t.flatMap (quotedChar mark) ++ [mark]

end EmulationBindings.Text
