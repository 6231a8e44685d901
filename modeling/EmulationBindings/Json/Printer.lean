import EmulationBindings.Json.CodeUnit
import EmulationBindings.Json.Value

/-!
# Writing JSON

Values as ASCII text, two spaces deeper per level, an item or a member a line.  A character that
is not printable ASCII is written as the escapes of its UTF-16 code units.
-/

namespace EmulationBindings.Json

def escapeChar (c : Char) : Text :=
  let n := c.toNat
  if c = '"' then "\\\""
  else if c = '\\' then "\\\\"
  else if c = '\n' then "\\n"
  else if c = '\r' then "\\r"
  else if c = '\t' then "\\t"
  else if c = '\x08' then "\\b"
  else if c = '\x0c' then "\\f"
  else if 0x20 ≤ n ∧ n ≤ 0x7E then [c]
  else if n < 0x10000 then unitEscape n
  else unitEscape (0xD800 + (n - 0x10000) / 0x400) ++ unitEscape (0xDC00 + (n - 0x10000) % 0x400)

def quote (s : Text) : Text := '"' :: s.flatMap escapeChar ++ ['"']

/-- A string by its code points; each surrogate is an escape of its own. -/
def quotePoints (points : List Nat) : Text :=
  '"' :: (points.flatMap fun n =>
    if isSurrogate n then unitEscape n else escapeChar (.ofNat n)) ++ ['"']

def Decimal.text (d : Decimal) : Text :=
  (if d.negative then ['-'] else []) ++ Text.ofNat d.coefficient ++ 'e' :: Text.ofInt d.exponent

def newline (depth : Nat) : Text := '\n' :: List.replicate (2 * depth) ' '

/-- Entries between brackets, each on a line of its own; only the brackets when there is none. -/
def block (depth : Nat) (opening closing : Char) (entries : List Text) : Text :=
  if entries = [] then [opening, closing]
  else
    opening :: newline (depth + 1) ++ List.intercalate (',' :: newline (depth + 1)) entries ++
      newline depth ++ [closing]

mutual

def renderAt (depth : Nat) : Json → Text
  | .null => "null"
  | .bool true => "true"
  | .bool false => "false"
  | .int n => Text.ofInt n
  | .decimal d => d.text
  | .nan => "NaN"
  | .infinity false => "Infinity"
  | .infinity true => "-Infinity"
  | .string s => quote s
  | .unpaired points => quotePoints points
  | .array items => block depth '[' ']' (renderItems (depth + 1) items)
  | .object members => block depth '{' '}' (renderMembers (depth + 1) members)

def renderItems (depth : Nat) : List Json → List Text
  | [] => []
  | v :: rest => renderAt depth v :: renderItems depth rest

def renderMembers (depth : Nat) : List (Text × Json) → List Text
  | [] => []
  | (name, v) :: rest => (quote name ++ ": " ++ renderAt depth v) :: renderMembers depth rest

end

def render (v : Json) : Text := renderAt 0 v

end EmulationBindings.Json
