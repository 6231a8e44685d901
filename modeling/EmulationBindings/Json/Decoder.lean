import EmulationBindings.Json.Token

/-!
# Reading JSON

A machine with a stack of open arrays and objects takes the tokens of a text one by one.  Its
state says what may come next, so a token that may not come is an error at its own place, with
the message of that state.
-/

namespace EmulationBindings.Json

/-- An array or object that is still open, with what it holds so far: items in reverse, or
members and the name that waits for its value. -/
inductive Frame where
  | array (items : List Json)
  | object (members : Members) (name : Text)

inductive State where
  | value (stack : List Frame)
  | firstItem (stack : List Frame)
  | firstName (stack : List Frame)
  | name (members : Members) (stack : List Frame)
  | colon (members : Members) (name : Text) (stack : List Frame)
  | afterItem (items : List Json) (stack : List Frame)
  | afterMember (members : Members) (stack : List Frame)
  | finished (v : Json)

/-- What is wrong with a text, and where: line and column count from one, the offset from zero. -/
structure SyntaxFault where
  problem : Problem
  line : Nat
  column : Nat
  offset : Nat
  deriving DecidableEq

inductive Fault where
  | malformed (fault : SyntaxFault)
  | longInteger (digits : Nat)
  deriving DecidableEq

/-- What stops the machine, before its place is known as a line and a column. -/
inductive Halt where
  | malformed (offset : Nat) (problem : Problem)
  | longInteger (digits : Nat)
  deriving DecidableEq

/-- A value is complete: it is the document, or it goes into the innermost open container. -/
def complete (v : Json) : List Frame → State
  | [] => .finished v
  | .array items :: stack => .afterItem (v :: items) stack
  | .object members name :: stack => .afterMember (members.put name v) stack

def maxDigits : Nat := 4300

def Scalar.value : Scalar → Except Halt Json
  | .null => .ok .null
  | .bool b => .ok (.bool b)
  | .int negative ds =>
    if maxDigits < ds.length then .error (.longInteger ds.length)
    else
      let n : Int := Text.digitsValue ds
      .ok (.int (if negative then -n else n))
  | .decimal d =>
    .ok (if d.toDouble?.isNone then .infinity d.negative else .decimal d)
  | .nan => .ok .nan
  | .infinity negative => .ok (.infinity negative)
  | .string s => .ok (.string s)
  | .unpaired points => .ok (.unpaired points)

def takeValue (stack : List Frame) (pos : Nat) : Token → Except Halt State
  | .openArray => .ok (.firstItem stack)
  | .openObject => .ok (.firstName stack)
  | .scalar s => s.value.map (complete · stack)
  | .broken at_ problem => .error (.malformed at_ problem)
  | _ => .error (.malformed pos .expectedValue)

/-- A token where the name of a member may stand.  A name that denotes no text is kept with U+FFFD
in place of every surrogate without a partner. -/
def takeName (members : Members) (stack : List Frame) (pos : Nat) : Token → Except Halt State
  | .scalar (.string s) => .ok (.colon members s stack)
  | .scalar (.unpaired points) => .ok (.colon members (textOf points) stack)
  | .broken at_ problem =>
    .error (if problem = .expectedValue then .malformed pos .expectedName
      else .malformed at_ problem)
  | _ => .error (.malformed pos .expectedName)

def step (state : State) : Nat × Token → Except Halt State
  | (pos, tok) =>
    match state, tok with
    | .value stack, _ => takeValue stack pos tok
    | .firstItem stack, .closeArray => .ok (complete (.array []) stack)
    | .firstItem stack, _ => takeValue (.array [] :: stack) pos tok
    | .firstName stack, .closeObject => .ok (complete (.object []) stack)
    | .firstName stack, _ => takeName [] stack pos tok
    | .name members stack, _ => takeName members stack pos tok
    | .colon members name stack, .colon => .ok (.value (.object members name :: stack))
    | .colon _ _ _, _ => .error (.malformed pos .expectedColon)
    | .afterItem items stack, .comma => .ok (.value (.array items :: stack))
    | .afterItem items stack, .closeArray => .ok (complete (.array items.reverse) stack)
    | .afterItem _ _, _ => .error (.malformed pos .expectedComma)
    | .afterMember members stack, .comma => .ok (.name members stack)
    | .afterMember members stack, .closeObject => .ok (complete (.object members) stack)
    | .afterMember _ _, _ => .error (.malformed pos .expectedComma)
    | .finished v, .endOfText => .ok (.finished v)
    | .finished _, _ => .error (.malformed pos .extraData)

/-- Runs the machine over all tokens.  Tokens end in one that only a finished machine takes. -/
def run : State → List (Nat × Token) → Except Halt Json
  | .finished v, [] => .ok v
  | _, [] => .error (.malformed 0 .expectedValue)
  | state, t :: rest => do run (← step state t) rest

def place (before : Text) : Nat × Nat :=
  before.foldl (fun (line, column) c => if c = '\n' then (line + 1, 1) else (line, column + 1))
    (1, 1)

def Halt.fault (t : Text) : Halt → Fault
  | .malformed offset problem =>
    let (line, column) := place (t.take offset)
    .malformed { problem, line, column, offset }
  | .longInteger n => .longInteger n

/-- The value that a text denotes.  A byte order mark at its start is refused. -/
def decode (t : Text) : Except Fault Json :=
  if t.head? = some '\uFEFF' then .error (Halt.fault t (.malformed 0 .byteOrderMark))
  else (run (.value []) (tokens t)).mapError (Halt.fault t)

def Problem.text : Problem → Text
  | .expectedValue => "Expecting value"
  | .expectedName => "Expecting property name enclosed in double quotes"
  | .expectedColon => "Expecting ':' delimiter"
  | .expectedComma => "Expecting ',' delimiter"
  | .extraData => "Extra data"
  | .unterminatedString => "Unterminated string starting at"
  | .controlCharacter => "Invalid control character at"
  | .escape => "Invalid \\escape"
  | .unicodeEscape => "Invalid \\uXXXX escape"
  | .byteOrderMark => "Unexpected UTF-8 BOM (decode using utf-8-sig)"

def SyntaxFault.text (f : SyntaxFault) : Text :=
  f.problem.text ++ ": line " ++ Text.ofNat f.line ++ " column " ++ Text.ofNat f.column ++
    " (char " ++ Text.ofNat f.offset ++ ")"

end EmulationBindings.Json
